import Norns.Conversations.Context
import Norns.Conversations.InferenceBudget
import Norns.Coordinator.EventProcessor
import Norns.Inference.Proxy
import Norns.Lib.Edit
import Norns.Lib.Utf8

/-! # The turns of a conversation

`ConversationTurnService.run` and `finish` (`conversations/turnService.ts`), over the attempt and the output message
that `conversations/turnRepository.ts` keeps and the lease of the turn. What the provider sends, when the turn is
aborted and which call fails are the input. A call of the repository is a transaction, so one that fails leaves the
rows as they were; `AdapterError`s come from the provider only. The texts are code units, as the provider's deltas may
cut them anywhere; ids and reasons are strings.

* `Rows`: the transactions of the repository;
* `handleEvent`, `consume`: the loop, `caught`: the `catch` block, `run`: a turn;
* `sat_attempted`, `sat_transact`: the calls;
* `deltas`, `given`: what was received and what was shown. -/

namespace Norns.Conversations.Turns

open Norns.Lib.Edit
open Norns.Conversations.Context (V2WorkMessageVisibilityStatus)
open Norns.Conversations.InferenceBudget (UsageEvent)
open Norns.Coordinator (trim)
open Norns.Inference.Proxy (AdapterErrorKind)
open Norns.Lib.JsonText (CodeUnit Text isJsonbText)
open Norns.Lib.Utf8 (isSpace)

/-! ### What the provider sends -/

/-- `UsageEventT`, as far as a turn records it. -/
structure Usage extends UsageEvent where
  cache_read_tokens : Option ℕ := none
  cache_write_tokens : Option ℕ := none
  deriving DecidableEq

/-- The metadata of an `AdapterError`; without metadata all of it is missing. -/
structure AdapterFailureMetadata where
  provider_execution_id : Option String := none
  finish_reason : Option String := none
  request_dispatched : Option Bool := none
  usage : Option Usage := none
  deriving DecidableEq

structure AdapterError where
  kind : AdapterErrorKind
  metadata : AdapterFailureMetadata := {}
  deriving DecidableEq

inductive Thrown
  | adapter (error : AdapterError)
  /-- `ConversationTurnError` -/
  | turn (code message : String) (httpStatus : ℕ)
  | other
  deriving DecidableEq

/-- `event.result` -/
structure ConversationResult where
  text : Text
  usage : Usage
  provider_execution_id : String
  finish_reason : String
  deriving DecidableEq

inductive ConversationStreamEvent
  | response_started (provider_execution_id : String)
  | text_delta (delta : Text)
  | finish (result : ConversationResult)
  deriving DecidableEq

def retryable : AdapterErrorKind → Bool
  | .rate_limit => true
  | .overloaded => true
  | .server => true
  | .network => true
  | _ => false

/-- What is told of an error. -/
structure PublicFailure where
  code : String
  category : String
  messageRedacted : String
  /-- `retryable` and `request_dispatched` -/
  sanitized : Option (Bool × Option Bool)
  deriving DecidableEq

def publicFailure : Thrown → PublicFailure
  | .adapter error =>
    ⟨error.kind.text, "adapter_error", "provider stream failed (" ++ error.kind.text ++ ")",
      some (retryable error.kind, error.metadata.request_dispatched)⟩
  | .turn code message _ => ⟨code, "conversation_error", message, none⟩
  | .other => ⟨"unexpected", "unexpected_error", "conversation turn failed unexpectedly", none⟩

/-- The metadata of the error, if it is an `AdapterError`. -/
def Thrown.metadata : Thrown → AdapterFailureMetadata
  | .adapter error => error.metadata
  | _ => {}

def Thrown.isCancelled : Thrown → Bool
  | .adapter error => error.kind = .cancelled
  | _ => false

/-- `exactUsage`: without a usage it is `unavailable`. -/
def exactUsage (error : Thrown) : Option Usage := error.metadata.usage

def isZeroWidth (c : CodeUnit) : Bool := [0x200b, 0x200c, 0x200d, 0x2060, 0xfeff].contains c.val

def hasVisibleContent (text : Text) : Bool := text.any fun c => !isZeroWidth c && !isSpace c

/-! ### The rows -/

inductive V2ConversationTurnAttemptStatus
  | pending | streaming | succeeded | failed | cancelled
  deriving DecidableEq, Repr

def V2ConversationTurnAttemptStatus.isTerminal : V2ConversationTurnAttemptStatus → Bool
  | .succeeded => true
  | .failed => true
  | .cancelled => true
  | _ => false

inductive V2ConversationUsageStatus
  | pending | exact | unavailable
  deriving DecidableEq, Repr

/-- The token counts and the cost of an attempt. -/
structure RecordedUsage where
  input_tokens : ℕ
  output_tokens : ℕ
  cache_read_tokens : ℕ
  cache_write_tokens : ℕ
  cost_usd : ℚ
  deriving DecidableEq

def Usage.recorded (usage : Usage) : RecordedUsage where
  input_tokens := usage.input_tokens
  output_tokens := usage.output_tokens
  cache_read_tokens := usage.cache_read_tokens.getD 0
  cache_write_tokens := usage.cache_write_tokens.getD 0
  cost_usd := usage.cost

structure AttemptRow where
  status : V2ConversationTurnAttemptStatus
  provider_request_id : Option String
  /-- The output message is linked. -/
  output_message : Bool
  provider_finish_reason : Option String
  usage_status : V2ConversationUsageStatus
  usage : Option RecordedUsage
  failure : Option PublicFailure
  deriving DecidableEq

structure MessageRow where
  visibility_status : V2WorkMessageVisibilityStatus
  text : Text
  deriving DecidableEq

/-- The attempt and its output message. -/
structure Rows where
  attempt : AttemptRow
  message : Option MessageRow
  deriving DecidableEq

/-- `V2NonEmptyString`, and the checks of the columns; a `text` column refuses U+0000. -/
def isFilled (s : String) : Bool := trim s ≠ "" ∧ '\x00' ∉ s.toList

/-- `textParts`: the schema takes a visible text, and the cast to `jsonb` one that it can keep. -/
def isStorable (text : Text) : Bool := hasVisibleContent text && isJsonbText text

theorem isStorable_iff {text : Text} :
    isStorable text = true ↔ hasVisibleContent text = true ∧ isJsonbText text = true := by
  unfold isStorable
  rw [Bool.and_eq_true]

namespace Rows

variable (rows : Rows)

def markDispatched (providerRequestId : String) : Option Rows :=
  if rows.attempt.status = .pending ∧ isFilled providerRequestId then
    some { rows with
      attempt := { rows.attempt with
        status := .streaming
        provider_request_id := some providerRequestId } }
  else none

def startVisibleOutput (text : Text) : Option Rows :=
  if rows.attempt.status = .streaming ∧ rows.attempt.provider_request_id ≠ none ∧
      rows.attempt.output_message = false ∧ isStorable text = true then
    some
      { attempt := { rows.attempt with output_message := true }
        message := some ⟨.streaming, text⟩ }
  else none

/-- The message is written while it is streaming. -/
def writeMessage (status : V2WorkMessageVisibilityStatus) (text : Text) : Option Rows :=
  match rows.message with
  | none => none
  | some message =>
    if message.visibility_status = .streaming ∧ isStorable text = true then
      some { rows with message := some ⟨status, text⟩ }
    else none

def persistVisibleText (text : Text) : Option Rows := rows.writeMessage .streaming text

def finalizeMessage (status : V2WorkMessageVisibilityStatus) (text : Text) : Option Rows :=
  if text = [] then none else rows.writeMessage status text

def succeed (text : Text) (providerRequestId finishReason : String) (usage : Usage) : Option Rows :=
  match rows.finalizeMessage .complete text with
  | none => none
  | some rows' =>
    if rows'.attempt.status = .streaming ∧ rows'.attempt.output_message = true ∧ isFilled finishReason then
      some { rows' with
        attempt := { rows'.attempt with
          status := .succeeded
          provider_request_id := rows'.attempt.provider_request_id.orElse fun _ => some providerRequestId
          provider_finish_reason := some finishReason
          usage_status := .exact
          usage := some usage.recorded } }
    else none

/-- The output is interrupted, if there is one. -/
def interrupt (visibleOutput : Bool) (text : Text) : Option Rows :=
  if visibleOutput then rows.finalizeMessage .interrupted text else some rows

/-- `ConversationAttemptUsage` -/
def usageStatus (usage : Option Usage) : V2ConversationUsageStatus :=
  if usage.isSome then .exact else .unavailable

def cancel (visibleOutput : Bool) (text : Text) (usage : Option Usage) : Option Rows :=
  if rows.attempt.status.isTerminal then some rows
  else
    match rows.interrupt visibleOutput text with
    | none => none
    | some rows' =>
      some { rows' with
        attempt := { rows'.attempt with
          status := .cancelled
          usage_status := usageStatus usage
          usage := usage.map Usage.recorded } }

def fail (visibleOutput : Bool) (text : Text) (usage : Option Usage) (failure : PublicFailure)
    (finishReason : Option String) : Option Rows :=
  if rows.attempt.status.isTerminal then some rows
  else
    match rows.interrupt visibleOutput text with
    | none => none
    | some rows' =>
      if (∀ reason ∈ finishReason, isFilled reason) ∧ isFilled failure.code ∧ isFilled failure.messageRedacted then
        some { rows' with
          attempt := { rows'.attempt with
            status := .failed
            provider_finish_reason := finishReason
            usage_status := usageStatus usage
            usage := usage.map Usage.recorded
            failure := some failure } }
      else none

end Rows

/-! ### A turn -/

/-- The calls of `run` and `finish`. -/
inductive Step
  | markDispatched | started | startVisibleOutput | persistVisibleText | text | observe | settle | succeed
  | complete | finished | release | retainAmbiguous | cancel | fail | traceFail
  deriving DecidableEq, Repr

inductive Call
  /-- A call for the event of that index. -/
  | event (i : ℕ) (step : Step)
  /-- A call of the `catch` block. -/
  | caught (step : Step)
  deriving DecidableEq, Repr

/-- An error of the provider. -/
inductive ProviderError
  | adapter (error : AdapterError)
  | other
  deriving DecidableEq

def ProviderError.thrown : ProviderError → Thrown
  | .adapter error => .adapter error
  | .other => .other

inductive Failing
  /-- `lease.stream` -/
  | stream (error : ProviderError)
  | call (c : Call)
  deriving DecidableEq

structure Input where
  events : List ConversationStreamEvent
  /-- The error that ends the stream. -/
  ending : Option ProviderError := none
  /-- The number of events after which the turn is aborted. -/
  abort : Option ℕ := none
  /-- The call that fails. -/
  failing : Option Failing := none
  deriving DecidableEq

def Input.fails (input : Input) (c : Call) : Prop := input.failing = some (.call c)

instance (input : Input) (c : Call) : Decidable (input.fails c) := by
  unfold Input.fails; infer_instance

/-- A reservation of the inference budget. -/
inductive Lease
  | active
  | settled (usage : Usage)
  | released
  | retained_ambiguous
  deriving DecidableEq

/-- The first resolution counts. -/
def Lease.resolve (lease outcome : Lease) : Lease := if lease = .active then outcome else lease

inductive TraceEvent
  | observed (usage : Usage) (providerRequestId : String)
  | completed (providerRequestId : String)
  | failed (code messageRedacted : String) (providerRequestId : Option String)
  deriving DecidableEq

structure State where
  rows : Rows
  lease : Lease
  trace : List TraceEvent
  /-- The texts given to `callbacks.text`. -/
  texts : List Text
  /-- The attempt is one of `controllers`. -/
  active : Bool
  aborted : Bool
  -- the variables of `run`
  providerRequestId : Option String
  visibleOutput : Bool
  text : Text
  terminal : Bool
  -- what came from the provider
  received : List ConversationStreamEvent
  providerError : Option Thrown
  deriving DecidableEq

abbrev Turn := EStateM Thrown State

variable {α : Type}

def attempted (input : Input) (c : Call) (m : Turn α) : Turn α := if input.fails c then throw .other else m

/-- A transaction of the repository. -/
def transact (op : Rows → Option Rows) : Turn Unit := fun s =>
  match op s.rows with
  | some rows => .ok () { s with rows := rows }
  | none => .error .other s

/-- `.catch(() => undefined)` -/
def swallow (m : Turn Unit) : Turn Unit := fun s =>
  match m s with
  | .ok _ s' => .ok () s'
  | .error _ s' => .ok () s'

def resolveTo (outcome : Lease) : Turn Unit := modify fun s => { s with lease := s.lease.resolve outcome }

def report (event : TraceEvent) : Turn Unit := modify fun s => { s with trace := s.trace ++ [event] }

/-- `callbacks.text` -/
def give (input : Input) (i : ℕ) (delta : Text) : Turn Unit := do
  modify fun s => { s with texts := s.texts ++ [delta] }
  attempted input (.event i .text) (pure ())

def invalidResponse (metadata : AdapterFailureMetadata) : Thrown := .adapter ⟨.invalid_response, metadata⟩

/-- The metadata of a result that is refused. -/
def ConversationResult.metadata (result : ConversationResult) : AdapterFailureMetadata where
  provider_execution_id := some result.provider_execution_id
  finish_reason := some result.finish_reason
  request_dispatched := some true
  usage := some result.usage

/-- `if (visibleOutputId === null)` -/
def startOutput (input : Input) (i : ℕ) (s : State) : Turn Unit :=
  if s.visibleOutput then pure ()
  else attempted input (.event i .startVisibleOutput) (transact fun rows => rows.startVisibleOutput s.text)

/-- The success is committed, and then reported. -/
def commitSuccess (input : Input) (i : ℕ) (result : ConversationResult) (text : Text) : Turn Unit := do
  attempted input (.event i .succeed) (transact fun rows =>
    rows.succeed text result.provider_execution_id result.finish_reason result.usage)
  attempted input (.event i .complete) (report (.completed result.provider_execution_id))
  attempted input (.event i .finished) (pure ())

def finish (input : Input) (i : ℕ) (result : ConversationResult) (s : State) : Turn Unit :=
  if s.providerRequestId ≠ some result.provider_execution_id then throw (invalidResponse {})
  else if result.text ≠ s.text then throw (invalidResponse result.metadata)
  else if hasVisibleContent s.text = false then throw (invalidResponse result.metadata)
  else do
    startOutput input i s
    attempted input (.event i .observe) (report (.observed result.usage result.provider_execution_id))
    swallow (attempted input (.event i .settle) (resolveTo (.settled result.usage)))
    commitSuccess input i result s.text

/-- One turn of the loop. -/
def handleEvent (input : Input) (i : ℕ) (event : ConversationStreamEvent) : Turn Unit := do
  let s ← get
  match event with
  | .response_started provider_execution_id =>
    if s.providerRequestId ≠ none then throw (invalidResponse {})
    else do
      modify fun s => { s with providerRequestId := some provider_execution_id }
      attempted input (.event i .markDispatched) (transact fun rows => rows.markDispatched provider_execution_id)
      attempted input (.event i .started) (pure ())
  | .text_delta delta =>
    if s.providerRequestId = none then throw (invalidResponse {})
    else if delta = [] then pure ()
    else do
      modify fun s => { s with text := s.text ++ delta }
      if s.visibleOutput then do
        attempted input (.event i .persistVisibleText)
          (transact fun rows => rows.persistVisibleText (s.text ++ delta))
        give input i delta
      else if hasVisibleContent (s.text ++ delta) then do
        attempted input (.event i .startVisibleOutput)
          (transact fun rows => rows.startVisibleOutput (s.text ++ delta))
        modify fun s => { s with visibleOutput := true }
        give input i (s.text ++ delta)
      else pure ()
  | .finish result => do
    finish input i result s
    modify fun s =>
      { s with
        visibleOutput := true
        terminal := true }

/-- `for await (const event of stream)`, from the event of index `i` on. -/
def consume (input : Input) : ℕ → List ConversationStreamEvent → Turn Unit
  | _, [] =>
    match input.ending with
    | none => pure ()
    | some error => do
      modify fun s => { s with providerError := some error.thrown }
      throw error.thrown
  | i, event :: events => do
    modify fun s => { s with received := s.received ++ [event] }
    handleEvent input i event
    consume input (i + 1) events

/-- The `try` block. -/
def body (input : Input) : Turn Unit :=
  match input.failing with
  | some (.stream error) => do
    modify fun s => { s with providerError := some error.thrown }
    throw error.thrown
  | _ => do
    consume input 0 input.events
    let s ← get
    if s.terminal then pure () else throw (invalidResponse {})

/-- A dispatch that only the metadata of the error tells. -/
def attachDispatch (input : Input) (error : Thrown) : Turn Unit := do
  let s ← get
  match error.metadata.provider_execution_id with
  | none => pure ()
  | some id =>
    if s.providerRequestId = none ∧ id ≠ "" then do
      attempted input (.caught .markDispatched) (transact fun rows => rows.markDispatched id)
      modify fun s => { s with providerRequestId := some id }
    else pure ()

def observeFailure (input : Input) (error : Thrown) : Turn Unit := do
  let s ← get
  match exactUsage error, s.providerRequestId with
  | some usage, some id =>
    if id ≠ "" then attempted input (.caught .observe) (report (.observed usage id)) else pure ()
  | _, _ => pure ()

def resolveLease (input : Input) (error : Thrown) : Turn Unit := do
  let s ← get
  match exactUsage error with
  | some usage => swallow (attempted input (.caught .settle) (resolveTo (.settled usage)))
  | none =>
    if s.providerRequestId = none ∧ error.metadata.request_dispatched = some false then
      swallow (attempted input (.caught .release) (resolveTo .released))
    else swallow (attempted input (.caught .retainAmbiguous) (resolveTo .retained_ambiguous))

/-- `cancelled`; an abort that comes later is not seen. -/
def Input.isCancelled (input : Input) (error : Thrown) (s : State) : Bool :=
  input.abort.any (fun n => decide (n ≤ s.received.length)) || error.isCancelled

def closeAttempt (input : Input) (error : Thrown) : Turn Unit := do
  let s ← get
  if input.isCancelled error s then
    attempted input (.caught .cancel) (transact fun rows => rows.cancel s.visibleOutput s.text (exactUsage error))
  else
    attempted input (.caught .fail) (transact fun rows => rows.fail s.visibleOutput s.text (exactUsage error)
      (publicFailure error) error.metadata.finish_reason)

/-- The error of `run`. -/
def turnError (cancelled : Bool) (error : Thrown) : Thrown :=
  if cancelled then .turn "cancelled" "response stopped" 499
  else .turn (publicFailure error).code (publicFailure error).messageRedacted 502

def reportFailure (input : Input) (error : Thrown) : Turn Unit := do
  let s ← get
  let failure := publicFailure error
  let cancelled := input.isCancelled error s
  attempted input (.caught .traceFail) (report (.failed (if cancelled then "cancelled" else failure.code)
    (if cancelled then "provider stream cancelled" else failure.messageRedacted)
    (s.providerRequestId.orElse fun _ => error.metadata.provider_execution_id)))
  throw (turnError cancelled error)

/-- The `catch` block. -/
def caught (input : Input) (error : Thrown) : Turn Unit := do
  let s ← get
  if s.terminal then throw error
  else do
    attachDispatch input error
    observeFailure input error
    resolveLease input error
    closeAttempt input error
    reportFailure input error

/-- The `finally` block. -/
def close (input : Input) (s : State) : State :=
  { s with
    active := false
    aborted := !s.terminal || input.abort.any fun n => decide (n ≤ s.received.length) }

def run (input : Input) : Turn Unit := fun s =>
  match body input s with
  | .ok _ s' => .ok () (close input s')
  | .error error s' =>
    match caught input error s' with
    | .ok _ s'' => .ok () (close input s'')
    | .error error' s'' => .error error' (close input s'')

/-- A turn that was prepared: the attempt is pending and the lease is held. -/
def prepared : State where
  rows := ⟨⟨.pending, none, false, none, .pending, none, none⟩, none⟩
  lease := .active
  trace := []
  texts := []
  active := true
  aborted := false
  providerRequestId := none
  visibleOutput := false
  text := []
  terminal := false
  received := []
  providerError := none


/-! ### Calls -/

section

variable {input : Input} {s : State} {c : Call} {m : Turn α} {ok : α → State → Prop} {err : Thrown → State → Prop}

/-- A call that does not fail. -/
theorem sat_attempted (hfails : input.fails c → err .other s) (h : ¬ input.fails c → Sat m s ok err) :
    Sat (attempted input c m) s ok err := by
  unfold attempted
  by_cases hc : input.fails c
  · rw [if_pos hc]
    exact hfails hc
  · rw [if_neg hc]
    exact h hc

theorem sat_transact {op : Rows → Option Rows} {ok : Unit → State → Prop}
    (hnone : op s.rows = none → err .other s)
    (hsome : ∀ rows, op s.rows = some rows → ok () { s with rows := rows }) :
    Sat (transact op) s ok err := by
  unfold Sat transact
  rcases hop : op s.rows with _ | rows
  · exact hnone hop
  · exact hsome rows hop

/-- The lease is resolved unless the call fails, and nothing else happens. -/
theorem sat_swallow_resolve (outcome : Lease) {ok : Unit → State → Prop}
    (hfails : input.fails c → ok () s)
    (h : ¬ input.fails c → ok () { s with lease := s.lease.resolve outcome }) :
    Sat (swallow (attempted input c (resolveTo outcome))) s ok err := by
  unfold Sat swallow attempted
  by_cases hc : input.fails c
  · rw [if_pos hc]
    exact hfails hc
  · rw [if_neg hc]
    exact h hc

end

/-! ### Texts -/

/-- The text of the deltas. -/
def deltas (events : List ConversationStreamEvent) : Text :=
  events.foldl (fun text event => match event with
    | .text_delta delta => text ++ delta
    | _ => text) []

def isFinish : ConversationStreamEvent → Bool
  | .finish _ => true
  | _ => false

/-- The events before the first `finish`. -/
def beforeFinish (events : List ConversationStreamEvent) : List ConversationStreamEvent :=
  events.takeWhile fun event => !isFinish event

/-- The provider's id of the first `response_started`. -/
def startedId : List ConversationStreamEvent → Option String
  | [] => none
  | .response_started id :: _ => some id
  | _ :: events => startedId events

def given (texts : List Text) : Text := texts.flatten

section

variable {events : List ConversationStreamEvent} {event : ConversationStreamEvent}

@[simp] theorem deltas_append_delta (delta : Text) :
    deltas (events ++ [.text_delta delta]) = deltas events ++ delta := by
  unfold deltas
  rw [List.foldl_append]
  rfl

theorem deltas_append_other (h : ∀ delta, event ≠ .text_delta delta) : deltas (events ++ [event]) = deltas events := by
  unfold deltas
  rw [List.foldl_append]
  cases event with
  | text_delta delta => exact absurd rfl (h delta)
  | response_started id => rfl
  | finish result => rfl

@[simp] theorem given_append (texts : List Text) (delta : Text) : given (texts ++ [delta]) = given texts ++ delta := by
  simp [given]

theorem beforeFinish_eq (h : ∀ result, .finish result ∉ events) : beforeFinish events = events := by
  refine List.takeWhile_eq_self_iff.mpr fun e he => ?_
  cases e with
  | finish result => exact absurd he (h result)
  | response_started id => rfl
  | text_delta delta => rfl

theorem beforeFinish_append_finish (h : ∀ result, .finish result ∉ events) (result : ConversationResult)
    (rest : List ConversationStreamEvent) : beforeFinish (events ++ .finish result :: rest) = events := by
  unfold beforeFinish
  rw [List.takeWhile_append_of_pos (by
    intro e he
    cases e with
    | finish result => exact absurd he (h result)
    | response_started id => rfl
    | text_delta delta => rfl), List.takeWhile_cons_of_neg (by simp [isFinish]), List.append_nil]

theorem startedId_append (h : startedId events = none) : startedId (events ++ [event]) = startedId [event] := by
  induction events with
  | nil => rfl
  | cons first events ih =>
    cases first with
    | response_started id => cases h
    | text_delta delta => exact ih h
    | finish result => exact ih h

theorem startedId_append_of_some {id : String} (h : startedId events = some id)
    (rest : List ConversationStreamEvent) : startedId (events ++ rest) = some id := by
  induction events with
  | nil => cases h
  | cons first events ih =>
    cases first with
    | response_started other => exact h
    | text_delta delta => exact ih h
    | finish result => exact ih h

theorem startedId_none (h : startedId events = none) (id : String) : .response_started id ∉ events := by
  induction events with
  | nil => exact List.not_mem_nil
  | cons first events ih =>
    cases first with
    | response_started other => cases h
    | text_delta delta => simpa using ih h
    | finish result => simpa using ih h

theorem hasVisibleContent_append {text : Text} (h : hasVisibleContent text = true) (delta : Text) :
    hasVisibleContent (text ++ delta) = true := by
  unfold hasVisibleContent at h ⊢
  rw [List.any_append, h, Bool.true_or]

end

end Norns.Conversations.Turns
