import Norns.Lib.OrdMap
import Norns.Lib.Utf8

/-! # The telemetry of model calls

`AiInvocationTelemetry` of `usage-intelligence/telemetry.ts`: the events of a request, the append that falls back to the
queue, the bounded queue, and the drain that runs once at a time. What happens between two `await`s is one step. The
repository takes an event at most once for each stable id; the answer for an append that took effect may still be a
failure, and an append that failed may take effect later. A trace hands over its next event when the append of the last
one has returned, as its callers wait for each of its calls.

* `enqueue`, `drain`: the queue and its drain, which stops at the answers of the repository;
* `step`: what can happen; an act that is not possible leaves the world as it is. -/

namespace Norns.UsageIntelligence.Telemetry

open Norns.Lib Norns.Lib.JsonText Norns.Lib.Utf8

/-- Milliseconds. -/
abbrev Time := ℕ

/-! ### Events -/

inductive EventType
  | request_started | usage_observed | request_completed | request_failed
  deriving DecidableEq, Repr

/-- An event; `body` are the fields that the telemetry does not look at. -/
structure LifecycleEvent (β : Type) where
  request_id : Text
  event_type : EventType
  body : β

/-- An event with its stable id. -/
structure Call (β : Type) where
  event : LifecycleEvent β
  stableEventId : Text

structure PendingTelemetryEvent (β : Type) where
  call : Call β
  attempts : ℕ

def EventType.suffix : EventType → Text
  | .request_started => units "started"
  | .usage_observed => units "usage"
  | .request_completed => units "completed"
  | .request_failed => units "failed"

/-- The event of `start`. -/
def startCall {β : Type} (requestId : Text) (body : β) : Call β where
  event := ⟨requestId, .request_started, body⟩
  stableEventId := requestId ++ units ":started"

/-- The event of a trace with its ordinal. -/
def traceCall {β : Type} (requestId : Text) (eventOrdinal : ℕ) (eventType : EventType) (body : β) : Call β where
  event := ⟨requestId, eventType, body⟩
  stableEventId := requestId ++ units ":" ++ units (toString eventOrdinal) ++ units ":" ++ eventType.suffix

/-! ### The queue -/

structure Options where
  maxPendingEvents : ℕ
  maxRetryAttempts : ℕ
  retryBaseDelayMs : ℕ
  pending_pos : 0 < maxPendingEvents
  attempts_pos : 0 < maxRetryAttempts
  delay_pos : 0 < retryBaseDelayMs

inductive HealthStatus
  | healthy | degraded
  deriving DecidableEq, Repr

structure AiTelemetryHealth where
  status : HealthStatus
  pendingEvents : ℕ
  droppedEvents : ℕ
  lastFailureAt : Option Time
  lastRecoveryAt : Option Time

/-- The drain: none runs, the first event is being appended, or the promise is about to be forgotten. -/
inductive Reconciliation
  | idle
  | appending (recovered : ℕ)
  | settling (recovered : ℕ)
  deriving DecidableEq

def Reconciliation.isAppending : Reconciliation → Bool
  | .appending _ => true
  | _ => false

/-- The fields of the class. `dropped` are the events that `droppedEvents` counts, `emitted` what the hook was told. -/
structure AiInvocationTelemetry (β : Type) where
  pending : List (PendingTelemetryEvent β)
  retryTimer : Option ℕ
  reconciliation : Reconciliation
  dropped : List (Call β)
  lastFailureAt : Option Time
  lastRecoveryAt : Option Time
  lastEmittedStatus : HealthStatus
  emitted : List AiTelemetryHealth

def AiInvocationTelemetry.initial {β : Type} : AiInvocationTelemetry β := ⟨[], none, .idle, [], none, none, .healthy, []⟩

section

variable {β : Type} (options : Options)

def health (t : AiInvocationTelemetry β) : AiTelemetryHealth where
  status := if t.pending.length > 0 ∨ t.dropped.length > 0 then .degraded else .healthy
  pendingEvents := t.pending.length
  droppedEvents := t.dropped.length
  lastFailureAt := t.lastFailureAt
  lastRecoveryAt := t.lastRecoveryAt

def emitHealth (force : Bool) (t : AiInvocationTelemetry β) : AiInvocationTelemetry β :=
  if force = false ∧ (health t).status = t.lastEmittedStatus then t
  else { t with lastEmittedStatus := (health t).status, emitted := t.emitted ++ [health t] }

def recordFailure (now : Time) (t : AiInvocationTelemetry β) : AiInvocationTelemetry β := emitHealth false { t with lastFailureAt := some now }

def recordSuccess (now : Time) (t : AiInvocationTelemetry β) : AiInvocationTelemetry β :=
  emitHealth false
    (if t.pending.length = 0 ∧ t.dropped.length = 0 ∧ t.lastFailureAt.isSome then { t with lastRecoveryAt := some now }
    else t)

/-- The attempts of the first event. -/
def firstAttempts (pending : List (PendingTelemetryEvent β)) : ℕ :=
  match pending with
  | [] => 0
  | item :: _ => item.attempts

def scheduleRetry (t : AiInvocationTelemetry β) : AiInvocationTelemetry β :=
  if t.retryTimer.isSome ∨ t.pending.length = 0 then t
  else { t with retryTimer := some (min (options.retryBaseDelayMs * 2 ^ firstAttempts t.pending) 10000) }

def enqueue (now : Time) (call : Call β) (t : AiInvocationTelemetry β) : AiInvocationTelemetry β :=
  if t.pending.any fun candidate => candidate.call.stableEventId = call.stableEventId then t
  else
    let t := recordFailure now t
    if t.pending.length ≥ options.maxPendingEvents then emitHealth true { t with dropped := t.dropped ++ [call] }
    else scheduleRetry options (emitHealth false { t with pending := t.pending ++ [⟨call, 0⟩] })

/-! ### The drain -/

/-- What comes after the loop. -/
def drainEnd (recovered : ℕ) (t : AiInvocationTelemetry β) : AiInvocationTelemetry β :=
  { (if t.pending.length > 0 then scheduleRetry options t else emitHealth false t) with
    reconciliation := .settling recovered }

/-- The head of the loop: the first event is appended, if there is one. -/
def drainLoop (recovered : ℕ) (t : AiInvocationTelemetry β) : AiInvocationTelemetry β :=
  match t.pending with
  | [] => drainEnd options recovered t
  | _ :: _ => { t with reconciliation := .appending recovered }

def drain (t : AiInvocationTelemetry β) : AiInvocationTelemetry β := drainLoop options 0 { t with retryTimer := none }

/-- The append of the first event has returned. -/
def drainAppended (now : Time) (recovered : ℕ) (t : AiInvocationTelemetry β) : AiInvocationTelemetry β :=
  drainLoop options (recovered + 1) (recordSuccess now { t with pending := t.pending.tail })

/-- The append of the first event has thrown. -/
def drainFailed (now : Time) (recovered : ℕ) (t : AiInvocationTelemetry β) : AiInvocationTelemetry β :=
  match t.pending with
  | [] => t
  | item :: rest =>
    let t := recordFailure now { t with pending := ⟨item.call, item.attempts + 1⟩ :: rest }
    if item.attempts + 1 ≥ options.maxRetryAttempts then
      drainLoop options recovered (emitHealth true { t with pending := rest, dropped := t.dropped ++ [item.call] })
    else drainEnd options recovered t

def reconcile (t : AiInvocationTelemetry β) : AiInvocationTelemetry β :=
  match t.reconciliation with
  | .idle => drain options t
  | _ => t

/-- The timer fires. -/
def fire (t : AiInvocationTelemetry β) : AiInvocationTelemetry β := reconcile options { t with retryTimer := none }

end

/-! ### The world -/

/-- The telemetry, its open appends, the repository, and what has happened. -/
structure World (β : Type) where
  telemetry : AiInvocationTelemetry β
  /-- `eventOrdinal` of the trace of a request. -/
  traces : OrdMap Text ℕ
  /-- The appends that `appendWithRecovery` waits for. -/
  direct : List (Call β)
  /-- The events of the repository, in the order in which they were committed. -/
  rows : List (Call β)
  handed : List (Call β)
  sent : List (Call β)
  acked : List (Call β)
  failed : List (Call β)
  /-- What was committed after it had been dropped. -/
  late : List (Call β)

def World.initial {β : Type} : World β := ⟨.initial, OrdMap.empty, [], [], [], [], [], [], []⟩

inductive Act (β : Type)
  | start (now : Time) (requestId : Text) (body : β)
  | append (now : Time) (requestId : Text) (eventType : EventType) (body : β)
  /-- The look-up of the pricing profile throws. -/
  | lookupThrows (now : Time)
  /-- An append takes effect in the repository. -/
  | commit (stableEventId : Text)
  | resolve (now : Time) (stableEventId : Text)
  | reject (now : Time) (stableEventId : Text)
  | drainResolve (now : Time)
  | drainReject (now : Time)
  | reconcile
  | timer
  | settle

section

variable {β : Type} (options : Options)

def hasId (stableEventId : Text) (calls : List (Call β)) : Bool := calls.any fun call => call.stableEventId = stableEventId

def findId (stableEventId : Text) (calls : List (Call β)) : Option (Call β) :=
  calls.find? fun call => call.stableEventId = stableEventId

def removeId (stableEventId : Text) (calls : List (Call β)) : List (Call β) :=
  calls.eraseP fun call => call.stableEventId = stableEventId

/-- The stable id is new, and the last append of the request has returned. -/
def possible (w : World β) (call : Call β) : Prop :=
  hasId call.stableEventId w.handed = false ∧ ∀ open' ∈ w.direct, open'.event.request_id ≠ call.event.request_id

instance (w : World β) (call : Call β) : Decidable (possible w call) := by unfold possible; infer_instance

def appendWithRecovery (now : Time) (call : Call β) (w : World β) : World β :=
  if w.telemetry.pending.length > 0 then
    { w with telemetry := enqueue options now call w.telemetry, handed := w.handed ++ [call] }
  else { w with direct := w.direct ++ [call], sent := w.sent ++ [call], handed := w.handed ++ [call] }

/-- The drain goes on; the first event is sent when it is appended. -/
def advance (telemetry : AiInvocationTelemetry β) (w : World β) : World β :=
  match telemetry.reconciliation, telemetry.pending with
  | .appending _, item :: _ => { w with telemetry, sent := w.sent ++ [item.call] }
  | _, _ => { w with telemetry }

def step (w : World β) : Act β → World β
  | .start now requestId body =>
    let call := startCall requestId body
    if possible w call then appendWithRecovery options now call { w with traces := w.traces.set requestId 0 } else w
  | .append now requestId eventType body =>
    match w.traces.get? requestId with
    | none => w
    | some eventOrdinal =>
      let call := traceCall requestId (eventOrdinal + 1) eventType body
      if eventType ≠ .request_started ∧ possible w call then
        appendWithRecovery options now call { w with traces := w.traces.set requestId (eventOrdinal + 1) }
      else w
  | .lookupThrows now => { w with telemetry := recordFailure now w.telemetry }
  | .commit stableEventId =>
    match findId stableEventId w.sent with
    | none => w
    | some call =>
      if hasId stableEventId w.rows then w
      else if hasId stableEventId w.telemetry.dropped then { w with rows := w.rows ++ [call], late := w.late ++ [call] }
      else { w with rows := w.rows ++ [call] }
  | .resolve now stableEventId =>
    match findId stableEventId w.direct with
    | none => w
    | some call =>
      if hasId stableEventId w.rows then
        { w with
          direct := removeId stableEventId w.direct
          acked := w.acked ++ [call]
          telemetry := recordSuccess now w.telemetry }
      else w
  | .reject now stableEventId =>
    match findId stableEventId w.direct with
    | none => w
    | some call =>
      { w with
        direct := removeId stableEventId w.direct
        failed := w.failed ++ [call]
        telemetry := enqueue options now call w.telemetry }
  | .drainResolve now =>
    match w.telemetry.reconciliation, w.telemetry.pending with
    | .appending recovered, item :: _ =>
      if hasId item.call.stableEventId w.rows then
        advance (drainAppended options now recovered w.telemetry) { w with acked := w.acked ++ [item.call] }
      else w
    | _, _ => w
  | .drainReject now =>
    match w.telemetry.reconciliation, w.telemetry.pending with
    | .appending recovered, item :: _ =>
      advance (drainFailed options now recovered w.telemetry) { w with failed := w.failed ++ [item.call] }
    | _, _ => w
  | .reconcile =>
    match w.telemetry.reconciliation with
    | .idle => advance (reconcile options w.telemetry) w
    | _ => w
  | .timer =>
    if w.telemetry.retryTimer.isSome then
      match w.telemetry.reconciliation with
      | .idle => advance (fire options w.telemetry) w
      | _ => { w with telemetry := fire options w.telemetry }
    else w
  | .settle =>
    match w.telemetry.reconciliation with
    | .settling _ => { w with telemetry := { w.telemetry with reconciliation := .idle } }
    | _ => w

end

end Norns.UsageIntelligence.Telemetry
