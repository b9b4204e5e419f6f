import Mathlib.Data.List.Sort
import Norns.Contracts.Protocol
import Norns.Contracts.Reducer
import Norns.Lib.OrdMap

/-! # The relay stores

`RelayStores` of `stores.ts`: the paired runners, the command outbox, and per runner id the event log
with its watermark. `ingestEvent` accepts the watermark's successor only.

The records of the state are properties of object literals, here ordered maps. A watermark that is looked
up under a name which every object inherits is no number (`inheritsWatermark`): no event of such a runner
is accepted. Of the other records the inherited names are left out, and so is the order of keys that are
integers. -/

namespace Norns.Server.Stores

open Norns.Lib Norns.Contracts.Protocol
open Norns.Contracts.Reducer (objectPrototypeKeys)

structure RunnerRecord where
  runner_id : String
  public_key_pem : String
  generation : Nat
  last_seen_at : Option Nat
  deriving DecidableEq, Repr

structure CommandRecord where
  envelope : CommandEnvelope
  state : CommandState
  updated_at : Nat
  superseded_terminal : Option CommandState
  deriving DecidableEq, Repr

inductive IngestOutcome
  | accepted | duplicate | out_of_order
  deriving DecidableEq, Repr

structure RelayStores where
  runners : OrdMap String RunnerRecord
  commands : OrdMap String CommandRecord
  eventsByRunner : OrdMap String (List EventEnvelope)
  /-- Keyed by the runner id alone. -/
  watermark : OrdMap String Nat
  deriving DecidableEq

namespace RelayStores

def new : RelayStores := ⟨OrdMap.empty, OrdMap.empty, OrdMap.empty, OrdMap.empty⟩

/-! ### Runners -/

/-- The generation of the record, zero if there is none. -/
def generationOf (s : RelayStores) (runnerId : String) : Nat :=
  match s.runners.get? runnerId with
  | some record => record.generation
  | none => 0

/-- Re-pairing fences the old runner. -/
def registerRunner (s : RelayStores) (runnerId publicKeyPem : String) :
    RelayStores × RunnerRecord :=
  let record := ⟨runnerId, publicKeyPem, s.generationOf runnerId + 1, none⟩
  ({ s with runners := s.runners.set runnerId record }, record)

/-- Reserve the generation an ephemeral runner will enroll at; the key stays empty. -/
def reserveRunnerGeneration (s : RelayStores) (runnerId : String) : RelayStores × Nat :=
  let record := ⟨runnerId, "", s.generationOf runnerId + 1, none⟩
  ({ s with runners := s.runners.set runnerId record }, record.generation)

/-- Bind a public key to a reserved generation. -/
def enrollRunnerAtGeneration (s : RelayStores) (runnerId publicKeyPem : String)
    (generation : Nat) : RelayStores × Option RunnerRecord :=
  match s.runners.get? runnerId with
  | none =>
    let record := ⟨runnerId, publicKeyPem, generation, none⟩
    ({ s with runners := s.runners.set runnerId record }, some record)
  | some record =>
    if record.generation ≠ generation then (s, none)
    else if record.public_key_pem ≠ "" ∧ record.public_key_pem ≠ publicKeyPem then (s, none)
    else
      let record := { record with public_key_pem := publicKeyPem }
      ({ s with runners := s.runners.set runnerId record }, some record)

def restoreDurableRunnerIdentity (s : RelayStores) (runnerId publicKeyPem : String)
    (generation : Nat) : RelayStores × RunnerRecord :=
  let record := ⟨runnerId, publicKeyPem, generation, none⟩
  ({ s with runners := s.runners.set runnerId record }, record)

/-- Fence every connection of the old generation. -/
def revokeRunnerSessions (s : RelayStores) (runnerId : String) :
    Except String (RelayStores × Nat) :=
  match s.runners.get? runnerId with
  | none => .error ("unknown runner " ++ runnerId)
  | some record =>
    let record := { record with generation := record.generation + 1 }
    .ok ({ s with runners := s.runners.set runnerId record }, record.generation)

/-! ### The command outbox -/

/-- A replay with another envelope is refused. -/
def enqueueCommand (s : RelayStores) (envelope : CommandEnvelope) (now : Nat) :
    Except String (RelayStores × CommandRecord) :=
  match s.commands.get? envelope.command_id with
  | some existing =>
    if existing.envelope ≠ envelope then
      .error ("command " ++ envelope.command_id ++ " was replayed with a different envelope")
    else .ok (s, existing)
  | none =>
    let record := ⟨envelope, .queued, now, none⟩
    .ok ({ s with commands := s.commands.set envelope.command_id record }, record)

/-- A state change through the command state machine: terminal states commit first. -/
def applyState (record : CommandRecord) (target : CommandState) (now : Nat) : CommandRecord :=
  if record.state = target then record
  else if record.state.isTerminal then
    if target.isTerminal ∧ record.superseded_terminal ≠ some target then
      { record with superseded_terminal := some target }
    else record
  else if canCommandTransition record.state target then
    { record with state := target, updated_at := now }
  else record

def setCommandState (s : RelayStores) (commandId : String) (target : CommandState) (now : Nat) :
    RelayStores :=
  match s.commands.get? commandId with
  | none => s
  | some record =>
    { s with commands := s.commands.set commandId (applyState record target now) }

/-- One record of `pendingCommandsFor`: resent if it is unfinished, expired if it is too old. -/
def collectPending (runnerId : String) (executedCommandIds : List String) (now : Nat)
    (acc : RelayStores × List CommandEnvelope) (record : CommandRecord) :
    RelayStores × List CommandEnvelope :=
  if record.envelope.runner_id ≠ runnerId then acc
  else if record.state ≠ .queued ∧ record.state ≠ .delivered then acc
  else if record.envelope.command_id ∈ executedCommandIds then acc
  else if isCommandExpired record.envelope now then
    (acc.1.setCommandState record.envelope.command_id .expired now, acc.2)
  else (acc.1, acc.2 ++ [record.envelope])

/-- The commands to (re)send, oldest first. -/
def pendingCommandsFor (s : RelayStores) (runnerId : String) (executedCommandIds : List String)
    (now : Nat) : RelayStores × List CommandEnvelope :=
  let (s, pending) :=
    s.commands.values.foldl (collectPending runnerId executedCommandIds now) (s, [])
  (s, pending.insertionSort fun a b => a.issued_at ≤ b.issued_at)

/-- The commands were sent. -/
def markDelivered (s : RelayStores) (commands : List CommandEnvelope) (now : Nat) : RelayStores :=
  commands.foldl (fun s c => s.setCommandState c.command_id .delivered now) s

/-! ### The event log -/

/-- The watermark of the runner, where it is a number. -/
def eventWatermark (s : RelayStores) (runnerId : String) : Nat :=
  (s.watermark.get? runnerId).getD 0

/-- The watermark that is found is a property of every object. -/
def inheritsWatermark (s : RelayStores) (runnerId : String) : Bool :=
  decide (runnerId ∈ objectPrototypeKeys) && (s.watermark.get? runnerId).isNone

def eventsFor (s : RelayStores) (runnerId : String) : List EventEnvelope :=
  (s.eventsByRunner.get? runnerId).getD []

/-- `Number.MAX_SAFE_INTEGER` -/
def maxSafeInteger : Nat := 9007199254740991

/-- Bring the snapshot up to a watermark proven by the relational event log. -/
def acknowledgeEventWatermark (s : RelayStores) (runnerId : String) (eventSequence : Nat) :
    RelayStores :=
  if eventSequence > maxSafeInteger then s
  else if s.inheritsWatermark runnerId = false ∧ eventSequence ≤ s.eventWatermark runnerId then s
  -- the setter of the prototype takes no number
  else if runnerId = "__proto__" then s
  else { s with watermark := s.watermark.set runnerId eventSequence }

/-- Duplicates are no-ops, gaps force a resync. -/
def ingestEvent (s : RelayStores) (event : EventEnvelope) : RelayStores × IngestOutcome :=
  -- what is inherited compares with no number
  if s.inheritsWatermark event.runner_id then (s, .out_of_order)
  else if event.event_seq ≤ s.eventWatermark event.runner_id then (s, .duplicate)
  else if event.event_seq ≠ s.eventWatermark event.runner_id + 1 then (s, .out_of_order)
  else ({ s with
    eventsByRunner :=
      s.eventsByRunner.set event.runner_id (s.eventsFor event.runner_id ++ [event])
    watermark := s.watermark.set event.runner_id event.event_seq }, .accepted)

/-- `applyEventSideEffects`: an acknowledgement moves its command. -/
def applyEventSideEffects (s : RelayStores) (event : EventEnvelope) (now : Nat) : RelayStores :=
  match event.payload.ack? with
  | some (commandId, state) => s.setCommandState commandId state now
  | none => s

/-- Ingest an event, and apply it if it is new. -/
def receive (s : RelayStores) (event : EventEnvelope) (now : Nat) : RelayStores :=
  let (s, outcome) := s.ingestEvent event
  if outcome = .accepted then s.applyEventSideEffects event now else s

/-! ### What ingestion does -/

/-- The event is the successor of the watermark. -/
def Next (s : RelayStores) (event : EventEnvelope) : Prop :=
  s.inheritsWatermark event.runner_id = false ∧ event.event_seq = s.eventWatermark event.runner_id + 1

theorem inheritsWatermark_of_own (s : RelayStores) {runnerId : String} (h : runnerId ∉ objectPrototypeKeys) :
    s.inheritsWatermark runnerId = false := by
  unfold inheritsWatermark
  rw [decide_eq_false h, Bool.false_and]

theorem eventWatermark_acknowledge_ne (s : RelayStores) {runnerId runnerId' : String} (n : Nat)
    (h : runnerId ≠ runnerId') :
    (s.acknowledgeEventWatermark runnerId n).eventWatermark runnerId' =
      s.eventWatermark runnerId' := by
  unfold acknowledgeEventWatermark
  split_ifs
  · rfl
  · rfl
  · rfl
  · simp [eventWatermark, OrdMap.get?_set_ne _ _ h]

/-- An acknowledgement raises the watermark to its number, or leaves it. -/
theorem eventWatermark_acknowledge (s : RelayStores) (runnerId : String) (n : Nat) :
    (s.acknowledgeEventWatermark runnerId n).eventWatermark runnerId = s.eventWatermark runnerId ∨
      (s.acknowledgeEventWatermark runnerId n).eventWatermark runnerId = n := by
  unfold acknowledgeEventWatermark
  split_ifs
  · exact .inl rfl
  · exact .inl rfl
  · exact .inl rfl
  · exact .inr (by simp [eventWatermark])

theorem ingestEvent_accepted {s : RelayStores} {event : EventEnvelope} (h : s.Next event) :
    (s.ingestEvent event).2 = .accepted ∧
      (s.ingestEvent event).1.eventWatermark event.runner_id = event.event_seq ∧
      (s.ingestEvent event).1.inheritsWatermark event.runner_id = false ∧
      (s.ingestEvent event).1.eventsFor event.runner_id =
        s.eventsFor event.runner_id ++ [event] := by
  obtain ⟨hown, hseq⟩ := h
  unfold ingestEvent
  rw [if_neg (by rw [hown]; decide), if_neg (by omega), if_neg (by omega)]
  refine ⟨rfl, ?_, ?_, ?_⟩
  · simp [eventWatermark]
  · simp [inheritsWatermark]
  · simp [eventsFor]

theorem ingestEvent_refused {s : RelayStores} {event : EventEnvelope} (h : ¬ s.Next event) :
    (s.ingestEvent event).1 = s ∧ (s.ingestEvent event).2 ≠ .accepted ∧
      ((s.ingestEvent event).2 = .duplicate → event.event_seq ≤ s.eventWatermark event.runner_id) := by
  unfold ingestEvent
  split_ifs with hinherits hold hgap
  · exact ⟨rfl, nofun, nofun⟩
  · exact ⟨rfl, nofun, fun _ => hold⟩
  · exact ⟨rfl, nofun, nofun⟩
  · exact absurd ⟨Bool.eq_false_of_not_eq_true hinherits, not_not.mp hgap⟩ h

/-- **Inherited names.** Where the watermark is a property of every object, no event is accepted. -/
theorem ingestEvent_inherited {s : RelayStores} {event : EventEnvelope}
    (h : s.inheritsWatermark event.runner_id = true) : s.ingestEvent event = (s, .out_of_order) := if_pos h

theorem eventWatermark_ingest_ne {s : RelayStores} {event : EventEnvelope} {runnerId : String}
    (h : event.runner_id ≠ runnerId) :
    (s.ingestEvent event).1.eventWatermark runnerId = s.eventWatermark runnerId := by
  unfold ingestEvent
  split_ifs
  · rfl
  · rfl
  · rfl
  · simp [eventWatermark, OrdMap.get?_set_ne _ _ h]

end RelayStores

end Norns.Server.Stores
