import Norns.Devices.PublicationPermits
import Norns.Persistence.Lifecycles

/-! # Cancellations of device runs

`DeviceRunCancellationService` (`devices/cancellation.ts`), the loop of `DeviceRevocationService` over the
active runs (`revocation.ts`), and the constraints and triggers of `device_run_cancellations` (migrations 0055
and 0059). The rows of the table meet its constraints, so that a row that does not cannot be written. What the
joins over other tables find is given with each request.

The trigger of an update is `norns_guard_device_run_cancellation`. The trigger of an insert,
`norns_require_device_run_cancellation_scope`, wants the latest command of the run to be one of the device and
its generation; the services insert the rows of a join that asks the same in the same transaction, so that it
does not raise.

* `Guarded`: what the trigger of an update lets an update change; no update of the service changes more;
* `Quiet`: what a request does to the row of a run;
* `recordDeviceEvidence_ok`: what evidence does to it, and to the run. -/

namespace Norns.Devices.Cancellation

open Norns.Lib Norns.Lib.Run Norns.Lib.Transaction
open Norns.Contracts.V2Lifecycle Norns.Persistence.Lifecycles
open Norns.Devices.PublicationPermits (DeviceIdentity)

/-! ### Rows -/

/-- `DeviceRunCancellationCause` -/
inductive Cause
  | project_stop | device_revocation | emergency_stop
  deriving DecidableEq, Repr

/-- `CancellationConfirmationState` -/
inductive ConfirmationState
  | cancellation_requested | runner_acknowledged | process_exited | unconfirmed_offline
  deriving DecidableEq, Repr

/-- A row of `device_run_cancellations`; times are milliseconds. -/
structure CancellationRow where
  run_id : String
  identity : DeviceIdentity
  cause : Cause
  state : ConfirmationState
  requested_by_user_id : String
  reason : String
  requested_at : ℤ
  runner_acknowledged_at : Option ℤ
  process_exited_at : Option ℤ
  unconfirmed_offline_at : Option ℤ
  publication_fenced_at : Option ℤ
  publication_reauthorized_by_user_id : Option String
  publication_reauthorized_at : Option ℤ
  idempotency_key : Option String
  deriving DecidableEq, Repr

/-- `device_run_cancellations_evidence_time_check` -/
def EvidenceTime (row : CancellationRow) : Prop :=
  (∀ t ∈ row.runner_acknowledged_at, row.requested_at ≤ t) ∧
    (∀ t ∈ row.process_exited_at, row.requested_at ≤ t) ∧
    (∀ t ∈ row.process_exited_at, ∀ a ∈ row.runner_acknowledged_at, a ≤ t) ∧
    ∀ t ∈ row.unconfirmed_offline_at, row.requested_at ≤ t

/-- `device_run_cancellations_state_shape_check` -/
def StateShape (row : CancellationRow) : Prop :=
  match row.state with
  | .cancellation_requested => row.runner_acknowledged_at = none ∧ row.process_exited_at = none ∧
      row.unconfirmed_offline_at = none
  | .runner_acknowledged => row.runner_acknowledged_at.isSome ∧ row.process_exited_at = none
  | .process_exited => row.runner_acknowledged_at.isSome ∧ row.process_exited_at.isSome
  | .unconfirmed_offline => row.runner_acknowledged_at = none ∧ row.process_exited_at = none ∧
      row.unconfirmed_offline_at.isSome

/-- `device_run_cancellations_publication_fence_check` -/
def PublicationFence (row : CancellationRow) : Prop :=
  (row.cause = .device_revocation → row.publication_fenced_at.isSome) ∧
    ∀ t ∈ row.publication_fenced_at, row.requested_at ≤ t

/-- `device_run_cancellations_reauthorization_pair_check` -/
def ReauthorizationPair (row : CancellationRow) : Prop :=
  (row.publication_reauthorized_by_user_id = none ∧ row.publication_reauthorized_at = none) ∨
    (row.publication_reauthorized_by_user_id.isSome ∧ ∃ fence ∈ row.publication_fenced_at,
      ∃ t ∈ row.publication_reauthorized_at, fence ≤ t)

/-- The constraints of the table. -/
structure Checked (row : CancellationRow) : Prop where
  evidence_time : EvidenceTime row
  state_shape : StateShape row
  publication_fence : PublicationFence row
  reauthorization_pair : ReauthorizationPair row

instance (row : CancellationRow) : Decidable (EvidenceTime row) := by unfold EvidenceTime; infer_instance

instance (row : CancellationRow) : Decidable (StateShape row) := by
  unfold StateShape; cases row.state <;> exact inferInstanceAs (Decidable (_ ∧ _))

instance (row : CancellationRow) : Decidable (PublicationFence row) := by
  unfold PublicationFence; infer_instance

instance (row : CancellationRow) : Decidable (ReauthorizationPair row) := by
  unfold ReauthorizationPair; infer_instance

instance (row : CancellationRow) : Decidable (Checked row) :=
  decidable_of_iff (EvidenceTime row ∧ StateShape row ∧ PublicationFence row ∧ ReauthorizationPair row)
    ⟨fun h => ⟨h.1, h.2.1, h.2.2.1, h.2.2.2⟩,
      fun h => ⟨h.evidence_time, h.state_shape, h.publication_fence, h.reauthorization_pair⟩⟩

/-- A row that was written. -/
structure StoredRow extends CancellationRow where
  checked : Checked toCancellationRow
  deriving DecidableEq

/-- The transitions of the state that the trigger allows. -/
def stateTransitions : ConfirmationState → List ConfirmationState
  | .cancellation_requested => [.runner_acknowledged, .process_exited, .unconfirmed_offline]
  | .unconfirmed_offline => [.runner_acknowledged, .process_exited]
  | .runner_acknowledged => [.process_exited]
  | .process_exited => []

/-- `norns_guard_device_run_cancellation` and `norns_guard_device_run_cancellation_idempotency` -/
structure Guarded (old new : CancellationRow) : Prop where
  run_id : new.run_id = old.run_id
  identity : new.identity = old.identity
  cause : new.cause = old.cause
  requested_by : new.requested_by_user_id = old.requested_by_user_id
  reason : new.reason = old.reason
  requested_at : new.requested_at = old.requested_at
  fenced : ∀ t, old.publication_fenced_at = some t → new.publication_fenced_at = some t
  acknowledged : ∀ t, old.runner_acknowledged_at = some t → new.runner_acknowledged_at = some t
  exited : ∀ t, old.process_exited_at = some t → new.process_exited_at = some t
  offline : ∀ t, old.unconfirmed_offline_at = some t → new.unconfirmed_offline_at = some t
  reauthorized : ∀ t, old.publication_reauthorized_at = some t → new.publication_reauthorized_at = some t ∧
    new.publication_reauthorized_by_user_id = old.publication_reauthorized_by_user_id
  state : old.state ≠ new.state → new.state ∈ stateTransitions old.state
  idempotency_key : new.idempotency_key = old.idempotency_key

/-- A later value of a column that keeps what it has. -/
def kept (old new : Option ℤ) : Bool := old.isNone || decide (new = old)

theorem kept_iff {old new : Option ℤ} : kept old new = true ↔ ∀ t, old = some t → new = some t := by
  cases old <;> simp [kept]

instance (old new : CancellationRow) : Decidable (Guarded old new) :=
  decidable_of_iff (new.run_id = old.run_id ∧ new.identity = old.identity ∧ new.cause = old.cause ∧
      new.requested_by_user_id = old.requested_by_user_id ∧ new.reason = old.reason ∧
      new.requested_at = old.requested_at ∧
      kept old.publication_fenced_at new.publication_fenced_at = true ∧
      kept old.runner_acknowledged_at new.runner_acknowledged_at = true ∧
      kept old.process_exited_at new.process_exited_at = true ∧
      kept old.unconfirmed_offline_at new.unconfirmed_offline_at = true ∧
      (old.publication_reauthorized_at = none ∨
        new.publication_reauthorized_at = old.publication_reauthorized_at ∧
          new.publication_reauthorized_by_user_id = old.publication_reauthorized_by_user_id) ∧
      (old.state ≠ new.state → new.state ∈ stateTransitions old.state) ∧
      new.idempotency_key = old.idempotency_key) (by
    simp only [kept_iff]
    constructor
    · rintro ⟨h1, h2, h3, h4, h5, h6, h7, h8, h9, h10, h11, h12, h13⟩
      refine ⟨h1, h2, h3, h4, h5, h6, h7, h8, h9, h10, fun t ht => ?_, h12, h13⟩
      rcases h11 with hnone | ⟨hat, hby⟩
      · cases hnone.symm.trans ht
      · exact ⟨hat.trans ht, hby⟩
    · intro h
      refine ⟨h.1, h.2, h.3, h.4, h.5, h.6, h.7, h.8, h.9, h.10, ?_, h.12, h.13⟩
      cases hat : old.publication_reauthorized_at with
      | none => exact .inl rfl
      | some t => exact .inr (h.reauthorized t hat))

theorem Guarded.refl (row : CancellationRow) : Guarded row row :=
  ⟨rfl, rfl, rfl, rfl, rfl, rfl, fun _ h => h, fun _ h => h, fun _ h => h, fun _ h => h,
    fun _ h => ⟨h, rfl⟩, fun h => absurd rfl h, rfl⟩

theorem stateTransitions_trans {a b c : ConfirmationState} (hab : b ∈ stateTransitions a)
    (hbc : c ∈ stateTransitions b) : c ∈ stateTransitions a := by
  cases a <;> cases b <;> cases c <;> simp_all [stateTransitions]

theorem Guarded.trans {a b c : CancellationRow} (h : Guarded a b) (h' : Guarded b c) : Guarded a c where
  run_id := h'.run_id.trans h.run_id
  identity := h'.identity.trans h.identity
  cause := h'.cause.trans h.cause
  requested_by := h'.requested_by.trans h.requested_by
  reason := h'.reason.trans h.reason
  requested_at := h'.requested_at.trans h.requested_at
  fenced t ht := h'.fenced t (h.fenced t ht)
  acknowledged t ht := h'.acknowledged t (h.acknowledged t ht)
  exited t ht := h'.exited t (h.exited t ht)
  offline t ht := h'.offline t (h.offline t ht)
  reauthorized t ht := by
    obtain ⟨hat, hby⟩ := h.reauthorized t ht
    obtain ⟨hat', hby'⟩ := h'.reauthorized t hat
    exact ⟨hat', hby'.trans hby⟩
  state hne := by
    by_cases hab : a.state = b.state
    · rw [hab] at hne ⊢
      exact h'.state hne
    · by_cases hbc : b.state = c.state
      · rw [← hbc]
        exact h.state hab
      · exact stateTransitions_trans (h.state hab) (h'.state hbc)
  idempotency_key := h'.idempotency_key.trans h.idempotency_key

/-! ### The database -/

inductive CancellationError
  | cancellation_conflict | cancellation_not_found | device_evidence_mismatch | process_tree_not_reaped
  | publication_not_fenced | publication_reauthorization_not_authorized | publication_already_reauthorized
  | project_run_not_found | project_run_not_stoppable | idempotency_conflict
  | cancellation_scope_conflict
  | lifecycle (error : TransitionError)
  /-- A constraint of the table, or a foreign key. -/
  | constraint
  /-- The trigger. -/
  | raised
  deriving DecidableEq, Repr

structure Database where
  cancellations : OrdMap String StoredRow
  tasks : Side V2TaskState
  runs : Side V2AgentRunState
  /-- The aggregates with an open finding of a reconciliation. -/
  findings : List (AggregateKind × String)

/-- A row as it is written. -/
def store (row : CancellationRow) : Except CancellationError StoredRow :=
  if h : Checked row then .ok ⟨row, h⟩ else .error .constraint

/-- An `INSERT`; `run_id` references `agent_runs`. -/
def Database.insert (db : Database) (row : CancellationRow) : Except CancellationError (StoredRow × Database) := do
  refuse (db.runs.rows.has row.run_id = false) .constraint
  let stored ← store row
  return (stored, { db with cancellations := db.cancellations.set row.run_id stored })

/-- An `UPDATE` of the row of a run. -/
def Database.update (db : Database) (run_id : String) (old : StoredRow) (new : CancellationRow) :
    Except CancellationError (StoredRow × Database) := do
  refuse (¬ Guarded old.toCancellationRow new) .raised
  let stored ← store new
  return (stored, { db with cancellations := db.cancellations.set run_id stored })

/-- `transitionV2AgentRunLifecycle` -/
def Database.transitionRun (db : Database) (input : TransitionInput V2AgentRunState) :
    Except CancellationError Database :=
  match transitionLifecycle agentRunKind db.runs input
      (decide ((AggregateKind.agent_run, input.aggregate_id) ∈ db.findings))
      (decide (∃ e ∈ db.tasks.events, e.event_id = Coordinator.trim input.event_id)) with
  | .error e => .error (.lifecycle e)
  | .ok runs => .ok { db with runs := runs }

/-- `transitionV2TaskLifecycle` -/
def Database.transitionTask (db : Database) (input : TransitionInput V2TaskState) :
    Except CancellationError Database :=
  match transitionLifecycle taskKind db.tasks input
      (decide ((AggregateKind.task, input.aggregate_id) ∈ db.findings))
      (decide (∃ e ∈ db.runs.events, e.event_id = Coordinator.trim input.event_id)) with
  | .error e => .error (.lifecycle e)
  | .ok tasks => .ok { db with tasks := tasks }

/-! ### Requests -/

/-- `DeviceRunCancellationRequestOutcome` -/
structure Outcome where
  record : StoredRow
  replayed : Bool

structure RequestInput where
  run_id : String
  identity : DeviceIdentity
  cause : Cause
  requested_by_user_id : String
  reason : String
  requested_at : ℤ

/-- A new row. -/
def RequestInput.row (input : RequestInput) (publication_fenced_at : Option ℤ) (idempotency_key : Option String) :
    CancellationRow where
  run_id := input.run_id
  identity := input.identity
  cause := input.cause
  state := .cancellation_requested
  requested_by_user_id := input.requested_by_user_id
  reason := input.reason
  requested_at := input.requested_at
  runner_acknowledged_at := none
  process_exited_at := none
  unconfirmed_offline_at := none
  publication_fenced_at := publication_fenced_at
  publication_reauthorized_by_user_id := none
  publication_reauthorized_at := none
  idempotency_key := idempotency_key

/-- `sameRequest` -/
def SameRequest (row : CancellationRow) (input : RequestInput) : Prop :=
  row.identity = input.identity ∧ row.cause = input.cause ∧
    row.requested_by_user_id = input.requested_by_user_id ∧ row.reason = input.reason ∧
    row.requested_at = input.requested_at

instance (row : CancellationRow) (input : RequestInput) : Decidable (SameRequest row input) := by
  unfold SameRequest; infer_instance

/-- `request`; `current` says whether the device, its credential and the last command of the run are those of
the input. -/
def request (db : Database) (input : RequestInput) (current : Bool) :
    Except CancellationError (Outcome × Database) := do
  refuse (current = false) .device_evidence_mismatch
  match db.cancellations.get? input.run_id with
  | none => do
    let (created, db) ← db.insert
      (input.row (if input.cause = .device_revocation then some input.requested_at else none) none)
    return (⟨created, false⟩, db)
  | some existing => do
    refuse (¬ SameRequest existing.toCancellationRow input) .cancellation_conflict
    return (⟨existing, true⟩, db)

structure ProjectStopInput where
  actor_user_id : String
  project_id : String
  run_id : String
  reason : String
  idempotency_key : String
  requested_at : ℤ
  /-- `newId("event")` -/
  event_id : String

/-- What the joins of `requestProjectStop` find. -/
structure StopScope where
  /-- The actor owns the project, and the run is one of it. -/
  owner : Bool
  /-- `canStopProjectRun` -/
  allowed : Bool
  /-- The device of the run, and `never_dispatched`. -/
  scope : Option (DeviceIdentity × Bool)

/-- The row of an actor and a key. -/
def Database.keyed (db : Database) (actor key : String) : Option StoredRow :=
  db.cancellations.values.find? fun row => row.requested_by_user_id = actor ∧ row.idempotency_key = some key

/-- The run is cancelled where it was not dispatched. -/
def Database.cancelUndispatched (db : Database) (input : ProjectStopInput) (never_dispatched : Bool) :
    Except CancellationError Database :=
  if never_dispatched = false then .ok db
  else
    match db.runs.rows.get? input.run_id with
    | none => .ok db
    | some run =>
      if run.state ∉ [V2AgentRunState.created, .dispatched] then .ok db
      else db.transitionRun
        { aggregate_id := input.run_id
          project_id := input.project_id
          phase_id := run.phase_id
          task_id := run.task_id
          expected_aggregate_version := run.aggregate_version
          to_ := .cancelled
          reason := some "project owner cancelled the run before runner dispatch"
          actor_type := .human
          actor_id := some input.actor_user_id
          occurred_at := input.requested_at
          event_id := input.event_id }

/-- `requestProjectStop` -/
def requestProjectStop (db : Database) (input : ProjectStopInput) (found : StopScope) :
    Except CancellationError (Outcome × Database) := do
  refuse (found.owner = false) .project_run_not_found
  match db.keyed input.actor_user_id input.idempotency_key with
  | some prior => do
    refuse (prior.run_id ≠ input.run_id ∨ prior.cause ≠ .project_stop ∨ prior.reason ≠ input.reason)
      .idempotency_conflict
    return (⟨prior, true⟩, db)
  | none => do
    refuse (found.allowed = false) .project_run_not_stoppable
    match found.scope with
    | none => .error .project_run_not_stoppable
    | some (identity, never_dispatched) =>
      match db.cancellations.get? input.run_id with
      | some collision => do
        refuse (collision.requested_by_user_id ≠ input.actor_user_id ∨
          collision.idempotency_key ≠ some input.idempotency_key ∨ collision.cause ≠ .project_stop ∨
          collision.reason ≠ input.reason) .idempotency_conflict
        return (⟨collision, true⟩, db)
      | none => do
        let (created, db) ← db.insert
          (RequestInput.row ⟨input.run_id, identity, .project_stop, input.actor_user_id, input.reason,
            input.requested_at⟩ (some input.requested_at) (some input.idempotency_key))
        let db ← db.cancelUndispatched input never_dispatched
        return (⟨created, false⟩, db)

/-- `markUnconfirmedOffline` -/
def markUnconfirmedOffline (db : Database) (run_id : String) (recorded_at : ℤ) :
    Except CancellationError (StoredRow × Database) :=
  match db.cancellations.get? run_id with
  | none => .error .cancellation_not_found
  | some row =>
    if row.state = .cancellation_requested then
      db.update run_id row { row.toCancellationRow with
        state := .unconfirmed_offline
        unconfirmed_offline_at := some recorded_at }
    else .ok (row, db)

/-! ### Evidence -/

/-- `DeviceCancellationEvidenceState` -/
inductive EvidenceState
  | runner_acknowledged | process_exited
  deriving DecidableEq, Repr

def EvidenceState.confirmation : EvidenceState → ConfirmationState
  | .runner_acknowledged => .runner_acknowledged
  | .process_exited => .process_exited

structure EvidenceInput where
  run_id : String
  identity : DeviceIdentity
  acknowledged_at : ℤ
  process_exited_at : Option ℤ
  /-- `newId("event")`, of the run and of the task -/
  event_ids : String × String

/-- The states that evidence still moves. -/
def Opens (row : CancellationRow) (state : EvidenceState) : Prop :=
  row.state = .cancellation_requested ∨ row.state = .unconfirmed_offline ∨
    (row.state = .runner_acknowledged ∧ state = .process_exited)

instance (row : CancellationRow) (state : EvidenceState) : Decidable (Opens row state) := by
  unfold Opens; infer_instance

/-- The row as the evidence leaves it. -/
def evidenced (row : CancellationRow) (input : EvidenceInput) (state : EvidenceState) : CancellationRow :=
  { row with
    state := state.confirmation
    runner_acknowledged_at := row.runner_acknowledged_at <|> some input.acknowledged_at
    process_exited_at :=
      if state = .process_exited then
        row.process_exited_at <|> some (input.process_exited_at.getD input.acknowledged_at)
      else row.process_exited_at }

/-- `finalizableStates` -/
def finalizable : EvidenceState → List V2AgentRunState
  | .process_exited => [.created, .dispatched, .running, .waiting_for_human, .verifying]
  | .runner_acknowledged => [.created, .dispatched]

def EvidenceState.runReason : EvidenceState → String
  | .process_exited => "authenticated runner evidence confirmed the managed process tree exited"
  | .runner_acknowledged =>
    "the runner acknowledged the cancellation before the run ever started, so no managed process existed"

/-- The task of a cancelled run is blocked. -/
def Database.blockTask (db : Database) (input : EvidenceInput) (run : LifecycleRow V2AgentRunState) :
    Except CancellationError Database :=
  match db.tasks.rows.get? run.task_id with
  | none => .ok db
  | some task =>
    if task.state ∈ [V2TaskState.completed, .failed, .cancelled, .blocked] then .ok db
    else db.transitionTask
      { aggregate_id := run.task_id
        project_id := run.project_id
        phase_id := run.phase_id
        task_id := run.task_id
        expected_aggregate_version := task.aggregate_version
        to_ := .blocked
        reason := some "the designated run was cancelled on runner evidence and requires operator attention"
        actor_type := .runner
        actor_id := some input.identity.device_id
        occurred_at := input.process_exited_at.getD input.acknowledged_at
        event_id := input.event_ids.2 }

/-- The run of the evidence is cancelled. -/
def Database.finalize (db : Database) (input : EvidenceInput) (state : EvidenceState) :
    Except CancellationError Database :=
  match db.runs.rows.get? input.run_id with
  | none => .ok db
  | some run =>
    if run.state ∉ finalizable state then .ok db
    else do
      let db ← db.transitionRun
        { aggregate_id := input.run_id
          project_id := run.project_id
          phase_id := run.phase_id
          task_id := run.task_id
          expected_aggregate_version := run.aggregate_version
          to_ := .cancelled
          reason := some state.runReason
          actor_type := .runner
          actor_id := some input.identity.device_id
          occurred_at := input.process_exited_at.getD input.acknowledged_at
          event_id := input.event_ids.1 }
      db.blockTask input run

/-- The row is updated where it still is open. -/
def Database.applyEvidence (db : Database) (row : StoredRow) (input : EvidenceInput) (state : EvidenceState) :
    Except CancellationError (StoredRow × Database) :=
  if Opens row.toCancellationRow state then
    db.update input.run_id row (evidenced row.toCancellationRow input state)
  else .ok (row, db)

/-- `recordDeviceEvidence` -/
def recordDeviceEvidence (db : Database) (input : EvidenceInput) (state : EvidenceState) :
    Except CancellationError (StoredRow × Database) :=
  match db.cancellations.get? input.run_id with
  | none => .error .cancellation_not_found
  | some row => do
    refuse (row.identity ≠ input.identity) .device_evidence_mismatch
    let (evidence, db) ← db.applyEvidence row input state
    let db ← db.finalize input state
    return (evidence, db)

/-- `acknowledge` -/
def acknowledge (db : Database) (input : EvidenceInput) : Except CancellationError (StoredRow × Database) :=
  recordDeviceEvidence db { input with process_exited_at := none } .runner_acknowledged

/-- `confirmProcessExited` -/
def confirmProcessExited (db : Database) (input : EvidenceInput) (process_tree_reaped : Bool) :
    Except CancellationError (StoredRow × Database) := do
  refuse (process_tree_reaped ≠ true) .process_tree_not_reaped
  recordDeviceEvidence db input .process_exited

/-! ### Publication -/

/-- `publicationAllowed`; `authorized` says whether the join has a row. -/
def publicationAllowed (db : Database) (run_id : String) (authorized : Bool) : Bool :=
  authorized && match db.cancellations.get? run_id with
    | none => true
    | some row => row.publication_fenced_at.isNone || row.publication_reauthorized_at.isSome

/-- `reauthorizePublication` -/
def reauthorizePublication (db : Database) (run_id user_id : String) (reauthorized_at : ℤ) (authorized : Bool) :
    Except CancellationError (StoredRow × Database) :=
  match db.cancellations.get? run_id with
  | none => .error .cancellation_not_found
  | some row =>
    if row.publication_fenced_at.isSome ∧ row.publication_reauthorized_at = none ∧ authorized = true then
      db.update run_id row { row.toCancellationRow with
        publication_reauthorized_by_user_id := some user_id
        publication_reauthorized_at := some reauthorized_at }
    else if row.publication_fenced_at = none then .error .publication_not_fenced
    else if row.publication_reauthorized_at = none then .error .publication_reauthorization_not_authorized
    else .error .publication_already_reauthorized

/-- The input of `revoke`, with the active credential. -/
structure RevokeInput where
  identity : DeviceIdentity
  revoked_by_user_id : String
  reason : String
  revoked_at : ℤ

/-- One turn of the loop of `revoke`. -/
def fenceRun (db : Database) (input : RevokeInput) (run_id : String) : Except CancellationError Database :=
  match db.cancellations.get? run_id with
  | none =>
    Prod.snd <$> db.insert (RequestInput.row ⟨run_id, input.identity, .device_revocation,
      input.revoked_by_user_id, input.reason, input.revoked_at⟩ (some input.revoked_at) none)
  | some row => do
    refuse (row.identity ≠ input.identity) .cancellation_scope_conflict
    Prod.snd <$> db.update run_id row { row.toCancellationRow with
      publication_fenced_at := row.publication_fenced_at <|> some input.revoked_at }

/-- The cancellations of `revoke`, for the active runs of the device. -/
def fenceRuns (db : Database) (input : RevokeInput) : List String → Except CancellationError Database
  | [] => .ok db
  | run_id :: activeRuns => do
    let db ← fenceRun db input run_id
    fenceRuns db input activeRuns

/-- A transaction of the services. -/
inductive Request
  | request (input : RequestInput) (current : Bool)
  | requestProjectStop (input : ProjectStopInput) (found : StopScope)
  | markUnconfirmedOffline (run_id : String) (recorded_at : ℤ)
  | acknowledge (input : EvidenceInput)
  | confirmProcessExited (input : EvidenceInput) (process_tree_reaped : Bool)
  | reauthorizePublication (run_id user_id : String) (reauthorized_at : ℤ) (authorized : Bool)
  | revoke (input : RevokeInput) (activeRuns : List String)

def serve (db : Database) : Request → Except CancellationError Database
  | .request input current => Prod.snd <$> request db input current
  | .requestProjectStop input found => Prod.snd <$> requestProjectStop db input found
  | .markUnconfirmedOffline run_id recorded_at => Prod.snd <$> markUnconfirmedOffline db run_id recorded_at
  | .acknowledge input => Prod.snd <$> acknowledge db input
  | .confirmProcessExited input reaped => Prod.snd <$> confirmProcessExited db input reaped
  | .reauthorizePublication run_id user_id reauthorized_at authorized =>
    Prod.snd <$> reauthorizePublication db run_id user_id reauthorized_at authorized
  | .revoke input activeRuns => fenceRuns db input activeRuns

/-! ### Updates -/

variable {db db' : Database} {run_id : String} {row new : StoredRow}

theorem store_ok {cells : CancellationRow} {stored : StoredRow} (h : store cells = .ok stored) :
    stored.toCancellationRow = cells := by
  unfold store at h
  split_ifs at h
  cases h
  rfl

theorem insert_ok {cells : CancellationRow} {stored : StoredRow} (h : db.insert cells = .ok (stored, db')) :
    db.runs.rows.has cells.run_id = true ∧ stored.toCancellationRow = cells ∧
      db' = { db with cancellations := db.cancellations.set cells.run_id stored } := by
  unfold Database.insert at h
  obtain ⟨hrun, h⟩ := refuse_bind_ok.mp h
  obtain ⟨written, hstore, h⟩ := bind_eq_ok.mp h
  cases h
  exact ⟨by simpa using hrun, store_ok hstore, rfl⟩

theorem update_ok {old : StoredRow} {cells : CancellationRow} {stored : StoredRow}
    (h : db.update run_id old cells = .ok (stored, db')) : Guarded old.toCancellationRow cells ∧
      stored.toCancellationRow = cells ∧ db' = { db with cancellations := db.cancellations.set run_id stored } := by
  unfold Database.update at h
  obtain ⟨hguarded, h⟩ := refuse_bind_ok.mp h
  obtain ⟨written, hstore, h⟩ := bind_eq_ok.mp h
  cases h
  exact ⟨not_not.mp hguarded, store_ok hstore, rfl⟩

/-- The trigger does not raise. -/
def Silent {α : Type} (x : Except CancellationError α) : Prop := Avoids x (· = .raised)

theorem store_silent (cells : CancellationRow) : Silent (store cells) := by
  unfold store
  split_ifs
  · exact avoids_ok
  · exact avoids_error.mpr (by decide)

theorem insert_silent (db : Database) (cells : CancellationRow) : Silent (db.insert cells) :=
  Avoids.refuse_bind (by decide) fun _ => Avoids.bind (store_silent cells) fun _ _ => avoids_ok

theorem update_silent {old : StoredRow} {cells : CancellationRow} (hguarded : Guarded old.toCancellationRow cells) :
    Silent (db.update run_id old cells) := by
  unfold Database.update
  have hpass : refuse (¬ Guarded old.toCancellationRow cells) CancellationError.raised = .ok () :=
    refuse_eq_ok.mpr (not_not.mpr hguarded)
  rw [hpass]
  refine Avoids.bind avoids_ok fun _ _ => ?_
  exact Avoids.bind (store_silent cells) fun _ _ => avoids_ok

theorem transitionRun_silent (db : Database) (input : TransitionInput V2AgentRunState) :
    Silent (db.transitionRun input) := by
  unfold Database.transitionRun
  split
  · exact avoids_error.mpr fun h => by cases h
  · exact avoids_ok

theorem transitionTask_silent (db : Database) (input : TransitionInput V2TaskState) :
    Silent (db.transitionTask input) := by
  unfold Database.transitionTask
  split
  · exact avoids_error.mpr fun h => by cases h
  · exact avoids_ok

/-- A row that says that the process exited has the time, and only such a row. -/
theorem exited_iff (row : StoredRow) : row.state = .process_exited ↔ row.process_exited_at.isSome = true := by
  have hshape := row.checked.state_shape
  unfold StateShape at hshape
  cases hstate : row.state <;> rw [hstate] at hshape <;> simp_all

theorem acknowledged_iff (row : StoredRow) : row.runner_acknowledged_at.isSome = true ↔
    row.state = .runner_acknowledged ∨ row.state = .process_exited := by
  have hshape := row.checked.state_shape
  unfold StateShape at hshape
  cases hstate : row.state <;> rw [hstate] at hshape <;> simp_all

/-- Evidence that is still open is guarded: the times that the row has are kept. -/
theorem guarded_evidenced {input : EvidenceInput} {state : EvidenceState}
    (h : Opens row.toCancellationRow state) :
    Guarded row.toCancellationRow (evidenced row.toCancellationRow input state) := by
  have hkept : ∀ (old : Option ℤ) (value : Option ℤ) (t : ℤ), old = some t → (old <|> value) = some t := by
    rintro _ value t rfl
    rfl
  refine ⟨rfl, rfl, rfl, rfl, rfl, rfl, fun _ ht => ht, fun t ht => hkept _ _ t ht, fun t ht => ?_,
    fun _ ht => ht, fun _ ht => ⟨ht, rfl⟩, fun _ => ?_, rfl⟩
  · unfold evidenced
    dsimp only
    split_ifs
    · exact hkept _ _ t ht
    · exact ht
  · show state.confirmation ∈ stateTransitions row.state
    rcases h with h | h | ⟨h, rfl⟩
    · rw [h]
      cases state <;> decide
    · rw [h]
      cases state <;> decide
    · rw [h]
      decide

theorem guarded_offline (h : row.state = .cancellation_requested) (recorded_at : ℤ) :
    Guarded row.toCancellationRow { row.toCancellationRow with
      state := .unconfirmed_offline
      unconfirmed_offline_at := some recorded_at } := by
  have hshape := row.checked.state_shape
  unfold StateShape at hshape
  rw [h] at hshape
  refine ⟨rfl, rfl, rfl, rfl, rfl, rfl, fun _ ht => ht, fun _ ht => ht, fun _ ht => ht, fun t ht => ?_,
    fun _ ht => ⟨ht, rfl⟩, fun _ => ?_, rfl⟩
  · rw [hshape.2.2] at ht
    cases ht
  · show ConfirmationState.unconfirmed_offline ∈ stateTransitions row.state
    rw [h]
    decide

theorem guarded_reauthorized (h : row.publication_reauthorized_at = none) (user_id : String) (reauthorized_at : ℤ) :
    Guarded row.toCancellationRow { row.toCancellationRow with
      publication_reauthorized_by_user_id := some user_id
      publication_reauthorized_at := some reauthorized_at } := by
  refine ⟨rfl, rfl, rfl, rfl, rfl, rfl, fun _ ht => ht, fun _ ht => ht, fun _ ht => ht, fun _ ht => ht,
    fun t ht => ?_, fun hne => absurd rfl hne, rfl⟩
  cases h.symm.trans ht

theorem guarded_fenced (row : StoredRow) (revoked_at : ℤ) :
    Guarded row.toCancellationRow { row.toCancellationRow with
      publication_fenced_at := row.publication_fenced_at <|> some revoked_at } := by
  refine ⟨rfl, rfl, rfl, rfl, rfl, rfl, fun t ht => ?_, fun _ ht => ht, fun _ ht => ht, fun _ ht => ht,
    fun _ ht => ⟨ht, rfl⟩, fun hne => absurd rfl hne, rfl⟩
  show (row.publication_fenced_at <|> some revoked_at) = some t
  rw [ht]
  rfl

/-! ### What a request does to the row of a run -/

/-- A new row that was not acknowledged, or an update that no evidence is in. -/
inductive Quiet (id : String) : Option StoredRow → Option StoredRow → Prop
  | absent : Quiet id none none
  | created (row : StoredRow) (run_id : row.run_id = id) (unacknowledged : row.runner_acknowledged_at = none)
    (running : row.process_exited_at = none) : Quiet id none (some row)
  | updated (row new : StoredRow) (guarded : Guarded row.toCancellationRow new.toCancellationRow)
    (acknowledged : new.runner_acknowledged_at = row.runner_acknowledged_at)
    (exited : new.process_exited_at = row.process_exited_at) : Quiet id (some row) (some new)

theorem Quiet.refl (id : String) (row : Option StoredRow) : Quiet id row row := by
  cases row with
  | none => exact .absent
  | some row => exact .updated row row (.refl _) rfl rfl

theorem Quiet.trans {id : String} {a b c : Option StoredRow} (h : Quiet id a b) (h' : Quiet id b c) :
    Quiet id a c := by
  cases h with
  | absent => exact h'
  | created row hrun hacknowledged hexited =>
    cases h' with
    | updated _ new guarded acknowledged exited =>
      exact .created new (guarded.run_id.trans hrun) (acknowledged.trans hacknowledged) (exited.trans hexited)
  | updated row new guarded acknowledged exited =>
    cases h' with
    | updated _ last guarded' acknowledged' exited' =>
      exact .updated row last (guarded.trans guarded') (acknowledged'.trans acknowledged) (exited'.trans exited)

/-- No row is touched by evidence. -/
def AllQuiet (db db' : Database) : Prop :=
  ∀ id, Quiet id (db.cancellations.get? id) (db'.cancellations.get? id)

theorem AllQuiet.refl (db : Database) : AllQuiet db db := fun id => .refl id _

theorem AllQuiet.trans {a b c : Database} (h : AllQuiet a b) (h' : AllQuiet b c) : AllQuiet a c :=
  fun id => (h id).trans (h' id)

theorem allQuiet_of_same (h : db'.cancellations = db.cancellations) : AllQuiet db db' := by
  intro id
  rw [h]
  exact .refl id _

theorem allQuiet_set {id : String} {stored : StoredRow}
    (hset : db'.cancellations = db.cancellations.set id stored)
    (h : Quiet id (db.cancellations.get? id) (some stored)) : AllQuiet db db' := by
  intro other
  rw [hset, OrdMap.get?_set]
  split_ifs with hid
  · subst hid
    exact h
  · exact .refl other _

/-- The runs go on: none is lost, and none leaves a terminal state. -/
def RunsGo (db db' : Database) : Prop :=
  ∀ id run, db.runs.rows.get? id = some run → ∃ run', db'.runs.rows.get? id = some run' ∧
    (run.state.isTerminal = true → run'.state = run.state)

theorem RunsGo.refl (db : Database) : RunsGo db db := fun _ run h => ⟨run, h, fun _ => rfl⟩

theorem RunsGo.trans {a b c : Database} (h : RunsGo a b) (h' : RunsGo b c) : RunsGo a c := by
  intro id run hrun
  obtain ⟨run', hrun', hsame⟩ := h id run hrun
  obtain ⟨run'', hrun'', hsame'⟩ := h' id run' hrun'
  refine ⟨run'', hrun'', fun hterminal => ?_⟩
  have heq := hsame hterminal
  exact (hsame' (by rw [heq]; exact hterminal)).trans heq

theorem runsGo_of_same (h : db'.runs = db.runs) : RunsGo db db' := by
  intro id run hrun
  exact ⟨run, by rw [h]; exact hrun, fun _ => rfl⟩

/-- A transition of a run goes along an edge of the lifecycle, and touches nothing else. -/
theorem transitionRun_ok {input : TransitionInput V2AgentRunState} (h : db.transitionRun input = .ok db') :
    db'.cancellations = db.cancellations ∧ db'.tasks = db.tasks ∧ RunsGo db db' ∧
      ∀ run, db'.runs.rows.get? input.aggregate_id = some run → run.state = input.to_ := by
  unfold Database.transitionRun at h
  split at h
  · cases h
  rename_i runs hruns
  cases h
  obtain ⟨row, hrow, hparses, -, rfl⟩ := transition_ok hruns
  refine ⟨rfl, rfl, fun id run hrun => ?_, fun run hrun => ?_⟩
  · by_cases hid : input.aggregate_id = id
    · subst hid
      cases hrow.symm.trans hrun
      refine ⟨_, OrdMap.get?_set_self _ _ _, fun hterminal => ?_⟩
      have hedge : v2CanAgentRunTransition row.state input.to_ = true := hparses.2.2.2.2
      rw [terminal_no_edge hterminal] at hedge
      cases hedge
    · exact ⟨run, (OrdMap.get?_set_ne _ _ hid).trans hrun, fun _ => rfl⟩
  · have hget : (db.runs.rows.set input.aggregate_id _).get? input.aggregate_id = some run := hrun
    rw [OrdMap.get?_set_self] at hget
    cases hget
    rfl

theorem transitionTask_ok {input : TransitionInput V2TaskState} (h : db.transitionTask input = .ok db') :
    db'.cancellations = db.cancellations ∧ db'.runs = db.runs := by
  unfold Database.transitionTask at h
  split at h
  · cases h
  · cases h
    exact ⟨rfl, rfl⟩

/-! ### The requests -/

/-- The runs of the cancellations are there. -/
def Known (db : Database) : Prop :=
  ∀ id row, db.cancellations.get? id = some row → ∃ run, db.runs.rows.get? id = some run

theorem Known.go (h : Known db) (hsame : db'.cancellations = db.cancellations) (hruns : RunsGo db db') :
    Known db' := by
  intro id row hrow
  rw [hsame] at hrow
  obtain ⟨run, hrun⟩ := h id row hrow
  obtain ⟨run', hrun', -⟩ := hruns id run hrun
  exact ⟨run', hrun'⟩

theorem Known.set {id : String} {stored : StoredRow} (h : Known db)
    (hset : db'.cancellations = db.cancellations.set id stored) (hruns : RunsGo db db')
    (hknown : ∃ run, db.runs.rows.get? id = some run) : Known db' := by
  intro other row hrow
  rw [hset, OrdMap.get?_set] at hrow
  have hbefore : ∃ run, db.runs.rows.get? other = some run := by
    split_ifs at hrow with hid
    · exact hid ▸ hknown
    · exact h other row hrow
  obtain ⟨run, hrun⟩ := hbefore
  obtain ⟨run', hrun', -⟩ := hruns other run hrun
  exact ⟨run', hrun'⟩

/-- What a request that brings no evidence does. -/
structure Requests (db db' : Database) : Prop where
  rows : AllQuiet db db'
  runs : RunsGo db db'
  known : Known db → Known db'

theorem Requests.refl (db : Database) : Requests db db := ⟨.refl db, .refl db, id⟩

theorem Requests.trans {a b c : Database} (h : Requests a b) (h' : Requests b c) : Requests a c :=
  ⟨h.rows.trans h'.rows, h.runs.trans h'.runs, fun hknown => h'.known (h.known hknown)⟩

theorem insert_requests {input : RequestInput} {fence : Option ℤ} {key : Option String} {stored : StoredRow}
    (hnone : db.cancellations.get? input.run_id = none) (h : db.insert (input.row fence key) = .ok (stored, db')) :
    Requests db db' := by
  obtain ⟨hrun, hstored, rfl⟩ := insert_ok h
  have hid : (input.row fence key).run_id = input.run_id := rfl
  refine ⟨allQuiet_set rfl ?_, runsGo_of_same rfl, fun hknown => hknown.set rfl (runsGo_of_same rfl) ?_⟩
  · rw [hid, hnone]
    exact .created stored (by rw [hstored, hid]) (by rw [hstored]; rfl) (by rw [hstored]; rfl)
  · exact Option.isSome_iff_exists.mp hrun

theorem update_requests {cells : CancellationRow} {stored : StoredRow}
    (hget : db.cancellations.get? run_id = some row) (h : db.update run_id row cells = .ok (stored, db'))
    (hacknowledged : cells.runner_acknowledged_at = row.runner_acknowledged_at)
    (hexited : cells.process_exited_at = row.process_exited_at) : Requests db db' := by
  obtain ⟨hguarded, hstored, rfl⟩ := update_ok h
  refine ⟨allQuiet_set rfl ?_, runsGo_of_same rfl,
    fun hknown => hknown.set rfl (runsGo_of_same rfl) (hknown run_id row hget)⟩
  rw [hget]
  exact .updated row stored (by rw [hstored]; exact hguarded) (by rw [hstored]; exact hacknowledged)
    (by rw [hstored]; exact hexited)

theorem request_requests {input : RequestInput} {current : Bool} {outcome : Outcome}
    (h : request db input current = .ok (outcome, db')) : Requests db db' := by
  unfold request at h
  obtain ⟨-, h⟩ := refuse_bind_ok.mp h
  split at h
  · rename_i hnone
    obtain ⟨⟨created, mid⟩, hinsert, h⟩ := bind_eq_ok.mp h
    cases h
    exact insert_requests hnone hinsert
  · obtain ⟨-, h⟩ := refuse_bind_ok.mp h
    cases h
    exact .refl db

theorem cancelUndispatched_requests {input : ProjectStopInput} {never_dispatched : Bool}
    (h : db.cancelUndispatched input never_dispatched = .ok db') : Requests db db' := by
  unfold Database.cancelUndispatched at h
  split_ifs at h
  · cases h
    exact .refl db
  · split at h
    · cases h
      exact .refl db
    · split_ifs at h
      · obtain ⟨hcancellations, -, hruns, -⟩ := transitionRun_ok h
        exact ⟨allQuiet_of_same hcancellations, hruns, fun hknown => hknown.go hcancellations hruns⟩
      · cases h
        exact .refl db

theorem requestProjectStop_requests {input : ProjectStopInput} {found : StopScope} {outcome : Outcome}
    (h : requestProjectStop db input found = .ok (outcome, db')) : Requests db db' := by
  unfold requestProjectStop at h
  obtain ⟨-, h⟩ := refuse_bind_ok.mp h
  split at h
  · obtain ⟨-, h⟩ := refuse_bind_ok.mp h
    cases h
    exact .refl db
  · obtain ⟨-, h⟩ := refuse_bind_ok.mp h
    split at h
    · cases h
    · split at h
      · obtain ⟨-, h⟩ := refuse_bind_ok.mp h
        cases h
        exact .refl db
      · rename_i hnone
        obtain ⟨⟨created, mid⟩, hinsert, h⟩ := bind_eq_ok.mp h
        obtain ⟨last, hcancel, h⟩ := bind_eq_ok.mp h
        cases h
        exact (insert_requests hnone hinsert).trans (cancelUndispatched_requests hcancel)

theorem markUnconfirmedOffline_requests {recorded_at : ℤ} {stored : StoredRow}
    (h : markUnconfirmedOffline db run_id recorded_at = .ok (stored, db')) : Requests db db' := by
  unfold markUnconfirmedOffline at h
  split at h
  · cases h
  · rename_i hget
    split_ifs at h
    · exact update_requests hget h rfl rfl
    · cases h
      exact .refl db

theorem reauthorizePublication_requests {user_id : String} {reauthorized_at : ℤ} {authorized : Bool}
    {stored : StoredRow} (h : reauthorizePublication db run_id user_id reauthorized_at authorized = .ok (stored, db')) :
    Requests db db' := by
  unfold reauthorizePublication at h
  split at h
  · cases h
  · rename_i hget
    split_ifs at h
    exact update_requests hget h rfl rfl

theorem fenceRun_requests {input : RevokeInput} (h : fenceRun db input run_id = .ok db') : Requests db db' := by
  unfold fenceRun at h
  split at h
  · rename_i hnone
    obtain ⟨⟨stored, mid⟩, hinsert, h⟩ := map_eq_ok.mp h
    cases h
    exact insert_requests hnone hinsert
  · rename_i hget
    obtain ⟨-, h⟩ := refuse_bind_ok.mp h
    obtain ⟨⟨stored, mid⟩, hupdate, h⟩ := map_eq_ok.mp h
    cases h
    exact update_requests hget hupdate rfl rfl

theorem fenceRuns_requests {input : RevokeInput} : ∀ {activeRuns : List String} {db : Database},
    fenceRuns db input activeRuns = .ok db' → Requests db db'
  | [], _, h => by
    cases h
    exact .refl _
  | run_id :: activeRuns, _, h => by
    unfold fenceRuns at h
    obtain ⟨mid, hfence, h⟩ := bind_eq_ok.mp h
    exact (fenceRun_requests hfence).trans (fenceRuns_requests h)

/-! ### Evidence -/

theorem blockTask_ok {input : EvidenceInput} {run : LifecycleRow V2AgentRunState}
    (h : db.blockTask input run = .ok db') : db'.cancellations = db.cancellations ∧ db'.runs = db.runs := by
  unfold Database.blockTask at h
  split at h
  · cases h
    exact ⟨rfl, rfl⟩
  · split_ifs at h
    · cases h
      exact ⟨rfl, rfl⟩
    · exact transitionTask_ok h

/-- After the evidence of an exit the run is in a terminal state. -/
theorem finalize_ok {input : EvidenceInput} {state : EvidenceState} (h : db.finalize input state = .ok db') :
    db'.cancellations = db.cancellations ∧ RunsGo db db' ∧
      (state = .process_exited → ∀ run, db'.runs.rows.get? input.run_id = some run → run.state.isTerminal = true) := by
  unfold Database.finalize at h
  split at h
  · rename_i hnone
    cases h
    refine ⟨rfl, .refl db, fun _ run hrun => ?_⟩
    cases hnone.symm.trans hrun
  · rename_i run hrun
    by_cases hstate : run.state ∈ finalizable state
    · rw [if_neg (not_not.mpr hstate)] at h
      obtain ⟨mid, htransition, h⟩ := bind_eq_ok.mp h
      obtain ⟨hcancellations, -, hruns, hmoved⟩ := transitionRun_ok htransition
      obtain ⟨hcancellations', hruns'⟩ := blockTask_ok h
      refine ⟨hcancellations'.trans hcancellations, hruns.trans (runsGo_of_same hruns'), fun _ run' hrun' => ?_⟩
      rw [hruns'] at hrun'
      rw [hmoved run' hrun']
      rfl
    · rw [if_pos hstate] at h
      cases h
      refine ⟨rfl, .refl db, ?_⟩
      rintro rfl run' hrun'
      cases hrun.symm.trans hrun'
      cases hcase : run.state <;> rw [hcase] at hstate <;> first | rfl | exact absurd (by decide) hstate

/-- **What evidence does**: the row of the run is the one of the device, and is as the evidence leaves it, or was
as far before. -/
structure Evidenced (db db' : Database) (input : EvidenceInput) (state : EvidenceState) (row new : StoredRow) :
    Prop where
  found : db.cancellations.get? input.run_id = some row
  identity : row.identity = input.identity
  guarded : Guarded row.toCancellationRow new.toCancellationRow
  cells : new.toCancellationRow =
    if Opens row.toCancellationRow state then evidenced row.toCancellationRow input state
    else row.toCancellationRow
  set : db'.cancellations = db.cancellations.set input.run_id new
  runs : RunsGo db db'
  ended : state = .process_exited →
    ∀ run, db'.runs.rows.get? input.run_id = some run → run.state.isTerminal = true

theorem recordDeviceEvidence_ok {input : EvidenceInput} {state : EvidenceState}
    (h : recordDeviceEvidence db input state = .ok (new, db')) : ∃ row, Evidenced db db' input state row new := by
  unfold recordDeviceEvidence at h
  split at h
  · cases h
  rename_i row hget
  obtain ⟨hidentity, h⟩ := refuse_bind_ok.mp h
  obtain ⟨⟨evidence, mid⟩, hupdate, h⟩ := bind_eq_ok.mp h
  obtain ⟨last, hfinalize, h⟩ := bind_eq_ok.mp h
  cases h
  obtain ⟨hcancellations, hruns, hended⟩ := finalize_ok hfinalize
  unfold Database.applyEvidence at hupdate
  by_cases hopens : Opens row.toCancellationRow state
  · rw [if_pos hopens] at hupdate
    obtain ⟨hguarded, hcells, rfl⟩ := update_ok hupdate
    refine ⟨row, hget, not_not.mp hidentity, by rw [hcells]; exact hguarded, ?_, hcancellations, ?_, hended⟩
    · rw [if_pos hopens]
      exact hcells
    · exact (runsGo_of_same rfl).trans hruns
  · rw [if_neg hopens] at hupdate
    cases hupdate
    exact ⟨_, hget, not_not.mp hidentity, .refl _, (if_neg hopens).symm,
      hcancellations.trans (OrdMap.set_of_get? hget).symm, hruns, hended⟩

/-- After evidence the row has its acknowledgement, and an exit after the evidence of one. -/
theorem Evidenced.times {input : EvidenceInput} {state : EvidenceState}
    (h : Evidenced db db' input state row new) : new.runner_acknowledged_at.isSome = true ∧
      (state = .process_exited → new.process_exited_at.isSome = true) ∧
      (new.process_exited_at = row.process_exited_at ∨
        state = .process_exited ∧ row.process_exited_at = none ∧
          new.process_exited_at = some (input.process_exited_at.getD input.acknowledged_at)) := by
  have hcells := h.cells
  by_cases hopens : Opens row.toCancellationRow state
  · rw [if_pos hopens] at hcells
    have hack : new.runner_acknowledged_at = (row.runner_acknowledged_at <|> some input.acknowledged_at) :=
      congrArg CancellationRow.runner_acknowledged_at hcells
    have hexit : new.process_exited_at = if state = .process_exited then
        row.process_exited_at <|> some (input.process_exited_at.getD input.acknowledged_at)
      else row.process_exited_at := congrArg CancellationRow.process_exited_at hcells
    rw [hack, hexit]
    refine ⟨by cases row.runner_acknowledged_at <;> rfl, fun hstate => ?_, ?_⟩
    · rw [if_pos hstate]
      cases row.process_exited_at <;> rfl
    · split_ifs with hstate
      · cases hrow : row.process_exited_at with
        | none => exact .inr ⟨hstate, rfl, rfl⟩
        | some t => exact .inl rfl
      · exact .inl rfl
  · rw [if_neg hopens] at hcells
    have hstate : row.state = .process_exited ∨ (row.state = .runner_acknowledged ∧ state = .runner_acknowledged) := by
      unfold Opens at hopens
      push Not at hopens
      cases hrow : row.state <;> cases state <;> simp_all
    have hexited := exited_iff row
    have hacknowledged := acknowledged_iff row
    rw [congrArg CancellationRow.runner_acknowledged_at hcells, congrArg CancellationRow.process_exited_at hcells]
    refine ⟨hacknowledged.mpr (hstate.symm.imp And.left id), fun hexit => hexited.mp ?_, .inl rfl⟩
    rcases hstate with hstate | ⟨-, hstate⟩
    · exact hstate
    · rw [hexit] at hstate
      cases hstate

/-! ### The trigger -/

theorem request_silent (input : RequestInput) (current : Bool) : Silent (request db input current) := by
  unfold request
  refine Avoids.refuse_bind (by decide) fun _ => ?_
  split
  · exact Avoids.bind (insert_silent db _) fun _ _ => avoids_ok
  · exact Avoids.refuse_bind (by decide) fun _ => avoids_ok

theorem cancelUndispatched_silent (input : ProjectStopInput) (never_dispatched : Bool) :
    Silent (db.cancelUndispatched input never_dispatched) := by
  unfold Database.cancelUndispatched
  split_ifs
  · exact avoids_ok
  · split
    · exact avoids_ok
    · split_ifs
      · exact transitionRun_silent db _
      · exact avoids_ok

theorem requestProjectStop_silent (input : ProjectStopInput) (found : StopScope) :
    Silent (requestProjectStop db input found) := by
  unfold requestProjectStop
  refine Avoids.refuse_bind (by decide) fun _ => ?_
  split
  · exact Avoids.refuse_bind (by decide) fun _ => avoids_ok
  · refine Avoids.refuse_bind (by decide) fun _ => ?_
    split
    · exact avoids_error.mpr (by decide)
    · split
      · exact Avoids.refuse_bind (by decide) fun _ => avoids_ok
      · refine Avoids.bind (insert_silent db _) fun created _ => ?_
        exact Avoids.bind (cancelUndispatched_silent input _) fun _ _ => avoids_ok

theorem markUnconfirmedOffline_silent (run_id : String) (recorded_at : ℤ) :
    Silent (markUnconfirmedOffline db run_id recorded_at) := by
  unfold markUnconfirmedOffline
  split
  · exact avoids_error.mpr (by decide)
  · split_ifs with hstate
    · exact update_silent (guarded_offline hstate recorded_at)
    · exact avoids_ok

theorem finalize_silent (input : EvidenceInput) (state : EvidenceState) : Silent (db.finalize input state) := by
  unfold Database.finalize
  split
  · exact avoids_ok
  · split_ifs
    · refine Avoids.bind (transitionRun_silent db _) fun mid _ => ?_
      unfold Database.blockTask
      split
      · exact avoids_ok
      · split_ifs
        · exact avoids_ok
        · exact transitionTask_silent mid _
    · exact avoids_ok

theorem recordDeviceEvidence_silent (input : EvidenceInput) (state : EvidenceState) :
    Silent (recordDeviceEvidence db input state) := by
  unfold recordDeviceEvidence
  split
  · exact avoids_error.mpr (by decide)
  · rename_i row hget
    refine Avoids.refuse_bind (by decide) fun _ => Avoids.bind ?_ fun mid _ =>
      Avoids.bind (finalize_silent input state) fun _ _ => avoids_ok
    unfold Database.applyEvidence
    split_ifs with hopens
    · exact update_silent (guarded_evidenced hopens)
    · exact avoids_ok

theorem reauthorizePublication_silent (run_id user_id : String) (reauthorized_at : ℤ) (authorized : Bool) :
    Silent (reauthorizePublication db run_id user_id reauthorized_at authorized) := by
  unfold reauthorizePublication
  split
  · exact avoids_error.mpr (by decide)
  · split_ifs with hopen
    · exact update_silent (guarded_reauthorized hopen.2.1 user_id reauthorized_at)
    · exact avoids_error.mpr (by decide)
    · exact avoids_error.mpr (by decide)
    · exact avoids_error.mpr (by decide)

theorem fenceRun_silent (db : Database) (input : RevokeInput) (run_id : String) : Silent (fenceRun db input run_id) := by
  unfold fenceRun
  split
  · exact avoids_map.mpr (insert_silent db _)
  · rename_i row hget
    exact Avoids.refuse_bind (by decide) fun _ => avoids_map.mpr (update_silent (guarded_fenced row input.revoked_at))

theorem fenceRuns_silent (input : RevokeInput) : ∀ (activeRuns : List String) (db : Database),
    Silent (fenceRuns db input activeRuns)
  | [], _ => avoids_ok
  | run_id :: activeRuns, db =>
    Avoids.bind (fenceRun_silent db input run_id) fun _ _ => fenceRuns_silent input activeRuns _

theorem serve_silent (db : Database) (request : Request) : Silent (serve db request) := by
  cases request with
  | request input current => exact avoids_map.mpr (request_silent input current)
  | requestProjectStop input found => exact avoids_map.mpr (requestProjectStop_silent input found)
  | markUnconfirmedOffline run_id recorded_at =>
    exact avoids_map.mpr (markUnconfirmedOffline_silent run_id recorded_at)
  | acknowledge input => exact avoids_map.mpr (recordDeviceEvidence_silent _ _)
  | confirmProcessExited input reaped =>
    exact avoids_map.mpr (Avoids.refuse_bind (by decide) fun _ => recordDeviceEvidence_silent _ _)
  | reauthorizePublication run_id user_id reauthorized_at authorized =>
    exact avoids_map.mpr (reauthorizePublication_silent run_id user_id reauthorized_at authorized)
  | revoke input activeRuns => exact fenceRuns_silent input activeRuns db

/-- No row is lost, and what the trigger guards is kept. -/
def RowsKept (db db' : Database) : Prop :=
  ∀ id row, db.cancellations.get? id = some row → ∃ row', db'.cancellations.get? id = some row' ∧
    Guarded row.toCancellationRow row'.toCancellationRow

theorem RowsKept.refl (db : Database) : RowsKept db db := fun _ row h => ⟨row, h, .refl _⟩

theorem RowsKept.trans {a b c : Database} (h : RowsKept a b) (h' : RowsKept b c) : RowsKept a c := by
  intro id row hrow
  obtain ⟨row', hrow', hguarded⟩ := h id row hrow
  obtain ⟨row'', hrow'', hguarded'⟩ := h' id row' hrow'
  exact ⟨row'', hrow'', hguarded.trans hguarded'⟩

theorem AllQuiet.rowsKept (h : AllQuiet db db') : RowsKept db db' := by
  intro id row hrow
  have hquiet := h id
  rw [hrow] at hquiet
  generalize hget : db'.cancellations.get? id = after at hquiet
  cases hquiet with
  | updated _ new guarded => exact ⟨new, rfl, guarded⟩

/-- **A transaction that commits**: evidence, or a request that brings none. -/
theorem serve_ok {request : Request} (h : serve db request = .ok db') : Requests db db' ∨
    ∃ input state row new, Evidenced db db' input state row new ∧
      ((∃ given, request = .acknowledge given ∧ input = { given with process_exited_at := none } ∧
          state = .runner_acknowledged) ∨
        request = .confirmProcessExited input true ∧ state = .process_exited) := by
  cases request with
  | request input current =>
    obtain ⟨⟨outcome, last⟩, hok, rfl⟩ := map_eq_ok.mp h
    exact .inl (request_requests hok)
  | requestProjectStop input found =>
    obtain ⟨⟨outcome, last⟩, hok, rfl⟩ := map_eq_ok.mp h
    exact .inl (requestProjectStop_requests hok)
  | markUnconfirmedOffline run_id recorded_at =>
    obtain ⟨⟨stored, last⟩, hok, rfl⟩ := map_eq_ok.mp h
    exact .inl (markUnconfirmedOffline_requests hok)
  | acknowledge input =>
    obtain ⟨⟨stored, last⟩, hok, rfl⟩ := map_eq_ok.mp h
    obtain ⟨row, hevidence⟩ := recordDeviceEvidence_ok hok
    exact .inr ⟨_, .runner_acknowledged, row, stored, hevidence, .inl ⟨input, rfl, rfl, rfl⟩⟩
  | confirmProcessExited input reaped =>
    obtain ⟨⟨stored, last⟩, hok, rfl⟩ := map_eq_ok.mp h
    obtain ⟨hreaped, hok⟩ := refuse_bind_ok.mp hok
    obtain rfl : reaped = true := by simpa using hreaped
    obtain ⟨row, hevidence⟩ := recordDeviceEvidence_ok hok
    exact .inr ⟨input, .process_exited, row, stored, hevidence, .inr ⟨rfl, rfl⟩⟩
  | reauthorizePublication run_id user_id reauthorized_at authorized =>
    obtain ⟨⟨stored, last⟩, hok, rfl⟩ := map_eq_ok.mp h
    exact .inl (reauthorizePublication_requests hok)
  | revoke input activeRuns => exact .inl (fenceRuns_requests h)

theorem Evidenced.rowsKept {input : EvidenceInput} {state : EvidenceState}
    (h : Evidenced db db' input state row new) : RowsKept db db' := by
  intro id other hother
  rw [h.set, OrdMap.get?_set]
  split_ifs with hid
  · subst hid
    cases h.found.symm.trans hother
    exact ⟨new, rfl, h.guarded⟩
  · exact ⟨other, hother, .refl _⟩

/-- The database after a transaction, which is rolled back where it fails. -/
def serveStep (db : Database) (request : Request) : Database := commit db (serve db request)

theorem serveStep_rowsKept (db : Database) (request : Request) : RowsKept db (serveStep db request) := by
  refine commit_induct (P := RowsKept db) (.refl db) fun db' hok => ?_
  rcases serve_ok hok with hrequests | ⟨input, state, row, new, hevidence, -⟩
  · exact hrequests.rows.rowsKept
  · exact hevidence.rowsKept

/-- **The rows go forward.** In every run of the services the trigger never raises, no row is lost, and every row
keeps its request, its times and its fence, and moves along the states. -/
theorem rows_guarded (db : Database) (requests : List Request) :
    RowsKept db (run serveStep db requests) ∧
      ∀ request, serve (run serveStep db requests) request ≠ .error .raised :=
  ⟨run_induct' (I := RowsKept db) (fun _ request h => h.trans (serveStep_rowsKept _ request)) (.refl db) requests,
    fun request h => serve_silent _ request _ h rfl⟩

/-! ### The fence of a revoked device -/

theorem fenceRun_fenced {input : RevokeInput} (h : fenceRun db input run_id = .ok db') :
    ∃ row, db'.cancellations.get? run_id = some row ∧ row.publication_fenced_at.isSome = true := by
  unfold fenceRun at h
  split at h
  · obtain ⟨⟨stored, mid⟩, hinsert, h⟩ := map_eq_ok.mp h
    cases h
    obtain ⟨-, hstored, rfl⟩ := insert_ok hinsert
    exact ⟨stored, OrdMap.get?_set_self _ _ _, by rw [hstored]; rfl⟩
  · rename_i row hget
    obtain ⟨-, h⟩ := refuse_bind_ok.mp h
    obtain ⟨⟨stored, mid⟩, hupdate, h⟩ := map_eq_ok.mp h
    cases h
    obtain ⟨-, hstored, rfl⟩ := update_ok hupdate
    refine ⟨stored, OrdMap.get?_set_self _ _ _, ?_⟩
    rw [hstored]
    show (row.publication_fenced_at <|> some input.revoked_at).isSome = true
    cases row.publication_fenced_at <;> rfl

/-- A row keeps its fence. -/
theorem RowsKept.fenced (h : RowsKept db db')
    (hfenced : ∃ row, db.cancellations.get? run_id = some row ∧ row.publication_fenced_at.isSome = true) :
    ∃ row, db'.cancellations.get? run_id = some row ∧ row.publication_fenced_at.isSome = true := by
  obtain ⟨row, hrow, hfence⟩ := hfenced
  obtain ⟨row', hrow', hguarded⟩ := h run_id row hrow
  obtain ⟨t, ht⟩ := Option.isSome_iff_exists.mp hfence
  exact ⟨row', hrow', by rw [hguarded.fenced t ht]; rfl⟩

theorem fenceRuns_fenced {input : RevokeInput} : ∀ {activeRuns : List String} {db : Database},
    fenceRuns db input activeRuns = .ok db' → ∀ run_id ∈ activeRuns,
      ∃ row, db'.cancellations.get? run_id = some row ∧ row.publication_fenced_at.isSome = true
  | [], _, _, _, hmem => by cases hmem
  | first :: activeRuns, _, h, run_id, hmem => by
    unfold fenceRuns at h
    obtain ⟨mid, hfence, hlater⟩ := bind_eq_ok.mp h
    rcases List.mem_cons.mp hmem with rfl | hrest
    · exact (fenceRuns_requests hlater).rows.rowsKept.fenced (fenceRun_fenced hfence)
    · exact fenceRuns_fenced hlater run_id hrest

/-- **A revoked device does not publish.** Once a revocation has committed, no run that was active on the device may
publish, whatever is served later, unless its publication was reauthorized. -/
theorem revoked_fenced {input : RevokeInput} {activeRuns : List String}
    (h : serve db (.revoke input activeRuns) = .ok db') (requests : List Request) {run_id : String}
    (hmem : run_id ∈ activeRuns) (authorized : Bool)
    (hallowed : publicationAllowed (run serveStep db' requests) run_id authorized = true) :
    authorized = true ∧ ∃ row fence t, (run serveStep db' requests).cancellations.get? run_id = some row ∧
      row.publication_fenced_at = some fence ∧ row.publication_reauthorized_at = some t ∧
      row.publication_reauthorized_by_user_id.isSome = true ∧ fence ≤ t := by
  obtain ⟨row, hrow, hfence⟩ := (rows_guarded db' requests).1.fenced (fenceRuns_fenced h run_id hmem)
  unfold publicationAllowed at hallowed
  rw [hrow, Bool.and_eq_true] at hallowed
  obtain ⟨hauthorized, hopen⟩ := hallowed
  rw [Bool.or_eq_true] at hopen
  have hreauthorized : row.publication_reauthorized_at.isSome = true := by
    refine hopen.resolve_left fun hnone => ?_
    rw [Option.isNone_iff_eq_none.mp hnone] at hfence
    cases hfence
  obtain ⟨t, ht⟩ := Option.isSome_iff_exists.mp hreauthorized
  rcases row.checked.reauthorization_pair with ⟨-, hnone⟩ | ⟨hby, fence, hfenced, t', ht', hle⟩
  · cases hnone.symm.trans ht
  · cases (show some t' = some t from (Option.mem_def.mp ht').symm.trans ht)
    exact ⟨hauthorized, row, fence, t, hrow, hfenced, ht, hby, hle⟩

def sampleDatabase : Database where
  cancellations := .empty
  tasks := (⟨.empty, []⟩ : Side V2TaskState).create taskKind "task-1" "project-1" "phase-1" "task-1"
  runs := (⟨.empty, []⟩ : Side V2AgentRunState).create agentRunKind "run-1" "project-1" "phase-1" "task-1"
  findings := []

def sampleRevocation : RevokeInput where
  identity := ⟨"device-1", "credential-1", 1⟩
  revoked_by_user_id := "user-1"
  reason := "lost device"
  revoked_at := 100

/-- The run may publish once its owner has reauthorized it. -/
theorem revoked_fenced_sample : ∃ db', serve sampleDatabase (.revoke sampleRevocation ["run-1"]) = .ok db' ∧
    ∃ row fence t, (run serveStep db' [.reauthorizePublication "run-1" "user-1" 200 true]).cancellations.get? "run-1" =
        some row ∧ row.publication_fenced_at = some fence ∧ row.publication_reauthorized_at = some t ∧
      row.publication_reauthorized_by_user_id.isSome = true ∧ fence ≤ t := by
  have hallowed : (match serve sampleDatabase (.revoke sampleRevocation ["run-1"]) with
      | .ok db' => publicationAllowed (run serveStep db' [.reauthorizePublication "run-1" "user-1" 200 true])
          "run-1" true
      | .error _ => false) = true := by decide +kernel
  cases hserve : serve sampleDatabase (.revoke sampleRevocation ["run-1"]) with
  | error error =>
    rw [hserve] at hallowed
    cases hallowed
  | ok db' =>
    rw [hserve] at hallowed
    exact ⟨db', rfl, (revoked_fenced hserve [.reauthorizePublication "run-1" "user-1" 200 true]
      List.mem_cons_self true hallowed).2⟩

end Norns.Devices.Cancellation
