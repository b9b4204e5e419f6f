import Mathlib.Data.List.DropRight
import Norns.Contracts.V2Reduction
import Norns.Knowledge.Versions
import Norns.Persistence.Decisions

/-! # Reconciliation of lifecycles

`transitionV2TaskLifecycle` and `transitionV2AgentRunLifecycle` (`v2/lifecycleMutation.ts`) over the rows and the
domain events, and `reconcileV2Lifecycles` (`v2/reconciliation.ts`), which lists the rows, reads the events of each
and records a finding where they differ. Tasks and runs are two kinds of one thing, `Kind`. Between any two statements
of a reconciliation transitions may commit.

* `checkRow_clean_iff`: when a row is clean;
* `SideOk.transition`: rows and events go together;
* `quiet_step_iff`, `reconciliation_exact`: when a reconciliation finds nothing. -/

namespace Norns.Persistence.Lifecycles

open Norns.Lib Norns.Lib.Run Norns.Lib.Transaction
open Norns.Contracts.V2Lifecycle Norns.Contracts.V2Reduction
open Norns.Coordinator (trim)
open Norns.Knowledge (V2ActorType)
open Norns.Persistence.Decisions (Filled)

/-! ### Rows and events -/

inductive AggregateKind
  | task | agent_run
  deriving DecidableEq, Repr

/-- What tells tasks from runs. -/
structure Kind (TState : Type) where
  kind : AggregateKind
  initialState : TState
  canTransition : TState → TState → Bool
  /-- The task is part of the scope of a run. -/
  ofTask : Bool
  text : TState → String

def taskStateText : V2TaskState → String
  | .pending => "pending"
  | .ready => "ready"
  | .assigned => "assigned"
  | .in_progress => "in_progress"
  | .verifying => "verifying"
  | .in_review => "in_review"
  | .completed => "completed"
  | .blocked => "blocked"
  | .failed => "failed"
  | .cancelled => "cancelled"

def agentRunStateText : V2AgentRunState → String
  | .created => "created"
  | .dispatched => "dispatched"
  | .running => "running"
  | .waiting_for_human => "waiting_for_human"
  | .verifying => "verifying"
  | .succeeded => "succeeded"
  | .failed => "failed"
  | .cancelled => "cancelled"
  | .expired => "expired"

def taskKind : Kind V2TaskState := ⟨.task, .pending, v2CanTaskTransition, false, taskStateText⟩

def agentRunKind : Kind V2AgentRunState :=
  ⟨.agent_run, .created, v2CanAgentRunTransition, true, agentRunStateText⟩

/-- A row of `tasks` or `agent_runs`; the `task_id` of a task is its own id. -/
structure LifecycleRow (TState : Type) where
  project_id : String
  phase_id : String
  task_id : String
  state : TState
  lifecycle_version : ℕ
  aggregate_version : ℕ
  deriving DecidableEq

/-- A domain event `task_state_transitioned` or `agent_run_state_transitioned`. -/
structure Event (TState : Type) extends TransitionEvent TState where
  stream_id : String
  stream_version : ℕ
  task_id : String
  reason : Option String
  actor_type : V2ActorType
  actor_id : Option String
  occurred_at : ℤ
  deriving DecidableEq

/-- The rows of a kind, and the domain events of their streams. -/
structure Side (TState : Type) where
  rows : OrdMap String (LifecycleRow TState)
  events : List (Event TState)

variable {TState : Type} [DecidableEq TState]

/-- `V2TaskTransitionEvent.parse` and `V2AgentRunTransitionEvent.parse` accept the event. -/
def Parses (k : Kind TState) (event : Event TState) : Prop :=
  Filled event.event_id ∧ Filled event.stream_id ∧ Filled event.task_id ∧ 0 < event.lifecycle_version ∧
    k.canTransition event.from_ event.to_ = true

instance (k : Kind TState) (event : Event TState) : Decidable (Parses k event) := by
  unfold Parses; infer_instance

/-- The parsed event: its id is trimmed. -/
def Event.parsed (event : Event TState) : TransitionEvent TState :=
  { event.toTransitionEvent with event_id := trim event.event_id }

/-! ### Transitions -/

inductive TransitionError
  | attribution
  | notFound (kind : AggregateKind) (id : String)
  | scopeMismatch (kind : AggregateKind) (id : String)
  | automationBlocked (kind : AggregateKind) (id : String)
  | versionConflict (kind : AggregateKind) (id : String) (expectedVersion actualVersion : ℤ)
  /-- The event does not parse. -/
  | schema
  /-- A unique index of the domain events. -/
  | duplicate
  deriving DecidableEq, Repr

structure TransitionInput (TState : Type) where
  aggregate_id : String
  project_id : String
  phase_id : String
  task_id : String
  expected_aggregate_version : ℤ
  to_ : TState
  reason : Option String
  actor_type : V2ActorType
  actor_id : Option String
  occurred_at : ℤ
  /-- `newId("event")` -/
  event_id : String

/-- The event of a transition. -/
def TransitionInput.event (input : TransitionInput TState) (row : LifecycleRow TState) : Event TState where
  event_id := trim input.event_id
  lifecycle_version := row.lifecycle_version + 1
  from_ := row.state
  to_ := input.to_
  stream_id := input.aggregate_id
  stream_version := row.lifecycle_version + 1
  task_id := row.task_id
  reason := input.reason
  actor_type := input.actor_type
  actor_id := input.actor_id
  occurred_at := input.occurred_at

/-- The row is updated and the event appended. -/
def Side.commitTransition (side : Side TState) (row : LifecycleRow TState) (input : TransitionInput TState) :
    Side TState where
  rows := side.rows.set input.aggregate_id
    { row with
      state := input.to_
      lifecycle_version := row.lifecycle_version + 1
      aggregate_version := row.aggregate_version + 1 }
  events := side.events ++ [input.event row]

/-- `blocked` says whether a finding is open for the aggregate, and `taken` whether another domain event has the
id. -/
def transitionLifecycle (k : Kind TState) (side : Side TState) (input : TransitionInput TState)
    (blocked taken : Bool) : Except TransitionError (Side TState) :=
  if input.actor_type = .human ∧ input.actor_id = none then .error .attribution
  else
    match side.rows.get? input.aggregate_id with
    | none => .error (.notFound k.kind input.aggregate_id)
    | some row =>
      if row.project_id ≠ input.project_id ∨ row.phase_id ≠ input.phase_id ∨
          (k.ofTask = true ∧ row.task_id ≠ input.task_id) then
        .error (.scopeMismatch k.kind input.aggregate_id)
      else if blocked then .error (.automationBlocked k.kind input.aggregate_id)
      else if row.aggregate_version ≠ input.expected_aggregate_version then
        .error (.versionConflict k.kind input.aggregate_id input.expected_aggregate_version
          row.aggregate_version)
      else if ¬ Parses k (input.event row) then .error .schema
      else if taken ∨ ∃ e ∈ side.events, e.event_id = trim input.event_id ∨
          (e.stream_id = input.aggregate_id ∧ e.stream_version = row.lifecycle_version + 1) then
        .error .duplicate
      else .ok (side.commitTransition row input)

/-- A new task or run. -/
def Side.create (side : Side TState) (k : Kind TState) (id project_id phase_id task_id : String) : Side TState :=
  match side.rows.get? id with
  | some _ => side
  | none => { side with rows := side.rows.set id ⟨project_id, phase_id, task_id, k.initialState, 0, 1⟩ }

/-! ### Reconciliation -/

inductive MismatchCode
  | state_without_event | event_without_state | state_mismatch | invalid_event_sequence
  deriving DecidableEq, Repr

def mismatchCode (rowState : TState) (rowVersion : ℕ) (folded : V2LifecycleReduction TState) :
    Option MismatchCode :=
  if folded.rejected_event_ids ≠ [] then some .invalid_event_sequence
  else if folded.version < rowVersion then some .state_without_event
  else if rowVersion < folded.version then some .event_without_state
  else if rowState ≠ folded.state then some .state_mismatch
  else none

structure Finding where
  aggregate_kind : AggregateKind
  aggregate_id : String
  project_id : String
  code : MismatchCode
  row_state : String
  row_lifecycle_version : ℕ
  folded_state : String
  folded_lifecycle_version : ℕ
  rejected_event_ids : List String
  detected_at : ℤ
  deriving DecidableEq

/-- The events of a stream, in the order of their versions. -/
def Side.streamEvents (side : Side TState) (id : String) : List (Event TState) :=
  (side.events.filter fun e => e.stream_id = id).mergeSort fun a b => a.stream_version ≤ b.stream_version

/-- One turn of the loop; it throws where an event does not parse. -/
def checkRow (k : Kind TState) (id : String) (row : LifecycleRow TState) (events : List (Event TState))
    (detectedAt : ℤ) : Except Unit (Option Finding) :=
  if ∃ e ∈ events, ¬ Parses k e then .error ()
  else
    let folded := reduceV2Lifecycle k.initialState 0 (events.map Event.parsed) k.canTransition
    .ok ((mismatchCode row.state row.lifecycle_version folded).map fun code =>
      { aggregate_kind := k.kind
        aggregate_id := id
        project_id := row.project_id
        code := code
        row_state := k.text row.state
        row_lifecycle_version := row.lifecycle_version
        folded_state := k.text folded.state
        folded_lifecycle_version := folded.version
        rejected_event_ids := folded.rejected_event_ids
        detected_at := detectedAt })

/-- A row as it was listed. -/
inductive Listed
  | task (id : String) (row : LifecycleRow V2TaskState)
  | agent_run (id : String) (row : LifecycleRow V2AgentRunState)

/-- The local state of a reconciliation. -/
structure Reconciliation where
  /-- The rows that are still to be checked. -/
  pending : List Listed
  /-- The runs are still to be listed. -/
  listing : Bool
  /-- The finding that is recorded next. -/
  found : Option Finding
  mismatches : List Finding
  thrown : Bool

structure System where
  tasks : Side V2TaskState
  runs : Side V2AgentRunState
  /-- The open findings. -/
  findings : OrdMap (AggregateKind × String) Finding
  reconciliations : List Reconciliation

def System.check (s : System) (detectedAt : ℤ) : Listed → Except Unit (Option Finding)
  | .task id row => checkRow taskKind id row (s.tasks.streamEvents id) detectedAt
  | .agent_run id row => checkRow agentRunKind id row (s.runs.streamEvents id) detectedAt

/-- The events of the next row are read and folded. -/
def Reconciliation.read (r : Reconciliation) (s : System) (detectedAt : ℤ) : Reconciliation :=
  if r.listing ∨ r.found.isSome ∨ r.thrown then r
  else
    match r.pending with
    | [] => r
    | listed :: pending =>
      match s.check detectedAt listed with
      | .error _ => { r with thrown := true }
      | .ok found =>
        { r with
          pending := pending
          found := found }

inductive Action
  | createTask (id project_id phase_id : String)
  | createRun (id project_id phase_id task_id : String)
  | transitionTask (input : TransitionInput V2TaskState)
  | transitionRun (input : TransitionInput V2AgentRunState)
  /-- A reconciliation starts and lists the tasks. -/
  | reconcile
  | listRuns (i : ℕ)
  | read (i : ℕ) (detectedAt : ℤ)
  /-- `recordFindingAndAudit` -/
  | record (i : ℕ)

def step (s : System) : Action → System
  | .createTask id project_id phase_id =>
    { s with tasks := s.tasks.create taskKind id project_id phase_id id }
  | .createRun id project_id phase_id task_id =>
    { s with runs := s.runs.create agentRunKind id project_id phase_id task_id }
  | .transitionTask input =>
    { s with
      tasks := commit s.tasks (transitionLifecycle taskKind s.tasks input
        (s.findings.get? (.task, input.aggregate_id)).isSome
        (decide (∃ e ∈ s.runs.events, e.event_id = trim input.event_id))) }
  | .transitionRun input =>
    { s with
      runs := commit s.runs (transitionLifecycle agentRunKind s.runs input
        (s.findings.get? (.agent_run, input.aggregate_id)).isSome
        (decide (∃ e ∈ s.tasks.events, e.event_id = trim input.event_id))) }
  | .reconcile =>
    { s with
      reconciliations := s.reconciliations ++
        [⟨s.tasks.rows.entries.map fun e => .task e.1 e.2, true, none, [], false⟩] }
  | .listRuns i =>
    match s.reconciliations[i]? with
    | none => s
    | some r =>
      if r.listing then
        { s with
          reconciliations := s.reconciliations.set i
            { r with
              pending := r.pending ++ s.runs.rows.entries.map fun e => .agent_run e.1 e.2
              listing := false } }
      else s
  | .read i detectedAt =>
    match s.reconciliations[i]? with
    | none => s
    | some r => { s with reconciliations := s.reconciliations.set i (r.read s detectedAt) }
  | .record i =>
    match s.reconciliations[i]? with
    | none => s
    | some r =>
      match r.found with
      | none => s
      | some finding =>
        { s with
          findings := s.findings.set (finding.aggregate_kind, finding.aggregate_id) finding
          reconciliations := s.reconciliations.set i
            { r with
              found := none
              mismatches := r.mismatches ++ [finding] } }

/-- No tasks and no runs. -/
def initial : System := ⟨⟨.empty, []⟩, ⟨.empty, []⟩, .empty, []⟩

/-! ### Legal chains -/

/-- The events lead from one state and version to another, step by step. -/
def LegalChain (canTransition : TState → TState → Bool) :
    TState → ℕ → List (TransitionEvent TState) → TState → ℕ → Prop
  | state, version, [], state', version' => state = state' ∧ version = version'
  | state, version, event :: events, state', version' => Follows canTransition state version event ∧
      LegalChain canTransition event.to_ (version + 1) events state' version'

/-- The events but for the repeated ids. -/
def firstOccurrences : List String → List (TransitionEvent TState) → List (TransitionEvent TState)
  | _, [] => []
  | seen, event :: events =>
    if event.event_id ∈ seen then firstOccurrences seen events
    else event :: firstOccurrences (seen ++ [event.event_id]) events

section

variable {canTransition : TState → TState → Bool} {state state' : TState} {version version' : ℕ}
  {event : TransitionEvent TState} {events : List (TransitionEvent TState)}

omit [DecidableEq TState] in
theorem legalChain_append (h : LegalChain canTransition state version events state' version')
    (hfollows : Follows canTransition state' version' event) :
    LegalChain canTransition state version (events ++ [event]) event.to_ (version' + 1) := by
  induction events generalizing state version with
  | nil =>
    obtain ⟨rfl, rfl⟩ := h
    exact ⟨hfollows, rfl, rfl⟩
  | cons first events ih => exact ⟨h.1, ih h.2⟩

omit [DecidableEq TState] in
/-- The versions of a chain go up one by one. -/
theorem LegalChain.versions (h : LegalChain canTransition state version events state' version') :
    version' = version + events.length ∧ (events.Pairwise fun a b => a.lifecycle_version ≤ b.lifecycle_version) ∧
      ∀ e ∈ events, version < e.lifecycle_version ∧ e.lifecycle_version ≤ version' := by
  induction events generalizing state version with
  | nil =>
    obtain ⟨-, rfl⟩ := h
    simp
  | cons first events ih =>
    obtain ⟨⟨-, hnumber, -⟩, hrest⟩ := h
    obtain ⟨hlength, hsorted, hbounds⟩ := ih hrest
    refine ⟨by rw [hlength, List.length_cons]; omega, List.pairwise_cons.mpr ⟨fun e he => ?_, hsorted⟩, ?_⟩
    · have := (hbounds e he).1
      omega
    · intro e he
      rcases List.mem_cons.mp he with rfl | he
      · omega
      · have := hbounds e he
        omega

theorem rejected_grow : ∀ (events : List (TransitionEvent TState)) (f : Fold TState),
    f.rejected_event_ids <+: (foldEvents canTransition f events).rejected_event_ids
  | [], _ => List.prefix_rfl
  | event :: events, f => by
    refine List.IsPrefix.trans ?_ (rejected_grow events (reduceEvent canTransition f event))
    unfold reduceEvent
    split
    · exact List.prefix_rfl
    · split
      · exact List.prefix_rfl
      · exact List.prefix_append _ _

/-- **A fold** rejects nothing and ends at a position exactly when the events are a legal chain to it. -/
theorem fold_iff (f : Fold TState) :
    ((foldEvents canTransition f events).rejected_event_ids = f.rejected_event_ids ∧
        (foldEvents canTransition f events).state = state' ∧
        (foldEvents canTransition f events).version = version') ↔
      LegalChain canTransition f.state f.version (firstOccurrences f.seen events) state' version' := by
  induction events generalizing f with
  | nil => exact and_iff_right rfl
  | cons event events ih =>
    have hfold : foldEvents canTransition f (event :: events) =
        foldEvents canTransition (reduceEvent canTransition f event) events := rfl
    rw [hfold]
    unfold firstOccurrences
    by_cases hseen : event.event_id ∈ f.seen
    · rw [if_pos hseen, reduceEvent_seen hseen]
      exact ih f
    · rw [if_neg hseen]
      by_cases hfollows : Follows canTransition f.state f.version event
      · have hnext := ih (reduceEvent canTransition f event)
        have hreduce : reduceEvent canTransition f event =
            { state := event.to_
              version := event.lifecycle_version
              applied_event_ids := f.applied_event_ids ++ [event.event_id]
              rejected_event_ids := f.rejected_event_ids
              seen := f.seen ++ [event.event_id] } := by
          unfold reduceEvent
          rw [if_neg hseen, if_pos hfollows]
        rw [hreduce] at hnext ⊢
        refine hnext.trans ?_
        dsimp only
        rw [hfollows.2.1]
        exact (and_iff_right hfollows).symm
      · refine iff_of_false (fun h => ?_) (fun h => hfollows h.1)
        have hprefix := (@rejected_grow _ _ canTransition events (reduceEvent canTransition f event)).length_le
        rw [h.1] at hprefix
        unfold reduceEvent at hprefix
        rw [if_neg hseen, if_neg hfollows] at hprefix
        simp only [List.length_append, List.length_singleton] at hprefix
        omega

end

theorem mismatchCode_none_iff {rowState : TState} {rowVersion : ℕ} {folded : V2LifecycleReduction TState} :
    mismatchCode rowState rowVersion folded = none ↔
      folded.rejected_event_ids = [] ∧ folded.state = rowState ∧ folded.version = rowVersion := by
  unfold mismatchCode
  constructor
  · intro h
    split at h
    · cases h
    rename_i hrejected
    split at h
    · cases h
    split at h
    · cases h
    split at h
    · cases h
    rename_i hstate
    exact ⟨not_not.mp hrejected, (not_not.mp hstate).symm, by omega⟩
  · rintro ⟨hrejected, rfl, rfl⟩
    simp [hrejected]

/-- **A row is clean** exactly when its events parse and are a legal chain to it. -/
theorem checkRow_clean_iff (k : Kind TState) (id : String) (row : LifecycleRow TState)
    (events : List (Event TState)) (detectedAt : ℤ) :
    checkRow k id row events detectedAt = .ok none ↔ (∀ e ∈ events, Parses k e) ∧
      LegalChain k.canTransition k.initialState 0 (firstOccurrences [] (events.map Event.parsed)) row.state
        row.lifecycle_version := by
  have hfold : LegalChain k.canTransition k.initialState 0 (firstOccurrences [] (events.map Event.parsed))
      row.state row.lifecycle_version ↔
        mismatchCode row.state row.lifecycle_version (reduceV2Lifecycle k.initialState 0
          (events.map Event.parsed) k.canTransition) = none := by
    rw [mismatchCode_none_iff]
    exact (fold_iff (Contracts.V2Reduction.initial k.initialState 0)).symm
  unfold checkRow
  by_cases hparses : ∃ e ∈ events, ¬ Parses k e
  · rw [if_pos hparses]
    refine iff_of_false (by simp) fun h => ?_
    obtain ⟨e, he, hnot⟩ := hparses
    exact hnot (h.1 e he)
  · rw [if_neg hparses, hfold]
    push Not at hparses
    simp only [Except.ok.injEq, Option.map_eq_none_iff]
    exact (and_iff_right hparses).symm

omit [DecidableEq TState] in
/-- A chain ends at one position. -/
theorem LegalChain.unique {canTransition : TState → TState → Bool} {state a b : TState} {version m n : ℕ}
    {events : List (TransitionEvent TState)} (h : LegalChain canTransition state version events a m)
    (h' : LegalChain canTransition state version events b n) : a = b ∧ m = n := by
  induction events generalizing state version with
  | nil => exact ⟨h.1.symm.trans h'.1, h.2.symm.trans h'.2⟩
  | cons event events ih => exact ih h.2 h'.2

omit [DecidableEq TState] in
theorem firstOccurrences_nodup {events : List (TransitionEvent TState)} : ∀ {seen : List String},
    (events.map TransitionEvent.event_id).Nodup → (∀ e ∈ events, e.event_id ∉ seen) →
      firstOccurrences seen events = events := by
  induction events with
  | nil => exact fun _ _ => rfl
  | cons event events ih =>
    intro seen hnodup hseen
    obtain ⟨hnot, hnodup⟩ := List.nodup_cons.mp hnodup
    unfold firstOccurrences
    rw [if_neg (hseen event List.mem_cons_self), ih hnodup]
    intro e he hmem
    rcases List.mem_append.mp hmem with hmem | hmem
    · exact hseen e (List.mem_cons_of_mem _ he) hmem
    · exact hnot (List.mem_map.mpr ⟨e, he, List.mem_singleton.mp hmem⟩)

theorem trim_trim (s : String) : trim (trim s) = trim s := by
  have hshape : ∀ s : String, trim s =
      .ofList ((s.toList.dropWhile Coordinator.isTrimmed).rdropWhile Coordinator.isTrimmed) := fun _ => rfl
  rw [hshape (trim s), hshape s, String.toList_ofList]
  congr 1
  generalize hl : s.toList.dropWhile Coordinator.isTrimmed = l
  have hhead : l.dropWhile Coordinator.isTrimmed = l := by
    rw [← hl]
    exact List.dropWhile_idempotent _ _
  have hfront : (l.rdropWhile Coordinator.isTrimmed).dropWhile Coordinator.isTrimmed =
      l.rdropWhile Coordinator.isTrimmed := by
    rcases hr : l.rdropWhile Coordinator.isTrimmed with _ | ⟨c, rest⟩
    · rfl
    · obtain ⟨tail, htail⟩ : (c :: rest) <+: l := hr ▸ List.rdropWhile_prefix _ _
      rw [← htail, List.cons_append] at hhead
      by_cases hc : Coordinator.isTrimmed c = true
      · rw [List.dropWhile_cons_of_pos hc] at hhead
        have hlength := congrArg List.length hhead
        have hle := (List.dropWhile_sublist Coordinator.isTrimmed (l := rest ++ tail)).length_le
        rw [List.length_cons] at hlength
        omega
      · rw [List.dropWhile_cons_of_neg hc]
  rw [hfront]
  exact List.rdropWhile_idempotent _ _

/-! ### Rows and events go together -/

section

variable {k : Kind TState} {side side' : Side TState} {id : String} {row : LifecycleRow TState}

/-- The events of every row are a legal chain to it. -/
structure SideOk (k : Kind TState) (side : Side TState) : Prop where
  chain : ∀ id row, side.rows.get? id = some row → LegalChain k.canTransition k.initialState 0
    ((side.events.filter fun e => e.stream_id = id).map Event.toTransitionEvent) row.state row.lifecycle_version
  known : ∀ e ∈ side.events, ∃ row, side.rows.get? e.stream_id = some row
  ids : (side.events.map fun e => e.event_id).Nodup
  parses : ∀ e ∈ side.events, Parses k e ∧ e.parsed = e.toTransitionEvent ∧
    e.stream_version = e.lifecycle_version

/-- Rows stay, and a row that changes has a later version. -/
def Later (side side' : Side TState) : Prop :=
  ∀ id row, side.rows.get? id = some row → ∃ row', side'.rows.get? id = some row' ∧
    (row' = row ∨ row.lifecycle_version < row'.lifecycle_version)

omit [DecidableEq TState] in
theorem Later.refl (side : Side TState) : Later side side := fun _ row h => ⟨row, h, .inl rfl⟩

/-- The row was listed. -/
def Was (side : Side TState) (id : String) (row : LifecycleRow TState) : Prop :=
  ∃ now, side.rows.get? id = some now ∧ row.lifecycle_version ≤ now.lifecycle_version ∧
    (row.lifecycle_version = now.lifecycle_version → row.state = now.state)

theorem Was.later (h : Was side id row) (hlater : Later side side') : Was side' id row := by
  obtain ⟨now, hnow, hle, hsame⟩ := h
  obtain ⟨now', hnow', rfl | hlt⟩ := hlater id now hnow
  · exact ⟨now', hnow', hle, hsame⟩
  · exact ⟨now', hnow', by omega, fun heq => by omega⟩

omit [DecidableEq TState] in
/-- The events are read in the order in which they were appended. -/
theorem SideOk.streamEvents (h : SideOk k side) (hrow : side.rows.get? id = some row) :
    side.streamEvents id = side.events.filter fun e => e.stream_id = id := by
  refine List.mergeSort_of_pairwise ?_
  have hsorted := (h.chain id row hrow).versions.2.1
  rw [List.pairwise_map] at hsorted
  refine hsorted.imp_of_mem fun ha hb hle => ?_
  rw [(h.parses _ (List.mem_filter.mp ha).1).2.2, (h.parses _ (List.mem_filter.mp hb).1).2.2]
  exact decide_eq_true hle

omit [DecidableEq TState] in
/-- The parsed events of a row are a legal chain to it. -/
theorem SideOk.parsed (h : SideOk k side) (hrow : side.rows.get? id = some row) :
    (∀ e ∈ side.streamEvents id, Parses k e) ∧ LegalChain k.canTransition k.initialState 0
      (firstOccurrences [] ((side.streamEvents id).map Event.parsed)) row.state row.lifecycle_version := by
  have hmap : (side.streamEvents id).map Event.parsed =
      (side.events.filter fun e => e.stream_id = id).map Event.toTransitionEvent := by
    rw [h.streamEvents hrow]
    exact List.map_congr_left fun e he => (h.parses e (List.mem_filter.mp he).1).2.1
  have hnodup : (((side.events.filter fun e => e.stream_id = id).map Event.toTransitionEvent).map
      TransitionEvent.event_id).Nodup := by
    rw [List.map_map]
    exact h.ids.sublist (List.filter_sublist.map _)
  refine ⟨fun e he => ?_, ?_⟩
  · rw [h.streamEvents hrow] at he
    exact (h.parses e (List.mem_filter.mp he).1).1
  · rw [hmap, firstOccurrences_nodup hnodup (by simp)]
    exact h.chain id row hrow

/-- **A listed row** is found clean exactly when it has not changed since. -/
theorem SideOk.check (h : SideOk k side) (hwas : Was side id row) (detectedAt : ℤ) :
    (∃ found, checkRow k id row (side.streamEvents id) detectedAt = .ok found) ∧
      (checkRow k id row (side.streamEvents id) detectedAt = .ok none ↔
        ∀ now, side.rows.get? id = some now → now.lifecycle_version = row.lifecycle_version) := by
  obtain ⟨now, hnow, hle, hsame⟩ := hwas
  obtain ⟨hparses, hchain⟩ := h.parsed hnow
  refine ⟨?_, ?_⟩
  · unfold checkRow
    rw [if_neg (by rintro ⟨e, he, hnot⟩; exact hnot (hparses e he))]
    exact ⟨_, rfl⟩
  · rw [checkRow_clean_iff, and_iff_right hparses]
    constructor
    · intro hrow now' hnow'
      cases hnow.symm.trans hnow'
      exact (hchain.unique hrow).2
    · intro hcurrent
      have hversion := hcurrent now hnow
      rw [hsame hversion.symm, ← hversion]
      exact hchain

omit [DecidableEq TState] in
/-- A new row has no events. -/
theorem SideOk.create (h : SideOk k side) (id project_id phase_id task_id : String) :
    SideOk k (side.create k id project_id phase_id task_id) ∧
      Later side (side.create k id project_id phase_id task_id) := by
  unfold Side.create
  split
  · exact ⟨h, .refl side⟩
  rename_i hnone
  have hother : ∀ other row, side.rows.get? other = some row → id ≠ other := by
    rintro other row hrow rfl
    rw [hnone] at hrow
    cases hrow
  refine ⟨⟨fun other row hrow => ?_, fun e he => ?_, h.ids, h.parses⟩, fun other row hrow => ?_⟩
  · rw [OrdMap.get?_set] at hrow
    split_ifs at hrow with hid
    · cases hrow
      have hempty : side.events.filter (fun e => e.stream_id = other) = [] := by
        refine List.filter_eq_nil_iff.mpr fun e he heq => ?_
        obtain ⟨row, hrow⟩ := h.known e he
        exact hother _ row hrow (hid.trans (of_decide_eq_true heq).symm)
      rw [hempty]
      exact ⟨rfl, rfl⟩
    · exact h.chain other row hrow
  · obtain ⟨row, hrow⟩ := h.known e he
    exact ⟨row, by rw [OrdMap.get?_set_ne _ _ (hother _ row hrow)]; exact hrow⟩
  · exact ⟨row, by rw [OrdMap.get?_set_ne _ _ (hother _ row hrow)]; exact hrow, .inl rfl⟩

omit [DecidableEq TState] in
/-- A transition that succeeds. -/
theorem transition_ok {input : TransitionInput TState} {blocked taken : Bool}
    (h : transitionLifecycle k side input blocked taken = .ok side') :
    ∃ row, side.rows.get? input.aggregate_id = some row ∧ Parses k (input.event row) ∧
      (∀ e ∈ side.events, e.event_id ≠ trim input.event_id) ∧ side' = side.commitTransition row input := by
  unfold transitionLifecycle at h
  split at h
  · cases h
  split at h
  · cases h
  rename_i row hrow
  split at h
  · cases h
  split at h
  · cases h
  split at h
  · cases h
  split at h
  · cases h
  rename_i hparses
  split at h
  · cases h
  rename_i hfresh
  cases h
  refine ⟨row, hrow, not_not.mp hparses, fun e he heq => hfresh (.inr ⟨e, he, .inl heq⟩), rfl⟩

omit [DecidableEq TState] in
/-- **A transition** extends the chain of its row. -/
theorem SideOk.transition (h : SideOk k side) {input : TransitionInput TState} {blocked taken : Bool}
    (hok : transitionLifecycle k side input blocked taken = .ok side') : SideOk k side' ∧ Later side side' := by
  obtain ⟨row, hrow, hparses, hfresh, rfl⟩ := transition_ok hok
  refine ⟨⟨fun other otherRow hother => ?_, fun e he => ?_, ?_, fun e he => ?_⟩, fun other otherRow hother => ?_⟩
  · have hget : (side.rows.set input.aggregate_id
        { row with
          state := input.to_
          lifecycle_version := row.lifecycle_version + 1
          aggregate_version := row.aggregate_version + 1 }).get? other = some otherRow := hother
    show LegalChain k.canTransition k.initialState 0
      (((side.events ++ [input.event row]).filter fun e => e.stream_id = other).map Event.toTransitionEvent) _ _
    rw [List.filter_append, List.map_append]
    rw [OrdMap.get?_set] at hget
    split_ifs at hget with hid
    · cases hget
      subst hid
      have hnew : ([input.event row].filter fun e => e.stream_id = input.aggregate_id) = [input.event row] := by
        simp [TransitionInput.event]
      rw [hnew]
      exact legalChain_append (h.chain _ row hrow) ⟨rfl, rfl, hparses.2.2.2.2⟩
    · have hnew : ([input.event row].filter fun e => e.stream_id = other) = [] := by
        simp [TransitionInput.event, hid]
      rw [hnew, List.map_nil, List.append_nil]
      exact h.chain other otherRow hget
  · show ∃ row', (side.rows.set input.aggregate_id _).get? e.stream_id = some row'
    by_cases hid : input.aggregate_id = e.stream_id
    · rw [← hid]
      exact ⟨_, OrdMap.get?_set_self _ _ _⟩
    · rw [OrdMap.get?_set_ne _ _ hid]
      rcases List.mem_append.mp he with he | he
      · exact h.known e he
      · rw [List.mem_singleton.mp he] at hid
        exact absurd rfl hid
  · show ((side.events ++ [input.event row]).map fun e => e.event_id).Nodup
    rw [List.map_append, List.nodup_append]
    refine ⟨h.ids, by simp, fun a ha b hb heq => ?_⟩
    obtain ⟨e, he, rfl⟩ := List.mem_map.mp ha
    rw [List.map_singleton, List.mem_singleton] at hb
    exact hfresh e he (heq.trans hb)
  · rcases List.mem_append.mp he with he | he
    · exact h.parses e he
    · rw [List.mem_singleton.mp he]
      refine ⟨hparses, ?_, rfl⟩
      unfold Event.parsed TransitionInput.event
      dsimp only
      rw [trim_trim]
  · show ∃ row', (side.rows.set input.aggregate_id _).get? other = some row' ∧ _
    by_cases hid : input.aggregate_id = other
    · subst hid
      cases hrow.symm.trans hother
      exact ⟨_, OrdMap.get?_set_self _ _ _, .inr (Nat.lt_succ_self _)⟩
    · exact ⟨otherRow, by rw [OrdMap.get?_set_ne _ _ hid]; exact hother, .inl rfl⟩

omit [DecidableEq TState] in
/-- A call keeps rows and events together, whether it succeeds or fails. -/
theorem SideOk.commit (h : SideOk k side) (input : TransitionInput TState) (blocked taken : Bool) :
    SideOk k (Transaction.commit side (transitionLifecycle k side input blocked taken)) ∧
      Later side (Transaction.commit side (transitionLifecycle k side input blocked taken)) := by
  rcases hrun : transitionLifecycle k side input blocked taken with e | side'
  · exact ⟨h, .refl side⟩
  · exact h.transition hrun

end

/-! ### Every run -/

section

variable {s : System} {a : Action}

/-- A row that was listed is still there. -/
def ListedOk (s : System) : Listed → Prop
  | .task id row => Was s.tasks id row
  | .agent_run id row => Was s.runs id row

structure Inv (s : System) : Prop where
  tasks : SideOk taskKind s.tasks
  runs : SideOk agentRunKind s.runs
  listed : ∀ r ∈ s.reconciliations, ∀ l ∈ r.pending, ListedOk s l

theorem inv_initial : Inv initial where
  tasks := ⟨fun id row h => by (simp [initial] at h), by simp [initial], List.nodup_nil, by simp [initial]⟩
  runs := ⟨fun id row h => by (simp [initial] at h), by simp [initial], List.nodup_nil, by simp [initial]⟩
  listed r hr := nomatch hr

/-- No transition of the row has been committed since it was listed. -/
def IsCurrent (s : System) : Listed → Prop
  | .task id row => ∀ now, s.tasks.rows.get? id = some now → now.lifecycle_version = row.lifecycle_version
  | .agent_run id row => ∀ now, s.runs.rows.get? id = some now → now.lifecycle_version = row.lifecycle_version

/-- When the events of a row are read, the row is as it was listed. -/
def Current (s : System) : Action → Prop
  | .read i _ => ∀ r, s.reconciliations[i]? = some r → r.listing = false → r.found = none → r.thrown = false →
      ∀ l rest, r.pending = l :: rest → IsCurrent s l
  | _ => True

/-- No reconciliation has found a mismatch or thrown. -/
structure Quiet (s : System) : Prop where
  findings : ∀ key, s.findings.get? key = none
  reconciliations : ∀ r ∈ s.reconciliations, r.found = none ∧ r.mismatches = [] ∧ r.thrown = false

/-- The events of a row fold to the row, and none is rejected. -/
def Folds (k : Kind TState) (side : Side TState) : Prop :=
  ∀ id row, side.rows.get? id = some row →
    let folded := reduceV2Lifecycle k.initialState 0 ((side.streamEvents id).map Event.parsed) k.canTransition
    folded.state = row.state ∧ folded.version = row.lifecycle_version ∧ folded.rejected_event_ids = []

theorem SideOk.folds {k : Kind TState} {side : Side TState} (h : SideOk k side) : Folds k side := by
  intro id row hrow folded
  obtain ⟨hrejected, hstate, hversion⟩ := (fold_iff (Contracts.V2Reduction.initial k.initialState 0)).mpr
    (h.parsed hrow).2
  exact ⟨hstate, hversion, hrejected⟩

/-- **A check** throws never, and finds nothing exactly when the row is as it was listed. -/
theorem Inv.check (h : Inv s) {l : Listed} (hl : ListedOk s l) (detectedAt : ℤ) :
    (∃ found, s.check detectedAt l = .ok found) ∧ (s.check detectedAt l = .ok none ↔ IsCurrent s l) := by
  cases l with
  | task id row => exact h.tasks.check hl detectedAt
  | agent_run id row => exact h.runs.check hl detectedAt

/-- The rows that are pending stay listed. -/
theorem Inv.later (h : Inv s) {tasks : Side V2TaskState} {runs : Side V2AgentRunState}
    (htasks : SideOk taskKind tasks ∧ Later s.tasks tasks) (hruns : SideOk agentRunKind runs ∧ Later s.runs runs) :
    Inv { s with tasks := tasks, runs := runs } where
  tasks := htasks.1
  runs := hruns.1
  listed r hr l hl := by
    have hold := h.listed r hr l hl
    cases l with
    | task id row => exact Was.later hold htasks.2
    | agent_run id row => exact Was.later hold hruns.2

/-- A reconciliation goes on with rows that are listed. -/
theorem Inv.set (h : Inv s) (i : ℕ) {r : Reconciliation} (hr : ∀ l ∈ r.pending, ListedOk s l) :
    Inv { s with reconciliations := s.reconciliations.set i r } where
  tasks := h.tasks
  runs := h.runs
  listed other hother l hl := by
    rcases List.mem_or_eq_of_mem_set hother with hold | rfl
    · exact h.listed other hold l hl
    · exact hr l hl

theorem read_pending (r : Reconciliation) (s : System) (detectedAt : ℤ) :
    ∀ l ∈ (r.read s detectedAt).pending, l ∈ r.pending := by
  unfold Reconciliation.read
  split
  · exact fun l hl => hl
  split
  · exact fun l hl => hl
  · rename_i listed pending hpending
    split
    · exact fun l hl => hl
    · intro l hl
      rw [hpending]
      exact List.mem_cons_of_mem _ hl

theorem inv_step (h : Inv s) (a : Action) : Inv (step s a) := by
  have htasks : SideOk taskKind s.tasks ∧ Later s.tasks s.tasks := ⟨h.tasks, .refl _⟩
  have hruns : SideOk agentRunKind s.runs ∧ Later s.runs s.runs := ⟨h.runs, .refl _⟩
  cases a with
  | createTask id project_id phase_id => exact h.later (h.tasks.create id project_id phase_id id) hruns
  | createRun id project_id phase_id task_id =>
    exact h.later htasks (h.runs.create id project_id phase_id task_id)
  | transitionTask input => exact h.later (h.tasks.commit input _ _) hruns
  | transitionRun input => exact h.later htasks (h.runs.commit input _ _)
  | reconcile =>
    refine ⟨h.tasks, h.runs, fun r hr l hl => ?_⟩
    rcases List.mem_append.mp hr with hr | hr
    · exact h.listed r hr l hl
    · rw [List.mem_singleton.mp hr] at hl
      obtain ⟨e, he, rfl⟩ := List.mem_map.mp hl
      exact ⟨e.2, OrdMap.mem_entries.mp he, le_rfl, fun _ => rfl⟩
  | listRuns i =>
    unfold step
    dsimp only
    split
    · exact h
    rename_i r hr
    split
    · refine h.set i fun l hl => ?_
      rcases List.mem_append.mp hl with hl | hl
      · exact h.listed r (List.mem_of_getElem? hr) l hl
      · obtain ⟨e, he, rfl⟩ := List.mem_map.mp hl
        exact ⟨e.2, OrdMap.mem_entries.mp he, le_rfl, fun _ => rfl⟩
    · exact h
  | read i detectedAt =>
    unfold step
    dsimp only
    split
    · exact h
    rename_i r hr
    exact h.set i fun l hl => h.listed r (List.mem_of_getElem? hr) l (read_pending r s detectedAt l hl)
  | record i =>
    unfold step
    dsimp only
    split
    · exact h
    rename_i r hr
    split
    · exact h
    rename_i finding hfound
    have hnext := h.set i (r := ⟨r.pending, r.listing, none, r.mismatches ++ [finding], r.thrown⟩)
      (h.listed r (List.mem_of_getElem? hr))
    exact ⟨h.tasks, h.runs, hnext.listed⟩

/-- A read that is current finds nothing, and one that is not finds something. -/
theorem read_quiet_iff (h : Inv s) {r : Reconciliation} (hr : r ∈ s.reconciliations)
    (hquiet : r.found = none ∧ r.mismatches = [] ∧ r.thrown = false) (detectedAt : ℤ) :
    ((r.read s detectedAt).found = none ∧ (r.read s detectedAt).mismatches = [] ∧
        (r.read s detectedAt).thrown = false) ↔
      (r.listing = false → ∀ l rest, r.pending = l :: rest → IsCurrent s l) := by
  obtain ⟨hfound, hmismatches, hthrown⟩ := hquiet
  by_cases hlisting : r.listing = true
  · have hread : r.read s detectedAt = r := by
      unfold Reconciliation.read
      rw [if_pos (.inl hlisting)]
    rw [hread]
    exact iff_of_true ⟨hfound, hmismatches, hthrown⟩ fun hnot => by simp [hlisting] at hnot
  rcases hpending : r.pending with _ | ⟨l, rest⟩
  · have hread : r.read s detectedAt = r := by
      unfold Reconciliation.read
      rw [if_neg (by simp [hlisting, hfound, hthrown]), hpending]
    rw [hread]
    exact iff_of_true ⟨hfound, hmismatches, hthrown⟩ fun _ l rest hcons => nomatch hcons
  · obtain ⟨⟨found, hcheck⟩, hiff⟩ := h.check (h.listed r hr l (by simp [hpending])) detectedAt
    have hread : r.read s detectedAt = { r with
        pending := rest
        found := found } := by
      unfold Reconciliation.read
      rw [if_neg (by simp [hlisting, hfound, hthrown]), hpending]
      dsimp only
      rw [hcheck]
    rw [hcheck] at hiff
    rw [hread]
    dsimp only
    constructor
    · rintro ⟨hnone, -, -⟩ - l' rest' hcons
      cases hcons
      exact hiff.mp (congrArg Except.ok hnone)
    · intro hcurrent
      refine ⟨?_, hmismatches, hthrown⟩
      exact Except.ok.inj (hiff.mpr (hcurrent (by simpa using hlisting) l rest rfl))

/-- **The step lemma**: a step finds nothing exactly when it is current. -/
theorem quiet_step_iff (h : Inv s) (hquiet : Quiet s) (a : Action) : Quiet (step s a) ↔ Current s a := by
  cases a with
  | createTask id project_id phase_id => exact iff_of_true ⟨hquiet.findings, hquiet.reconciliations⟩ trivial
  | createRun id project_id phase_id task_id =>
    exact iff_of_true ⟨hquiet.findings, hquiet.reconciliations⟩ trivial
  | transitionTask input => exact iff_of_true ⟨hquiet.findings, hquiet.reconciliations⟩ trivial
  | transitionRun input => exact iff_of_true ⟨hquiet.findings, hquiet.reconciliations⟩ trivial
  | reconcile =>
    refine iff_of_true ⟨hquiet.findings, fun r hr => ?_⟩ trivial
    rcases List.mem_append.mp hr with hr | hr
    · exact hquiet.reconciliations r hr
    · rw [List.mem_singleton.mp hr]
      exact ⟨rfl, rfl, rfl⟩
  | listRuns i =>
    refine iff_of_true ?_ trivial
    unfold step
    dsimp only
    split
    · exact hquiet
    rename_i r hr
    split
    · refine ⟨hquiet.findings, fun other hother => ?_⟩
      rcases List.mem_or_eq_of_mem_set hother with hold | rfl
      · exact hquiet.reconciliations other hold
      · exact hquiet.reconciliations r (List.mem_of_getElem? hr)
    · exact hquiet
  | read i detectedAt =>
    rcases hr : s.reconciliations[i]? with _ | r
    · have hstep : step s (.read i detectedAt) = s := by
        unfold step
        simp only [hr]
      rw [hstep]
      refine iff_of_true hquiet fun r' hr' => ?_
      rw [hr] at hr'
      cases hr'
    · have hmem := List.mem_of_getElem? hr
      have hquiet' := hquiet.reconciliations r hmem
      have hiff := read_quiet_iff h hmem hquiet' detectedAt
      have hstep : step s (.read i detectedAt) =
          { s with reconciliations := s.reconciliations.set i (r.read s detectedAt) } := by
        unfold step
        simp only [hr]
      obtain ⟨hi, -⟩ := List.getElem?_eq_some_iff.mp hr
      rw [hstep]
      constructor
      · intro hafter r' hr' hlisting hfound hthrown
        cases hr.symm.trans hr'
        exact hiff.mp (hafter.reconciliations _ (List.mem_set hi _)) hlisting
      · intro hcurrent
        refine ⟨hquiet.findings, fun other hother => ?_⟩
        rcases List.mem_or_eq_of_mem_set hother with hold | rfl
        · exact hquiet.reconciliations other hold
        · exact hiff.mpr fun hlisting => hcurrent r hr hlisting hquiet'.1 hquiet'.2.2
  | record i =>
    refine iff_of_true ?_ trivial
    unfold step
    dsimp only
    split
    · exact hquiet
    rename_i r hr
    rw [(hquiet.reconciliations r (List.mem_of_getElem? hr)).1]
    exact hquiet

/-- `reconcileV2Lifecycles` reports the aggregate clean exactly when its events, repeated ids aside, are a legal
chain from version 0 to the row. -/
def CleanIff (k : Kind TState) (id : String) (row : LifecycleRow TState) (events : List (Event TState))
    (detectedAt : ℤ) : Prop :=
  checkRow k id row events detectedAt = .ok none ↔ LegalChain k.canTransition k.initialState 0
    (firstOccurrences [] (events.map Event.parsed)) row.state row.lifecycle_version

theorem cleanIff_iff (k : Kind TState) (id : String) (row : LifecycleRow TState) (events : List (Event TState))
    (detectedAt : ℤ) : CleanIff k id row events detectedAt ↔
      (LegalChain k.canTransition k.initialState 0 (firstOccurrences [] (events.map Event.parsed)) row.state
        row.lifecycle_version → ∀ e ∈ events, Parses k e) := by
  unfold CleanIff
  rw [checkRow_clean_iff]
  tauto

/-- **Reconciliation**: rows and events agree in every state, and a reconciliation finds nothing, exactly when
every row is as it was listed when its events are read; a row is reported clean as it should exactly when the events
parse. -/
theorem reconciliation_exact (as : List Action) :
    ((∀ pre, pre <+: as → Folds taskKind (run step initial pre).tasks ∧
        Folds agentRunKind (run step initial pre).runs ∧ Quiet (run step initial pre)) ↔
      Along step Current initial as) ∧
    (∀ id row events detectedAt, CleanIff taskKind id row events detectedAt ↔
      (LegalChain v2CanTaskTransition .pending 0 (firstOccurrences [] (events.map Event.parsed)) row.state
        row.lifecycle_version → ∀ e ∈ events, Parses taskKind e)) ∧
    (∀ id row events detectedAt, CleanIff agentRunKind id row events detectedAt ↔
      (LegalChain v2CanAgentRunTransition .created 0 (firstOccurrences [] (events.map Event.parsed)) row.state
        row.lifecycle_version → ∀ e ∈ events, Parses agentRunKind e)) := by
  refine ⟨?_, cleanIff_iff taskKind, cleanIff_iff agentRunKind⟩
  have hquiet : Quiet initial := ⟨fun _ => rfl, fun r hr => nomatch hr⟩
  rw [← prefixes_iff_along (J := Inv) (I := Quiet) (fun s a h => inv_step h a)
    (fun s a h hq => quiet_step_iff h hq a) inv_initial hquiet]
  constructor
  · exact fun h pre hpre => (h pre hpre).2.2
  · intro h pre hpre
    have hinv : Inv (run step initial pre) := run_induct' (I := Inv) (fun s a h => inv_step h a) inv_initial pre
    exact ⟨hinv.tasks.folds, hinv.runs.folds, h pre hpre⟩

/-- A task whose transition commits between the listing and the read. -/
def staleRun : List Action :=
  [.createTask "task-1" "project-1" "phase-1", .reconcile, .listRuns 0,
    .transitionTask ⟨"task-1", "project-1", "phase-1", "task-1", 1, .ready, none, .coordinator, none, 5, "event-1"⟩,
    .read 0 6, .record 0]

/-- **A sound task is quarantined**: it moves on between the listing of the rows and the read of its events. -/
theorem stale_row_is_found : Folds taskKind (run step initial staleRun).tasks ∧
    ((run step initial staleRun).findings.get? (.task, "task-1")).map Finding.code =
      some .event_without_state := by
  have hinv : Inv (run step initial staleRun) :=
    run_induct' (I := Inv) (fun s a h => inv_step h a) inv_initial staleRun
  exact ⟨hinv.tasks.folds, by decide +kernel⟩

end

end Norns.Persistence.Lifecycles
