import Norns.Coordinator.Dispatcher
import Norns.Lib.Uri

/-! # Scheduling an attempt

`Phase4Coordinator.schedule` (`phase4Coordinator.ts`) admits an attempt of a task: its gates in the
order of the source, each a reading of the tables, then the rows it writes. What the gates find in
tables that are not modelled (packages, pauses, bindings, authorization) is one answer. A retry is
prepared by `retryOnce` (`phase4RecoveryActions.ts`). -/

namespace Norns.Coordinator

open Norns.Lib Norns.Lib.Transaction Norns.Contracts.Protocol Norns.Contracts.V2Lifecycle

/-! ### Identities -/

def runIdentity (taskId : String) (attempt : ℕ) : String :=
  "run:" ++ encodeURIComponent taskId ++ ":" ++ toString attempt

def dispatchJobId (run_id : String) : String := "dispatch-job:" ++ run_id

def v2CommandIdForDispatchJob (job_id : String) : String := "dispatch:" ++ job_id

/-! ### The gates -/

structure ScheduleInput where
  project_id : String
  phase_id : String
  task_id : String
  assignment_id : String
  runner_id : String
  runner_generation : ℕ
  supersedes_run_id : Option String
  correlation_id : String
  issued_at : ℕ
  awaiting_runner_enrollment : Bool
  quickChangeMaxChargeUsd : ℕ
  deriving DecidableEq, Repr

/-- The rows the gates start from. -/
structure SchedulingRow where
  task : TaskRow
  phase : PhaseRow
  project : ProjectRow
  assignment : AgentAssignmentRow
  profile : AgentProfileRow
  deriving DecidableEq, Repr

/-- `OCCUPYING_RUN_STATES` -/
def isOccupying (run : AgentRunRow) : Bool :=
  [V2AgentRunState.created, .dispatched, .running, .verifying].contains run.state

/-- The task states that hold the repository scope of a task. -/
def holdsScope (task : TaskRow) : Bool :=
  [V2TaskState.assigned, .in_progress, .verifying, .in_review].contains task.state

namespace Database

def schedulingRow? (db : Database) (input : ScheduleInput) : Option SchedulingRow := do
  let task ← db.tasks.get? input.task_id
  let phase ← db.phases.get? input.phase_id
  let project ← db.projects.get? input.project_id
  let assignment ← db.agent_assignments.get? input.assignment_id
  let profile ← db.agent_profiles.get? assignment.agent_profile_id
  guard (task.project_id = input.project_id ∧ task.phase_id = input.phase_id ∧
    phase.project_id = input.project_id ∧ assignment.task_id = input.task_id)
  return ⟨task, phase, project, assignment, profile⟩

/-- Phase and task take an attempt. -/
def stateGate (row : SchedulingRow) (input : ScheduleInput) : Except Abort Unit := do
  refuse (¬ (row.phase.status = .approved ∨ row.phase.status = .active))
    (.rejected "phase is not approved for execution")
  refuse (¬ (row.task.state = .pending ∨ row.task.state = .ready) ∧
      ¬ (input.supersedes_run_id.isSome ∧
        (row.task.state = .in_review ∨ row.task.state = .completed)))
    (.rejected "task is not schedulable")

/-- The occupying runs of a project. -/
def projectCount (db : Database) (project_id : String) : ℕ :=
  (db.agent_runs.values.filter fun run =>
    decide (run.project_id = project_id) && isOccupying run).length

def profileOf (db : Database) (run : AgentRunRow) : Option String :=
  (db.agent_assignments.get? run.assignment_id).map (·.agent_profile_id)

/-- The occupying runs of an agent profile. -/
def profileCount (db : Database) (agent_profile_id : String) : ℕ :=
  (db.agent_runs.values.filter fun run =>
    decide (db.profileOf run = some agent_profile_id) && isOccupying run).length

def capacityGate (db : Database) (row : SchedulingRow) (input : ScheduleInput) :
    Except Abort Unit := do
  refuse (row.project.max_concurrent_tasks ≤ db.projectCount input.project_id)
    (.deferred "project_concurrency" "project concurrency capacity is exhausted")
  refuse (row.profile.max_concurrent_runs ≤ db.profileCount row.assignment.agent_profile_id)
    (.deferred "profile_concurrency" "agent profile concurrency capacity is exhausted")

def conflictKeys (db : Database) (task_id : String) : List String :=
  (db.task_coordination_constraints.get? task_id).getD []

/-- Another task of the phase that holds its scope shares a key. -/
def scopeConflict (db : Database) (input : ScheduleInput) : Bool :=
  db.task_coordination_constraints.entries.any fun e =>
    decide (e.1 ≠ input.task_id) &&
    (db.tasks.get? e.1).any (fun task =>
      decide (task.phase_id = input.phase_id) && holdsScope task) &&
    e.2.any fun key => (db.conflictKeys input.task_id).contains key

def conflictGate (db : Database) (input : ScheduleInput) : Except Abort Unit :=
  refuse (db.scopeConflict input)
    (.deferred "repository_scope_conflict" "task conflicts with active repository scope")

/-- A predecessor of the task is not completed. -/
def incompleteDependency (db : Database) (task_id : String) : Bool :=
  db.task_dependencies.any fun d =>
    decide (d.2 = task_id) && (db.tasks.get? d.1).any fun task => decide (task.state ≠ .completed)

def dependencyGate (db : Database) (input : ScheduleInput) : Except Abort Unit :=
  refuse (db.incompleteDependency input.task_id) (.rejected "task dependencies are not complete")

def nextAttempt (db : Database) (task_id : String) : ℕ :=
  ((db.agent_runs.values.filter fun run => decide (run.task_id = task_id)).map (·.attempt)).foldl
    max 0 + 1

def maxCharge (row : SchedulingRow) (input : ScheduleInput) : ℕ :=
  if row.phase.quick then min row.assignment.budget_limit_usd input.quickChangeMaxChargeUsd
  else row.assignment.budget_limit_usd

/-- The money of the phase's active and ambiguously retained reservations. -/
def reservedUsd (db : Database) (phase_id : String) : ℕ :=
  ((db.budget_reservations.values.filter fun row => decide (row.phase_id = phase_id) &&
    [ReservationStatus.active, .retained_ambiguous].contains row.status).map (·.amount_usd)).sum

def budgetGate (db : Database) (row : SchedulingRow) (input : ScheduleInput) :
    Except Abort Unit :=
  refuse (row.phase.approved_budget_usd < db.reservedUsd input.phase_id + maxCharge row input)
    (.rejected "approved phase budget is insufficient")

/-- The current attempt of the task can be replaced: a green run in review or a prepared retry. -/
def replaceable (db : Database) (row : SchedulingRow) (input : ScheduleInput) (prior_id : String) :
    Bool :=
  ((db.agent_runs.get? prior_id).filter fun run => decide (run.task_id = input.task_id) &&
    run.is_designated && run.superseded_at.isNone).any fun prior =>
      (decide (prior.state = .succeeded) &&
        [V2TaskState.in_review, .completed].contains row.task.state) ||
      ([V2AgentRunState.failed, .expired, .cancelled].contains prior.state &&
        decide (row.task.state = .ready))

def priorGate (db : Database) (row : SchedulingRow) (input : ScheduleInput) : Except Abort Unit :=
  refuse (input.supersedes_run_id.any fun prior_id => !db.replaceable row input prior_id)
    (.rejected ("replacement must supersede the current designated green review run " ++
      "or a terminal failed run prepared for retry"))

/-! ### The rows -/

/-- `INSERT`, with the primary key. -/
def insertNew {β : Type} (table : OrdMap String β) (id : String) (row : β) :
    Except Abort (OrdMap String β) :=
  if table.has id then .error (.rejected "duplicate key value violates unique constraint")
  else .ok (table.set id row)

/-- `agent_runs_one_designated_per_task_unique` -/
def hasDesignated (db : Database) (task_id : String) : Bool :=
  db.agent_runs.values.any fun run =>
    decide (run.task_id = task_id) && run.is_designated && run.superseded_at.isNone

/-- The prior attempt is superseded. -/
def supersede (db : Database) (prior_id : Option String) (issued_at : ℕ) : Database :=
  match prior_id with
  | none => db
  | some id =>
    match db.agent_runs.get? id with
    | none => db
    | some run => { db with agent_runs := db.agent_runs.set id { run with
        is_designated := false, superseded_at := some issued_at } }

/-- The task of the new attempt. -/
def assignTask (s : Scope) (replacement : Bool) : Except Abort Scope := do
  let s ← (if s.task.state = .pending then s.transitionTask .ready else pure s)
  if s.task.state = .ready then s.transitionTask .assigned
  else if (s.task.state = .in_review ∨ s.task.state = .completed) ∧ replacement then
    s.transitionTask .in_progress
  else pure s

def newRun (input : ScheduleInput) (attempt : ℕ) : AgentRunRow where
  project_id := input.project_id
  phase_id := input.phase_id
  task_id := input.task_id
  assignment_id := input.assignment_id
  attempt
  state := .created
  is_designated := true
  runner_id := input.runner_id
  verification_status := .pending
  commit_sha := none
  failure_code := none
  failure_detail := none
  superseded_at := none
  finished_at := none

/-- The command and the job of a new attempt or of a continuation. -/
def insertDispatch (db : Database) (command_id job_id : String) (command : CommandRow)
    (task_id : String) (available_at : ℕ) (awaiting_runner_enrollment : Bool) :
    Except Abort Database := do
  let commands ← insertNew db.commands command_id command
  let dispatch_jobs ← insertNew db.dispatch_jobs job_id
    ⟨task_id, command.run_id, command_id,
      if awaiting_runner_enrollment then .awaiting_enrollment else .queued, 0, available_at, none,
      none⟩
  pure { db with commands, dispatch_jobs }

/-- The writes of `schedule`, for the run `run_id`. -/
def insertAttempt (db : Database) (row : SchedulingRow) (input : ScheduleInput) (run_id : String) :
    Except Abort Database := do
  let run := newRun input (db.nextAttempt input.task_id)
  let superseded := db.supersede input.supersedes_run_id input.issued_at
  refuse (superseded.hasDesignated input.task_id)
    (.rejected "duplicate key value violates unique constraint")
  let agent_runs ← insertNew superseded.agent_runs run_id run
  let s ← assignTask ⟨run, { row.task with
    designated_assignment_id := some input.assignment_id
    designated_run_id := some run_id }, false⟩ input.supersedes_run_id.isSome
  let budget_reservations ← insertNew db.budget_reservations (reservationId run_id)
    ⟨input.phase_id, run_id, maxCharge row input, 0, 0, 0, .active⟩
  let db ← db.insertDispatch (v2CommandIdForDispatchJob (dispatchJobId run_id))
    (dispatchJobId run_id) ⟨.launch_run, run_id, input.runner_id, input.runner_generation,
      input.correlation_id, .state .queued⟩ input.task_id input.issued_at
    input.awaiting_runner_enrollment
  pure { db with
    agent_runs
    budget_reservations
    tasks := db.tasks.set input.task_id s.task
    phases := db.phases.set input.phase_id { row.phase with status := .active } }

/-- `schedule`; `gates` answers for the tables that are not modelled. -/
def schedule (db : Database) (input : ScheduleInput) (gates : Bool) : Except Abort Database :=
  match db.schedulingRow? input with
  | none => .error (.rejected "task scheduling scope is unavailable")
  | some row => do
    refuse (gates = false)
      (.rejected "execution requires a verified repository binding that has not been revoked")
    refuse ((db.runner_revocations.get? input.runner_id).any (input.runner_generation ≤ ·))
      (.rejected "runner generation has been revoked")
    stateGate row input
    db.capacityGate row input
    db.conflictGate input
    db.dependencyGate input
    db.budgetGate row input
    db.priorGate row input
    db.insertAttempt row input (runIdentity input.task_id (db.nextAttempt input.task_id))

/-! ### Retries -/

structure RetryInput where
  task_id : String
  failed_run_id : String
  /-- the adjusted limit of the assignment -/
  budget_limit_usd : Option ℕ
  /-- the adjusted agent profile -/
  agent_profile_id : Option String
  deriving DecidableEq, Repr

/-- The adjustment of `retryOnce`: the assignment gets the new limit and the phase at least it. -/
def adjust (db : Database) (task : TaskRow) (input : RetryInput) : Except Abort Database :=
  if input.budget_limit_usd = none ∧ input.agent_profile_id = none then .ok db
  else
    match task.designated_assignment_id.bind fun id =>
        (db.agent_assignments.get? id).map (id, ·) with
    | none => .error (.rejected "the task no longer has an agent assignment to adjust")
    | some (id, assignment) => do
      refuse (input.agent_profile_id.any fun profile => !db.agent_profiles.has profile)
        (.rejected "the agent profile is not available for development")
      refuse (input.budget_limit_usd.any (· ≤ assignment.budget_limit_usd))
        (.rejected "the new automatic limit must be greater than the current limit")
      pure { db with
        agent_assignments := db.agent_assignments.set id { assignment with
          agent_profile_id := input.agent_profile_id.getD assignment.agent_profile_id
          budget_limit_usd := input.budget_limit_usd.getD assignment.budget_limit_usd }
        phases := match db.phases.get? task.phase_id with
          | none => db.phases
          | some phase => db.phases.set task.phase_id { phase with
              approved_budget_usd := max phase.approved_budget_usd
                (input.budget_limit_usd.getD phase.approved_budget_usd) } }

/-- The task is made ready for the next attempt. -/
def readyTask (s : Scope) : Except Abort Scope := do
  let s ← (if s.task.state = .failed then s.transitionTask .in_progress else pure s)
  let s ← (if s.task.state = .in_progress then s.transitionTask .blocked else pure s)
  if s.task.state ≠ .ready then s.transitionTask .ready else pure s

/-- The first stage of `retryOnce`. -/
def prepareRetry (db : Database) (input : RetryInput) : Except Abort Database :=
  match (db.scope? input.failed_run_id).bind fun s =>
      (db.phases.get? s.task.phase_id).map (s, ·) with
  | none => .error (.rejected "the requested task or phase was not found")
  | some (s, phase) => do
    refuse (s.run.task_id ≠ input.task_id)
      (.rejected "the requested task or phase was not found")
    refuse (¬ (phase.status = .active ∨ phase.status = .blocked))
      (.rejected "only an active or blocked failed phase can be retried")
    refuse (s.task.designated_run_id ≠ some input.failed_run_id ∨ s.run.is_designated = false ∨
        s.run.superseded_at.isSome)
      (.rejected "the requested failed run is no longer the current designated attempt")
    refuse (¬ (s.run.state = .failed ∨ s.run.state = .expired ∨ s.run.state = .cancelled))
      (.rejected "the designated run is not failed, expired, or cancelled")
    refuse (¬ (s.task.state = .failed ∨ s.task.state = .blocked ∨ s.task.state = .ready))
      (.rejected "the task is not failed, blocked, or ready")
    let status : PhaseStatus := if phase.status = .blocked then .active else phase.status
    let db ← adjust { db with phases := db.phases.set s.task.phase_id { phase with status } }
      s.task input
    let s ← readyTask s
    pure (db.putScope input.failed_run_id s)

end Database

end Norns.Coordinator
