import Norns.Contracts.Protocol
import Norns.Contracts.V2Lifecycle
import Norns.Lib.OrdMap
import Norns.Lib.Transaction

/-! # The tables of the coordinator

The rows that the dispatch and the event path read and write, with the columns they use. A table
keeps its rows in the order of their creation. Times are milliseconds, money is counted in millionths
of a dollar, the scale of its columns.

The transactions hold the rows of a run and of its task locked, so that within one the two are a
pair, `Scope`; `transitionRun` and `transitionTask` are the guarded transitions
(`lifecycleMutation.ts`), which abort on an edge that the lifecycle does not have. -/

namespace Norns.Coordinator

open Norns.Lib Norns.Contracts.Protocol Norns.Contracts.V2Lifecycle

/-! ### Rows -/

structure ProjectRow where
  max_concurrent_tasks : ℕ
  deriving DecidableEq, Repr

inductive PhaseStatus
  | proposed | approved | active | blocked | completed | cancelled
  deriving DecidableEq, Repr

structure PhaseRow where
  project_id : String
  status : PhaseStatus
  approved_budget_usd : ℕ
  /-- `execution_mode = 'quick'` -/
  quick : Bool
  deriving DecidableEq, Repr

structure AgentProfileRow where
  max_concurrent_runs : ℕ
  deriving DecidableEq, Repr

structure TaskRow where
  project_id : String
  phase_id : String
  state : V2TaskState
  designated_assignment_id : Option String
  designated_run_id : Option String
  deriving DecidableEq, Repr

structure AgentAssignmentRow where
  task_id : String
  agent_profile_id : String
  reviewer_agent_profile_id : Option String
  budget_limit_usd : ℕ
  deriving DecidableEq, Repr

inductive VerificationStatus
  | pending | passed | failed
  deriving DecidableEq, Repr

structure AgentRunRow where
  project_id : String
  phase_id : String
  task_id : String
  assignment_id : String
  attempt : ℕ
  state : V2AgentRunState
  is_designated : Bool
  runner_id : String
  verification_status : VerificationStatus
  commit_sha : Option String
  failure_code : Option String
  failure_detail : Option String
  superseded_at : Option ℕ
  finished_at : Option ℕ
  deriving DecidableEq, Repr

inductive ReservationStatus
  | active | settled | released | retained_ambiguous
  deriving DecidableEq, Repr

structure BudgetReservationRow where
  phase_id : String
  run_id : String
  amount_usd : ℕ
  settled_usd : ℕ
  released_usd : ℕ
  retained_usd : ℕ
  status : ReservationStatus
  deriving DecidableEq, Repr

/-- The texts in `commands.status`: the state that a runner acknowledged, or the dispatcher's name
for a delivered command. -/
inductive CommandStatus
  | dispatched
  | state (s : CommandState)
  deriving DecidableEq, Repr

/-- The state of the contract that a status stands for. -/
def CommandStatus.contract : CommandStatus → CommandState
  | .dispatched => .delivered
  | .state s => s

inductive CommandKind
  | launch_run | collect_visual_evidence
  deriving DecidableEq, Repr

structure CommandRow where
  kind : CommandKind
  run_id : String
  runner_id : String
  runner_generation : ℕ
  correlation_id : String
  status : CommandStatus
  deriving DecidableEq, Repr

inductive JobStatus
  | queued | leased | awaiting_enrollment | delivered | completed | dead_letter | cancelled
  deriving DecidableEq, Repr

structure DispatchJobRow where
  task_id : String
  run_id : String
  command_id : String
  status : JobStatus
  attempts : ℕ
  available_at : ℕ
  lease_owner : Option String
  lease_expires_at : Option ℕ
  deriving DecidableEq, Repr

/-! ### What a runner reports -/

structure RunFailure where
  stage : String
  code : String
  detail : String
  deriving DecidableEq, Repr

/-- The payload of an event, as far as the coordinator acts on it. -/
inductive Payload
  | heartbeat
  | run_log (run_id : String)
  | command_ack (command_id : String) (state : CommandState) (detail : String)
  | run_status (run_id : String) (status : RunStatus) (failure : Option RunFailure)
  | verification_result (node_id commit_sha : String) (passed : Bool)
  | run_published (run_id : String)
  | usage_report (run_id : String)
  | runtime_result (run_id : String)
  | human_wait_requested (run_id : String)
  | continuation_context_applied (run_id : String)
  /-- `knowledge_registration`, `knowledge_heartbeat`, `knowledge_delta`, `knowledge_handoff` -/
  | knowledge (run_id : String)
  deriving DecidableEq, Repr

structure RunnerEvent where
  event_seq : ℕ
  runner_id : String
  generation : ℕ
  correlation_id : String
  causation_id : Option String
  occurred_at : ℕ
  payload : Payload
  deriving DecidableEq, Repr

/-- The unique index of `runner_events`. -/
def RunnerEvent.key (event : RunnerEvent) : String × ℕ × ℕ :=
  (event.runner_id, event.generation, event.event_seq)

structure RunnerEventRow where
  run_id : Option String
  event : RunnerEvent
  deriving DecidableEq, Repr

/-! ### The database -/

structure Database where
  projects : OrdMap String ProjectRow
  phases : OrdMap String PhaseRow
  agent_profiles : OrdMap String AgentProfileRow
  tasks : OrdMap String TaskRow
  /-- predecessor and successor -/
  task_dependencies : List (String × String)
  task_coordination_constraints : OrdMap String (List String)
  agent_assignments : OrdMap String AgentAssignmentRow
  agent_runs : OrdMap String AgentRunRow
  budget_reservations : OrdMap String BudgetReservationRow
  commands : OrdMap String CommandRow
  dispatch_jobs : OrdMap String DispatchJobRow
  runner_events : OrdMap (String × ℕ × ℕ) RunnerEventRow
  /-- `revoked_through_generation` of a runner -/
  runner_revocations : OrdMap String ℕ

/-- Why a transaction aborts. -/
inductive Abort
  | rejected (message : String)
  /-- `Phase4CoordinatorDeferredError` -/
  | deferred (reason message : String)
  | invalidTaskTransition (source target : V2TaskState)
  | invalidRunTransition (source target : V2AgentRunState)
  deriving DecidableEq, Repr

/-! ### A run and its task -/

structure Scope where
  run : AgentRunRow
  task : TaskRow
  /-- A Quick Change without a reviewer. -/
  quick : Bool
  deriving DecidableEq, Repr

namespace Scope

/-- `transitionV2AgentRunLifecycle`; a terminal state has a finish time. -/
def transitionRun (s : Scope) (target : V2AgentRunState) (occurred_at : ℕ) : Except Abort Scope :=
  if v2CanAgentRunTransition s.run.state target then
    .ok { s with run := { s.run with
      state := target
      finished_at := if target.isTerminal then some occurred_at else s.run.finished_at } }
  else .error (.invalidRunTransition s.run.state target)

/-- `transitionV2TaskLifecycle` -/
def transitionTask (s : Scope) (target : V2TaskState) : Except Abort Scope :=
  if v2CanTaskTransition s.task.state target then
    .ok { s with task := { s.task with state := target } }
  else .error (.invalidTaskTransition s.task.state target)

end Scope

namespace Database

/-- The run, joined with its task, both locked. -/
def scope? (db : Database) (run_id : String) : Option Scope :=
  (db.agent_runs.get? run_id).bind fun run =>
    (db.tasks.get? run.task_id).bind fun task =>
      (db.agent_assignments.get? run.assignment_id).bind fun assignment =>
        (db.phases.get? run.phase_id).map fun phase =>
          ⟨run, task, phase.quick && assignment.reviewer_agent_profile_id.isNone⟩

/-- The two rows are written back. -/
def putScope (db : Database) (run_id : String) (s : Scope) : Database :=
  { db with
    agent_runs := db.agent_runs.set run_id s.run
    tasks := db.tasks.set s.run.task_id s.task }

def setCommandStatus (db : Database) (command_id : String) (status : CommandStatus) : Database :=
  match db.commands.get? command_id with
  | none => db
  | some row => { db with commands := db.commands.set command_id { row with status } }

def setJob (db : Database) (job_id : String) (job : DispatchJobRow) : Database :=
  { db with dispatch_jobs := db.dispatch_jobs.set job_id job }

end Database

end Norns.Coordinator
