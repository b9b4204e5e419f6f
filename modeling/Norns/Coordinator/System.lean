import Norns.Coordinator.Scheduler
import Norns.Lib.Run

/-! # The coordinator

The transactions that share the tables, one at a time and in any order: the events of the runners, the dispatcher,
the scheduling of first attempts, retries and rework, answered and expired waits, expired dispatches
and reviewed completions. An aborted transaction changes nothing. -/

namespace Norns.Coordinator

open Norns.Lib Norns.Lib.Run Norns.Lib.Transaction Norns.Contracts.Protocol
  Norns.Contracts.V2Lifecycle

namespace Database

/-- The command of an answered wait (`HumanWaitContinuationWorker.provision`). -/
structure ProvisionInput where
  run_id : String
  resume_command_id : String
  resume_job_id : String
  runner_id : String
  runner_generation : ℕ
  correlation_id : String
  issued_at : ℕ
  awaiting_runner_enrollment : Bool
  deriving DecidableEq, Repr

/-- `provision`; `gates` answers for the wait, its context and its budget. -/
def provision (db : Database) (input : ProvisionInput) (gates : Bool) : Except Abort Database :=
  match db.scope? input.run_id with
  | none => .ok db
  | some s => do
    refuse (s.run.state ≠ .waiting_for_human ∨ s.task.state ≠ .blocked ∨
        ¬ (db.budget_reservations.get? (reservationId input.run_id)).any
          fun row => decide (row.status = .active))
      (.rejected "continuation source run, task, wait, and reservation are not resumable")
    refuse (gates = false)
      (.rejected "the continuation has no remaining money, token, or duration budget")
    let db ← db.insertDispatch input.resume_command_id input.resume_job_id
      ⟨.launch_run, input.run_id, input.runner_id, input.runner_generation, input.correlation_id,
        .state .queued⟩ s.run.task_id input.issued_at input.awaiting_runner_enrollment
    let s ← { s with run := { s.run with runner_id := input.runner_id } }.transitionRun .dispatched
      input.issued_at
    let s ← s.transitionTask .assigned
    pure (db.putScope input.run_id s)

/-- A wait of the run cannot be answered any more. -/
def expireWaiting (s : Scope) (occurred_at : ℕ) : Except Abort Scope :=
  if s.run.state ≠ .waiting_for_human then pure s
  else do
    let s ← s.transitionRun .expired occurred_at
    if s.task.state ≠ .blocked then s.transitionTask .blocked else pure s

/-- The runner did not start the command before its deadline. -/
def expireDispatched (s : Scope) (occurred_at : ℕ) : Except Abort Scope :=
  if ¬ (s.run.state = .created ∨ s.run.state = .dispatched) then pure s
  else do
    let s ← s.transitionRun .expired occurred_at
    if s.task.state = .assigned then s.transitionTask .blocked else pure s

/-- A sweep of the recovery monitor, for one run. -/
def sweep (expire : Scope → Except Abort Scope) (db : Database) (run_id : String) :
    Except Abort Database :=
  match db.scope? run_id with
  | none => .ok db
  | some s => db.putScope run_id <$> expire s

/-- `expireUnanswerableWaits` -/
def expireWait (db : Database) (run_id : String) (occurred_at : ℕ) : Except Abort Database :=
  db.sweep (expireWaiting · occurred_at) run_id

/-- `expireStaleDispatches` -/
def expireDispatch (db : Database) (run_id : String) (occurred_at : ℕ) : Except Abort Database :=
  db.sweep (expireDispatched · occurred_at) run_id

/-- The phase of a completed task closes with its last open task. -/
def closePhase (db : Database) (phase_id : String) : Database :=
  if db.tasks.values.any fun task => decide (task.phase_id = phase_id ∧
      task.state ≠ .completed ∧ task.state ≠ .cancelled) then db
  else
    match db.phases.get? phase_id with
    | none => db
    | some phase => { db with phases := db.phases.set phase_id { phase with status := .completed } }

/-- `Phase4CompletionService.complete`; `clear` if no integration conflict is open. -/
def complete (db : Database) (run_id : String) (clear : Bool) (usage_cost_usd : ℕ) :
    Except Abort Database :=
  match db.scope? run_id, db.budget_reservations.get? (reservationId run_id) with
  | some s, some row => do
    refuse (¬ (s.task.designated_run_id = some run_id ∧ s.run.state = .succeeded ∧
        s.run.verification_status = .passed))
      (.rejected "completion requires the designated green run")
    if s.task.state = .completed then pure db
    else do
      refuse (s.task.state ≠ .in_review) (.rejected "task is not awaiting review")
      refuse (clear = false) (.rejected "task has unresolved integration conflicts")
      let s ← s.transitionTask .completed
      let db ← (if row.status = .active then
          (db.putScope run_id s).applyResolution (reservationId run_id) row <$>
            resolveV2BudgetReservation row.amount_usd .success usage_cost_usd
        else pure (db.putScope run_id s))
      pure (db.closePhase s.run.phase_id)
  | _, _ => .error (.rejected "completion requires the designated green run")

/-! ### Steps -/

/-- The transactions. Left out are the continuation of a terminal Actions run
(`claimTerminalActionsContinuation`) and the resumption of a pause (`pauseResumeContinuation`), which takes
a place as an answered wait does. -/
inductive Op
  | event (event : RunnerEvent) (here : Elsewhere)
  | claim (job_id owner : String) (now leaseMs : ℕ) (authorized : Bool)
  | deliver (job_id owner : String) (authorized sent allowAwaitingEnrollment receipts : Bool)
      (occurred_at : ℕ)
  | retryJob (job_id owner : String) (available_at : ℕ)
  | deadLetter (job_id owner : String) (occurred_at cost_usd : ℕ)
  | schedule (input : ScheduleInput) (gates : Bool)
  | prepareRetry (input : RetryInput)
  | provision (input : ProvisionInput) (gates : Bool)
  | expireWait (run_id : String) (occurred_at : ℕ)
  | expireDispatch (run_id : String) (occurred_at : ℕ)
  | complete (run_id : String) (clear : Bool) (usage_cost_usd : ℕ)
  deriving DecidableEq, Repr

/-- One transaction. -/
def perform (db : Database) : Op → Except Abort Database
  | .event event here => Prod.snd <$> db.apply event here
  | .claim job_id owner now leaseMs authorized =>
    .ok (db.claim job_id owner now leaseMs authorized)
  | .deliver job_id owner authorized sent allowAwaitingEnrollment receipts occurred_at =>
    db.deliver job_id owner authorized sent allowAwaitingEnrollment receipts occurred_at
  | .retryJob job_id owner available_at => db.retryJob job_id owner available_at
  | .deadLetter job_id owner occurred_at cost_usd => db.deadLetter job_id owner occurred_at cost_usd
  | .schedule input gates => db.schedule input gates
  | .prepareRetry input => db.prepareRetry input
  | .provision input gates => db.provision input gates
  | .expireWait run_id occurred_at => db.expireWait run_id occurred_at
  | .expireDispatch run_id occurred_at => db.expireDispatch run_id occurred_at
  | .complete run_id clear usage_cost_usd => db.complete run_id clear usage_cost_usd

def step (db : Database) (op : Op) : Database := commit db (db.perform op)

/-! ### A project with one task -/

def oneTask : Database where
  projects := .ofList [("project", ⟨1⟩)]
  phases := .ofList [("phase", ⟨"project", .approved, 100, false⟩)]
  agent_profiles := .ofList [("profile", ⟨1⟩)]
  tasks := .ofList [("task", ⟨"project", "phase", .pending, some "assignment", none⟩)]
  task_dependencies := []
  task_coordination_constraints := .empty
  agent_assignments := .ofList [("assignment", ⟨"task", "profile", none, 40⟩)]
  agent_runs := .empty
  budget_reservations := .empty
  commands := .empty
  dispatch_jobs := .empty
  runner_events := .empty
  runner_revocations := .empty

/-- The attempts of its task. -/
def attempt (supersedes_run_id : Option String) : Op :=
  .schedule ⟨"project", "phase", "task", "assignment", "runner", 0, supersedes_run_id, "launch", 0,
    false, 0⟩ true

/-- Everything elsewhere is in order, and no pause is queued. -/
def calm : Elsewhere := ⟨true, false, false, true, true, true, true, true, true, true, 0⟩

/-- A report of the runner about the command of the run. -/
def report (run_id : String) (event_seq : ℕ) (payload : Payload) : Op :=
  .event ⟨event_seq, "runner", 0, "launch",
    some (v2CommandIdForDispatchJob (dispatchJobId run_id)), event_seq, payload⟩ calm

def acked (run_id : String) (event_seq : ℕ) (state : CommandState) : Op :=
  report run_id event_seq
    (.command_ack (v2CommandIdForDispatchJob (dispatchJobId run_id)) state "")

/-- An attempt is claimed and delivered. -/
def sent (run_id : String) : List Op :=
  [.claim (dispatchJobId run_id) "worker" 0 30000 true,
    .deliver (dispatchJobId run_id) "worker" true true false true 0]

end Database

end Norns.Coordinator
