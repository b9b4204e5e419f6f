import Norns.Coordinator.System

/-! # What a transaction writes

One lemma per transaction: the tables after it, if it commits. Everything that is proved about runs
of the coordinator starts from these. -/

namespace Norns.Coordinator.Database

open Norns.Lib Norns.Lib.Transaction Norns.Contracts.Protocol Norns.Contracts.V2Lifecycle

variable {db db' : Database} {event : RunnerEvent} {here : Elsewhere} {run_id : String}

/-! ### Events -/

theorem acknowledge_agent_runs (id : String) (state : CommandState) :
    (db.acknowledge id state).agent_runs = db.agent_runs := by
  unfold acknowledge setCommandStatus completeJob
  split <;> split <;> rfl

theorem acknowledge_tasks (id : String) (state : CommandState) :
    (db.acknowledge id state).tasks = db.tasks := by
  unfold acknowledge setCommandStatus completeJob
  split <;> split <;> rfl

theorem acknowledge_scope? (id : String) (state : CommandState) (run_id : String) :
    (db.acknowledge id state).scope? run_id = db.scope? run_id := by
  unfold acknowledge setCommandStatus completeJob
  split <;> split <;> rfl

theorem acknowledge_commands (id : String) (state : CommandState) :
    (db.acknowledge id state).commands = (db.setCommandStatus id (.state state)).commands := by
  unfold acknowledge completeJob
  split <;> rfl

/-- The rows after an event has moved its run and its task, and resolved the reservation. -/
def moved (db : Database) (run_id : String) (s : Scope)
    (budget : OrdMap String BudgetReservationRow) : Database :=
  { db.putScope run_id s with budget_reservations := budget }

theorem endCommand_ok {id : String} {state : CommandState} {terminal : Terminal} {detail : String}
    (h : db.endCommand event id run_id state terminal detail here = .ok db') :
    ∃ budget, Resolves db.budget_reservations budget ∧
      ((db.scope? run_id = none ∧ db' = { db with budget_reservations := budget }) ∨
        ∃ s s' settles, db.scope? run_id = some s ∧
          s.endCommand (db.deferredReport event id run_id) state detail here event.occurred_at =
            .ok (settles, s') ∧ db' = db.moved run_id s' budget) := by
  unfold endCommand at h
  split at h
  · rename_i hnone
    obtain ⟨budget, hbudget, rfl⟩ := resolveActive_ok h
    exact ⟨budget, hbudget, .inl ⟨hnone, rfl⟩⟩
  · rename_i s hs
    obtain ⟨⟨settles, s'⟩, hend, h⟩ := bind_eq_ok.mp h
    dsimp only at h
    split at h
    · obtain ⟨budget, hbudget, rfl⟩ := resolveActive_ok h
      exact ⟨budget, hbudget, .inr ⟨s, s', settles, hs, hend, rfl⟩⟩
    · cases h
      exact ⟨_, .inl rfl, .inr ⟨s, s', settles, hs, hend, rfl⟩⟩

/-- An acknowledgement either only changes the command, or ends the attempt behind it. -/
theorem applyCommandAck_ok {id : String} {state : CommandState} {detail : String} {row : CommandRow}
    (h : db.applyCommandAck event id state detail row here = .ok db') :
    Accepts row event id ∧
      ((db' = (db.acknowledge id state).record event (some row.run_id) ∧
          (row.kind = .launch_run → Terminal.of? state = none)) ∨
        ∃ terminal mid, row.kind = .launch_run ∧ Terminal.of? state = some terminal ∧
          (db.acknowledge id state).endCommand event id row.run_id state terminal detail here =
            .ok mid ∧ db' = mid.record event (some row.run_id)) := by
  unfold applyCommandAck at h
  obtain ⟨hacc, h⟩ := refuse_bind_ok.mp h
  refine ⟨not_not.mp hacc, ?_⟩
  obtain ⟨mid, hmid, h⟩ := bind_eq_ok.mp h
  cases h
  split at hmid
  · rename_i terminal hkind hterminal
    exact .inr ⟨terminal, mid, hkind, hterminal, hmid, rfl⟩
  · rename_i hno
    cases hmid
    refine .inl ⟨rfl, fun hkind => ?_⟩
    rcases ht : Terminal.of? state with _ | terminal
    · rfl
    · exact absurd ht (hno terminal hkind)

theorem applyRunEvent_ok {s : Scope} (h : db.applyRunEvent event run_id s here = .ok db') :
    s.run.runner_id = event.runner_id ∧
      db.commandGeneration run_id event.causation_id = some event.generation ∧
      ∃ s' terminal budget, reportOnScope s event here = .ok (s', terminal) ∧
        Resolves db.budget_reservations budget ∧
        db' = (db.moved run_id s' budget).record event (some run_id) := by
  unfold applyRunEvent at h
  obtain ⟨hrunner, h⟩ := refuse_bind_ok.mp h
  obtain ⟨hgeneration, h⟩ := refuse_bind_ok.mp h
  obtain ⟨⟨s', terminal⟩, hreport, h⟩ := bind_eq_ok.mp h
  obtain ⟨mid, hmid, h⟩ := bind_eq_ok.mp h
  cases h
  refine ⟨not_not.mp hrunner, not_not.mp hgeneration, s', terminal, ?_⟩
  split at hmid
  · obtain ⟨budget, hbudget, rfl⟩ := resolveActive_ok hmid
    exact ⟨budget, hreport, hbudget, rfl⟩
  · cases hmid
    exact ⟨_, hreport, .inl rfl, rfl⟩

theorem apply_authorized {r : Reply × Database} (h : db.apply event here = .ok r) :
    here.authorized = true ∧
      ¬ (db.runner_revocations.get? event.runner_id).any (event.generation ≤ ·) := by
  unfold apply at h
  obtain ⟨hauthorized, h⟩ := refuse_bind_ok.mp h
  obtain ⟨hrevoked, -⟩ := refuse_bind_ok.mp h
  exact ⟨by simpa using hauthorized, hrevoked⟩

/-- The ways an event can be applied. -/
inductive Applied (db : Database) (event : RunnerEvent) (here : Elsewhere) : Reply → Database → Prop
  | duplicate : db.runner_events.has event.key = true → Applied db event here .duplicate db
  | ignored : db.runner_events.has event.key = false → Applied db event here .ignored db
  | quiet : db.runner_events.has event.key = false →
      Applied db event here .applied (db.record event none)
  | ack (id : String) (state : CommandState) (detail : String) (row : CommandRow) (db' : Database) :
      db.runner_events.has event.key = false → event.payload = .command_ack id state detail →
      db.commands.get? id = some row →
      db.applyCommandAck event id state detail row here = .ok db' →
      Applied db event here .applied db'
  | report (run_id : String) (s : Scope) (db' : Database) :
      db.runner_events.has event.key = false → db.runOf event.payload = some run_id →
      db.scope? run_id = some s → db.applyRunEvent event run_id s here = .ok db' →
      Applied db event here .applied db'

theorem apply_ok {reply : Reply} (h : db.apply event here = .ok (reply, db')) :
    Applied db event here reply db' := by
  unfold apply at h
  obtain ⟨-, h⟩ := refuse_bind_ok.mp h
  obtain ⟨-, h⟩ := refuse_bind_ok.mp h
  split at h
  · rename_i hhas
    cases h
    exact .duplicate hhas
  rename_i hhas
  have hnew : db.runner_events.has event.key = false := by simpa using hhas
  split at h
  · cases h
    exact .quiet hnew
  · cases h
    exact .quiet hnew
  · rename_i id state detail hpayload
    split at h
    · cases h
      exact .ignored hnew
    · rename_i row hrow
      obtain ⟨db'', hack, heq⟩ := map_eq_ok.mp h
      cases heq
      exact .ack id state detail row _ hnew hpayload hrow hack
  · split at h
    · cases h
      exact .ignored hnew
    · rename_i run_id s hs
      obtain ⟨db'', hreport, heq⟩ := map_eq_ok.mp h
      cases heq
      obtain ⟨run_id', hrun, hscope⟩ := Option.bind_eq_some_iff.mp hs
      obtain ⟨s', hs', heq⟩ := Option.map_eq_some_iff.mp hscope
      cases heq
      exact .report _ _ _ hnew hrun hs' hreport

/-! ### The dispatcher -/

theorem cancelJob_eq (db : Database) (job_id : String) :
    ∃ jobs, db.cancelJob job_id = { db with dispatch_jobs := jobs } := by
  unfold cancelJob
  split
  · exact ⟨_, rfl⟩
  · split
    · exact ⟨_, rfl⟩
    · exact ⟨_, rfl⟩

theorem setCommandStatus_eq (db : Database) (id : String) (status : CommandStatus) :
    ∃ commands, db.setCommandStatus id status = { db with commands } := by
  unfold setCommandStatus
  split
  · exact ⟨_, rfl⟩
  · exact ⟨_, rfl⟩

/-- Only jobs and commands change. -/
def OnlyDispatch (db db' : Database) : Prop :=
  ∃ jobs commands, db' = { db with dispatch_jobs := jobs, commands := commands }

theorem onlyDispatch_cancelStaleCommand (db : Database) (job_id id : String) :
    OnlyDispatch db (db.cancelStaleCommand job_id id) := by
  obtain ⟨jobs, hjobs⟩ := cancelJob_eq db job_id
  unfold cancelStaleCommand cancelCommand
  rw [hjobs]
  split
  · exact ⟨jobs, _, rfl⟩
  · split
    · obtain ⟨commands, hcommands⟩ :=
        setCommandStatus_eq { db with dispatch_jobs := jobs } id (.state .cancelled)
      exact ⟨jobs, commands, hcommands⟩
    · exact ⟨jobs, _, rfl⟩

theorem onlyDispatch_claim (db : Database) (job_id owner : String) (now leaseMs : ℕ)
    (authorized : Bool) : OnlyDispatch db (db.claim job_id owner now leaseMs authorized) := by
  unfold claim
  split
  · exact ⟨_, _, rfl⟩
  · split
    · exact ⟨_, _, rfl⟩
    · split
      · dsimp only
        split
        · exact ⟨_, _, rfl⟩
        · exact onlyDispatch_cancelStaleCommand (db.setJob job_id _) ..
      · exact ⟨_, _, rfl⟩

theorem retryJob_ok {job_id owner : String} {available_at : ℕ}
    (h : db.retryJob job_id owner available_at = .ok db') :
    ∃ jobs, db' = { db with dispatch_jobs := jobs } := by
  unfold retryJob at h
  split at h
  · cases h
  · split at h
    · cases h
      exact ⟨_, rfl⟩
    · split at h
      · cases h
        exact ⟨_, rfl⟩
      · cases h

/-! ### Scheduling -/

theorem insertNew_ok {β : Type} {m m' : OrdMap String β} {id : String} {row : β}
    (h : insertNew m id row = .ok m') : m.get? id = none ∧ m' = m.set id row := by
  unfold insertNew at h
  split at h
  · cases h
  · rename_i hhas
    cases h
    refine ⟨OrdMap.get?_eq_none.mpr fun hmem => hhas (OrdMap.has_iff.mpr hmem), rfl⟩

theorem insertDispatch_ok {command_id job_id task_id : String} {command : CommandRow} {at_ : ℕ}
    {awaiting : Bool}
    (h : db.insertDispatch command_id job_id command task_id at_ awaiting = .ok db') :
    ∃ jobs, db.commands.get? command_id = none ∧
      db' = { db with
        commands := db.commands.set command_id command
        dispatch_jobs := jobs } := by
  unfold insertDispatch at h
  obtain ⟨commands, hcommands, h⟩ := bind_eq_ok.mp h
  obtain ⟨jobs, -, h⟩ := bind_eq_ok.mp h
  cases h
  obtain ⟨hnew, rfl⟩ := insertNew_ok hcommands
  exact ⟨jobs, hnew, rfl⟩

/-- The task of a new attempt, before its transition. -/
def assignedTask (row : SchedulingRow) (input : ScheduleInput) (run_id : String) : TaskRow :=
  { row.task with
    designated_assignment_id := some input.assignment_id
    designated_run_id := some run_id }

/-- The reservation of a new attempt. -/
def newReservation (row : SchedulingRow) (input : ScheduleInput) (run_id : String) :
    BudgetReservationRow :=
  ⟨input.phase_id, run_id, maxCharge row input, 0, 0, 0, .active⟩

theorem insertAttempt_ok {row : SchedulingRow} {input : ScheduleInput}
    (h : db.insertAttempt row input run_id = .ok db') :
    ∃ s commands jobs,
      (db.supersede input.supersedes_run_id input.issued_at).hasDesignated input.task_id = false ∧
      (db.supersede input.supersedes_run_id input.issued_at).agent_runs.get? run_id = none ∧
      assignTask ⟨newRun input (db.nextAttempt input.task_id), assignedTask row input run_id, false⟩
        input.supersedes_run_id.isSome = .ok s ∧
      db.budget_reservations.get? (reservationId run_id) = none ∧
      db.commands.get? (v2CommandIdForDispatchJob (dispatchJobId run_id)) = none ∧
      commands = db.commands.set (v2CommandIdForDispatchJob (dispatchJobId run_id))
        ⟨.launch_run, run_id, input.runner_id, input.runner_generation, input.correlation_id,
          .state .queued⟩ ∧
      db' = { db with
        agent_runs := (db.supersede input.supersedes_run_id input.issued_at).agent_runs.set run_id
          (newRun input (db.nextAttempt input.task_id))
        budget_reservations := db.budget_reservations.set (reservationId run_id)
          (newReservation row input run_id)
        tasks := db.tasks.set input.task_id s.task
        phases := db.phases.set input.phase_id { row.phase with status := .active }
        commands
        dispatch_jobs := jobs } := by
  unfold insertAttempt at h
  obtain ⟨hdesignated, h⟩ := refuse_bind_ok.mp h
  obtain ⟨runs, hruns, h⟩ := bind_eq_ok.mp h
  obtain ⟨s, hs, h⟩ := bind_eq_ok.mp h
  obtain ⟨budget, hbudget, h⟩ := bind_eq_ok.mp h
  obtain ⟨mid, hmid, h⟩ := bind_eq_ok.mp h
  cases h
  obtain ⟨hrun, rfl⟩ := insertNew_ok hruns
  obtain ⟨hreservation, rfl⟩ := insertNew_ok hbudget
  obtain ⟨jobs, hcommand, rfl⟩ := insertDispatch_ok hmid
  exact ⟨s, _, jobs, by simpa using hdesignated, hrun, hs, hreservation, hcommand, rfl, rfl⟩

/-- What the gates of `schedule` found. -/
structure Admitted (db : Database) (row : SchedulingRow) (input : ScheduleInput) : Prop where
  found : db.schedulingRow? input = some row
  state : stateGate row input = .ok ()
  capacity : db.capacityGate row input = .ok ()
  conflict : db.scopeConflict input = false
  dependency : db.incompleteDependency input.task_id = false
  budget : db.reservedUsd input.phase_id + maxCharge row input ≤ row.phase.approved_budget_usd
  prior : db.priorGate row input = .ok ()

theorem schedule_ok {input : ScheduleInput} {gates : Bool}
    (h : db.schedule input gates = .ok db') :
    ∃ row, Admitted db row input ∧ db.insertAttempt row input
      (runIdentity input.task_id (db.nextAttempt input.task_id)) = .ok db' := by
  unfold schedule at h
  split at h
  · cases h
  · rename_i row hrow
    obtain ⟨-, h⟩ := refuse_bind_ok.mp h
    obtain ⟨-, h⟩ := refuse_bind_ok.mp h
    obtain ⟨_, hstate, h⟩ := bind_eq_ok.mp h
    obtain ⟨_, hcapacity, h⟩ := bind_eq_ok.mp h
    obtain ⟨_, hconflict, h⟩ := bind_eq_ok.mp h
    obtain ⟨_, hdependency, h⟩ := bind_eq_ok.mp h
    obtain ⟨_, hbudget, h⟩ := bind_eq_ok.mp h
    obtain ⟨_, hprior, h⟩ := bind_eq_ok.mp h
    refine ⟨row, ⟨hrow, hstate, hcapacity, ?_, ?_, ?_, hprior⟩, h⟩
    · simpa using refuse_eq_ok.mp hconflict
    · simpa using refuse_eq_ok.mp hdependency
    · have := refuse_eq_ok.mp hbudget
      omega

theorem adjust_ok {task : TaskRow} {input : RetryInput} (h : db.adjust task input = .ok db') :
    ∃ assignments phases, db' = { db with agent_assignments := assignments, phases } := by
  unfold adjust at h
  split at h
  · cases h
    exact ⟨_, _, rfl⟩
  · split at h
    · cases h
    · obtain ⟨-, h⟩ := refuse_bind_ok.mp h
      obtain ⟨-, h⟩ := refuse_bind_ok.mp h
      cases h
      exact ⟨_, _, rfl⟩

theorem prepareRetry_ok {input : RetryInput} (h : db.prepareRetry input = .ok db') :
    ∃ s s' assignments phases, db.scope? input.failed_run_id = some s ∧
      readyTask s = .ok s' ∧
      db' = { db with agent_assignments := assignments, phases }.putScope input.failed_run_id s' := by
  unfold prepareRetry at h
  split at h
  · cases h
  · rename_i s phase hs
    obtain ⟨s₀, hs₀, hphase⟩ := Option.bind_eq_some_iff.mp hs
    obtain ⟨phase', -, heq⟩ := Option.map_eq_some_iff.mp hphase
    cases heq
    obtain ⟨-, h⟩ := refuse_bind_ok.mp h
    obtain ⟨-, h⟩ := refuse_bind_ok.mp h
    obtain ⟨-, h⟩ := refuse_bind_ok.mp h
    obtain ⟨-, h⟩ := refuse_bind_ok.mp h
    obtain ⟨-, h⟩ := refuse_bind_ok.mp h
    obtain ⟨mid, hmid, h⟩ := bind_eq_ok.mp h
    obtain ⟨s', hs', h⟩ := bind_eq_ok.mp h
    cases h
    obtain ⟨assignments, phases, rfl⟩ := adjust_ok hmid
    exact ⟨s, s', assignments, phases, hs₀, hs', rfl⟩

/-! ### Waits, sweeps and completion -/

theorem provision_ok {input : ProvisionInput} {gates : Bool}
    (h : db.provision input gates = .ok db') :
    db' = db ∨ ∃ s s' jobs, db.scope? input.run_id = some s ∧
      s.run.state = .waiting_for_human ∧ s.task.state = .blocked ∧
      db.commands.get? input.resume_command_id = none ∧
      s' = ⟨{ s.run with runner_id := input.runner_id, state := .dispatched },
        { s.task with state := .assigned }, s.quick⟩ ∧
      db' = { db with
        commands := db.commands.set input.resume_command_id
          ⟨.launch_run, input.run_id, input.runner_id, input.runner_generation,
            input.correlation_id, .state .queued⟩
        dispatch_jobs := jobs }.putScope input.run_id s' := by
  unfold provision at h
  split at h
  · cases h
    exact .inl rfl
  · rename_i s hs
    obtain ⟨hstates, h⟩ := refuse_bind_ok.mp h
    obtain ⟨-, h⟩ := refuse_bind_ok.mp h
    obtain ⟨mid, hmid, h⟩ := bind_eq_ok.mp h
    obtain ⟨s₁, hs₁, h⟩ := bind_eq_ok.mp h
    obtain ⟨s₂, hs₂, h⟩ := bind_eq_ok.mp h
    cases h
    obtain ⟨jobs, hcommand, rfl⟩ := insertDispatch_ok hmid
    push Not at hstates
    obtain ⟨hrun, htask, -⟩ := hstates
    refine .inr ⟨s, _, jobs, hs, hrun, htask, hcommand, ?_, rfl⟩
    unfold Scope.transitionRun at hs₁
    rw [hrun] at hs₁
    cases hs₁
    unfold Scope.transitionTask at hs₂
    dsimp only at hs₂
    rw [htask] at hs₂
    cases hs₂
    rfl

theorem sweep_ok {expire : Scope → Except Abort Scope} (h : db.sweep expire run_id = .ok db') :
    db' = db ∨ ∃ s s', db.scope? run_id = some s ∧ expire s = .ok s' ∧
      db' = db.putScope run_id s' := by
  unfold sweep at h
  split at h
  · cases h
    exact .inl rfl
  · rename_i s hs
    obtain ⟨s', hs', rfl⟩ := map_eq_ok.mp h
    exact .inr ⟨s, s', hs, hs', rfl⟩

theorem closePhase_eq (db : Database) (phase_id : String) :
    ∃ phases, db.closePhase phase_id = { db with phases } := by
  unfold closePhase
  split
  · exact ⟨_, rfl⟩
  · split
    · exact ⟨_, rfl⟩
    · exact ⟨_, rfl⟩

theorem complete_ok {clear : Bool} {cost : ℕ} (h : db.complete run_id clear cost = .ok db') :
    db' = db ∨ ∃ s s' budget phases, db.scope? run_id = some s ∧ s.task.state = .in_review ∧
      s' = ⟨s.run, { s.task with state := .completed }, s.quick⟩ ∧
      Resolves db.budget_reservations budget ∧
      db' = { db.moved run_id s' budget with phases } := by
  unfold complete at h
  split at h
  · rename_i s row hs hrow
    obtain ⟨-, h⟩ := refuse_bind_ok.mp h
    split at h
    · cases h
      exact .inl rfl
    · obtain ⟨hreview, h⟩ := refuse_bind_ok.mp h
      obtain ⟨-, h⟩ := refuse_bind_ok.mp h
      obtain ⟨s', hs', h⟩ := bind_eq_ok.mp h
      obtain ⟨mid, hmid, h⟩ := bind_eq_ok.mp h
      cases h
      have hreview := not_not.mp hreview
      unfold Scope.transitionTask at hs'
      rw [hreview] at hs'
      cases hs'
      obtain ⟨phases, hphases⟩ := closePhase_eq mid s.run.phase_id
      split at hmid
      · rename_i hactive
        obtain ⟨resolution, hres, rfl⟩ := map_eq_ok.mp hmid
        exact .inr ⟨s, _, _, phases, hs, hreview, rfl,
          .inr ⟨_, row, _, _, resolution, hrow, hactive, hres, rfl⟩, hphases⟩
      · cases hmid
        exact .inr ⟨s, _, _, phases, hs, hreview, rfl, .inl rfl, hphases⟩
  · cases h

end Norns.Coordinator.Database
