import Norns.Coordinator.Effects

/-! # What a step does to a run and to its task

`Follows s s'`: the run stays an attempt of its task, designated or superseded as before, the task
keeps its designated run, a terminal state stays, and a run that holds no capacity gets none. Every
branch of the event path, of the dispatcher and of the sweeps does that (`Scope.Follows.bind` puts
them together); a continuation takes capacity again. `Writes` lists what a step writes to the two
tables, and `perform_writes` says that this is all. -/

namespace Norns.Coordinator

open Norns.Lib Norns.Lib.Transaction Norns.Contracts.Protocol Norns.Contracts.V2Lifecycle

namespace Scope

variable {s s' s'' : Scope} {here : Elsewhere}

structure Follows (s s' : Scope) : Prop where
  project_id : s'.run.project_id = s.run.project_id
  phase_id : s'.run.phase_id = s.run.phase_id
  task_id : s'.run.task_id = s.run.task_id
  assignment_id : s'.run.assignment_id = s.run.assignment_id
  attempt : s'.run.attempt = s.run.attempt
  is_designated : s'.run.is_designated = s.run.is_designated
  superseded_at : s'.run.superseded_at = s.run.superseded_at
  terminal : s.run.state.isTerminal = true → s'.run.state = s.run.state
  occupying : isOccupying s'.run = true → isOccupying s.run = true
  task : s'.task = { s.task with state := s'.task.state }

theorem Follows.refl (s : Scope) : Follows s s :=
  ⟨rfl, rfl, rfl, rfl, rfl, rfl, rfl, fun _ => rfl, id, rfl⟩

theorem Follows.trans (h : Follows s s') (h' : Follows s' s'') : Follows s s'' where
  project_id := h'.project_id.trans h.project_id
  phase_id := h'.phase_id.trans h.phase_id
  task_id := h'.task_id.trans h.task_id
  assignment_id := h'.assignment_id.trans h.assignment_id
  attempt := h'.attempt.trans h.attempt
  is_designated := h'.is_designated.trans h.is_designated
  superseded_at := h'.superseded_at.trans h.superseded_at
  terminal := fun hs => (h'.terminal (by rw [h.terminal hs]; exact hs)).trans (h.terminal hs)
  occupying := h.occupying ∘ h'.occupying
  task := by rw [h'.task, h.task]

/-- Sequencing. -/
theorem Follows.bind {x : Except Abort Scope} {f : Scope → Except Abort Scope}
    (hx : Ensures x (Follows s)) (hf : ∀ s₁, Ensures (f s₁) (Follows s₁)) :
    Ensures (x >>= f) (Follows s) :=
  Ensures.bind hx fun s₁ h₁ => (hf s₁).mono fun _ h₂ => h₁.trans h₂

theorem Follows.pure (h : Follows s s') : Ensures (Pure.pure s' : Except Abort Scope) (Follows s) :=
  ensures_pure.mpr h

/-- A step that is taken under a condition. -/
theorem Follows.when {p : Prop} [Decidable p] {x : Except Abort Scope}
    (hx : Ensures x (Follows s)) :
    Ensures (if p then x else Pure.pure s) (Follows s) :=
  Ensures.ite (fun _ => hx) fun _ => (Follows.refl s).pure

theorem Follows.refuse {p : Prop} [Decidable p] {e : Abort} {f : Unit → Except Abort Scope}
    (hf : Ensures (f ()) (Follows s)) : Ensures (Transaction.refuse p e >>= f) (Follows s) := by
  intro s' h
  exact hf s' (refuse_bind_ok.mp h).2

/-! ### The transitions -/

theorem edge_occupying {source target : V2AgentRunState} (h : v2CanAgentRunTransition source target)
    (hnew : target = .dispatched → source = .created)
    (htarget : [V2AgentRunState.created, .dispatched, .running, .verifying].contains target) :
    [V2AgentRunState.created, .dispatched, .running, .verifying].contains source := by
  revert h hnew htarget
  cases source <;> cases target <;> decide

theorem follows_transitionRun {target : V2AgentRunState} (occurred_at : ℕ)
    (hnew : target = .dispatched → s.run.state = .created) :
    Ensures (s.transitionRun target occurred_at) (Follows s) := by
  intro s' h
  unfold transitionRun at h
  split at h
  · rename_i hedge
    cases h
    refine ⟨rfl, rfl, rfl, rfl, rfl, rfl, rfl, fun hs => ?_, edge_occupying hedge hnew, rfl⟩
    rw [terminal_no_edge hs] at hedge
    cases hedge
  · cases h

theorem follows_transitionTask (target : V2TaskState) :
    Ensures (s.transitionTask target) (Follows s) := by
  intro s' h
  unfold transitionTask at h
  split at h
  · cases h
    exact ⟨rfl, rfl, rfl, rfl, rfl, rfl, rfl, fun _ => rfl, id, rfl⟩
  · cases h

/-! ### The event path -/

theorem follows_started (occurred_at : ℕ) : Ensures (s.started occurred_at) (Follows s) := by
  refine Follows.bind (Follows.when (follows_transitionRun _ (by simp))) fun s₁ => ?_
  exact Follows.when (follows_transitionTask _)

theorem follows_verificationResult (commit_sha : String) (passed : Bool) (occurred_at : ℕ) :
    Ensures (s.verificationResult commit_sha passed occurred_at) (Follows s) := by
  refine Follows.bind (Follows.when (follows_transitionRun _ (by simp))) fun s₁ => ?_
  refine Follows.bind (Follows.when (follows_transitionTask _)) fun s₂ => ?_
  exact Follows.pure ⟨rfl, rfl, rfl, rfl, rfl, rfl, rfl, fun _ => rfl, id, rfl⟩

theorem follows_openHumanWait (evidence : Bool) (occurred_at : ℕ) :
    Ensures (s.openHumanWait evidence occurred_at) (Follows s) := by
  refine Follows.refuse (Follows.refuse ?_)
  exact Follows.bind (follows_transitionRun _ (by simp)) fun s₁ => follows_transitionTask _

theorem follows_applyContinuationContext (receipt : Bool) :
    Ensures (s.applyContinuationContext receipt) (Follows s) :=
  Follows.refuse (Follows.refuse (Follows.refl s).pure)

theorem follows_reviewReady (gates : Bool) : Ensures (s.reviewReady gates) (Follows s) := by
  refine Follows.bind (Follows.when (follows_transitionTask _)) fun s₁ => ?_
  exact Follows.when (Follows.refuse (follows_transitionTask _))

/-- The finish time, and the failure record, are none of what is kept. -/
theorem follows_record (failure_code failure_detail : Option String) (finished_at : Option ℕ) :
    Follows s { s with run := { s.run with failure_code, failure_detail, finished_at } } :=
  ⟨rfl, rfl, rfl, rfl, rfl, rfl, rfl, fun _ => rfl, id, rfl⟩

theorem follows_completed (gates : Bool) (occurred_at : ℕ) :
    Ensures (s.completed gates occurred_at) (Follows s) := by
  refine Follows.refuse ?_
  refine Follows.bind (Follows.when (follows_transitionRun _ (by simp))) fun s₁ => ?_
  refine Follows.bind (follows_reviewReady gates) fun s₂ => ?_
  exact Follows.pure (follows_record ..)

theorem follows_failTask : Ensures s.failTask (Follows s) :=
  Follows.bind (Follows.when (follows_transitionTask _)) fun _ => follows_transitionTask _

theorem failed_ne_dispatched (cancelled : Bool) :
    (if cancelled then V2AgentRunState.cancelled else .failed) ≠ .dispatched := by
  split <;> simp

theorem follows_ended (cancelled : Bool) (failure : Option RunFailure) (occurred_at : ℕ) :
    Ensures (s.ended cancelled failure occurred_at) (Follows s) := by
  refine Follows.bind (Ensures.ite (fun _ => (Follows.refl s).pure) fun _ =>
    follows_transitionRun _ fun h => absurd h (failed_ne_dispatched cancelled)) fun s₁ => ?_
  refine Follows.bind ?_ fun s₂ => Follows.pure (follows_record ..)
  refine Ensures.ite (fun _ => (Follows.refl s₁).pure) fun _ => ?_
  exact Ensures.ite (fun _ => follows_transitionTask _) fun _ => Follows.when follows_failTask

theorem follows_applyQueuedPauseAtTerminal (occurred_at : ℕ) :
    Ensures (s.applyQueuedPauseAtTerminal here occurred_at) fun r => Follows s r.2 := by
  refine Ensures.ite (fun _ => ?_) fun _ => ensures_pure.mpr (Follows.refl s)
  refine Ensures.bind (follows_transitionRun occurred_at (by simp)) fun s₁ h₁ => ?_
  refine Ensures.bind (follows_transitionTask .blocked) fun s₂ h₂ => ?_
  intro r h
  cases (refuse_bind_ok.mp h).2
  exact h₁.trans h₂

theorem follows_applyDeferredTerminalStatus (status : RunStatus) (failure : Option RunFailure)
    (gates : Bool) (occurred_at : ℕ) :
    Ensures (s.applyDeferredTerminalStatus status failure gates occurred_at)
      fun r => Follows s r.2 := by
  refine Ensures.ite (fun _ => ensures_pure.mpr (Follows.refl s)) fun _ => ?_
  refine Ensures.ite (fun _ => ?_) fun _ => ?_
  · refine Ensures.ite (fun _ => ensures_pure.mpr (Follows.refl s)) fun _ => ?_
    refine Ensures.bind (follows_transitionRun occurred_at (by simp)) fun s₁ h₁ => ?_
    refine Ensures.bind (follows_reviewReady gates) fun s₂ h₂ => ?_
    exact ensures_pure.mpr ((h₁.trans h₂).trans (follows_record ..))
  · refine Ensures.bind (follows_transitionRun occurred_at
      fun h => absurd h (failed_ne_dispatched _)) fun s₁ h₁ => ?_
    have hend : Ensures (if decide (status = .cancelled) = true then s₁.transitionTask .cancelled
        else if s₁.task.state ≠ .failed then s₁.failTask else pure s₁) (Follows s₁) :=
      Ensures.ite (fun _ => follows_transitionTask _) fun _ => Follows.when follows_failTask
    exact Ensures.bind hend fun s₂ h₂ => ensures_pure.mpr ((h₁.trans h₂).trans (follows_record ..))

theorem follows_applyReport (report : Option RunnerEvent) (gates : Bool) :
    Ensures (s.applyReport report gates) fun r => Follows s r.2 := by
  unfold applyReport
  split
  · exact follows_applyDeferredTerminalStatus _ _ gates _
  · exact ensures_pure.mpr (Follows.refl s)

theorem endTarget_ne_dispatched (state : EndState) : s.endTarget state ≠ .dispatched := by
  unfold endTarget
  split
  · simp
  · split <;> simp

theorem follows_endRun (state : EndState) (detail : String) (occurred_at : ℕ) :
    Ensures (s.endRun state detail occurred_at) (Follows s) := by
  refine Ensures.ite (fun _ => (Follows.refl s).pure) fun _ => ?_
  refine Follows.bind (follows_transitionRun occurred_at
    fun h => absurd h (endTarget_ne_dispatched state)) fun s₁ => ?_
  exact Follows.pure (follows_record ..)

theorem follows_endedByCommand (state : EndState) (detail : String) (occurred_at : ℕ) :
    Ensures (s.endedByCommand state detail occurred_at) (Follows s) := by
  refine Follows.bind (follows_endRun state detail occurred_at) fun s₁ => ?_
  exact Ensures.ite (fun _ => (Follows.refl s₁).pure) fun _ => follows_transitionTask _

theorem follows_endCommand (report : Option RunnerEvent) (state : CommandState) (detail : String)
    (occurred_at : ℕ) :
    Ensures (s.endCommand report state detail here occurred_at) fun r => Follows s r.2 := by
  refine Ensures.bind (follows_applyQueuedPauseAtTerminal occurred_at) fun r₁ h₁ => ?_
  refine Ensures.ite (fun _ => ensures_pure.mpr h₁) fun _ => ?_
  refine Ensures.bind (follows_applyReport report here.quickCompletion) fun r₂ h₂ => ?_
  refine Ensures.ite (fun _ => ensures_pure.mpr (h₁.trans h₂)) fun _ => ?_
  split
  · intro r h
    obtain ⟨s', hs', rfl⟩ := map_eq_ok.mp h
    exact (h₁.trans h₂).trans (follows_endedByCommand _ _ _ s' hs')
  · exact ensures_pure.mpr (h₁.trans h₂)

theorem follows_reportOnScope (event : RunnerEvent) :
    Ensures (Database.reportOnScope s event here) fun r => Follows s r.1 := by
  have hpair : ∀ {x : Except Abort Scope} {terminal : Option Terminal}, Ensures x (Follows s) →
      Ensures ((·, terminal) <$> x) fun r => Follows s r.1 := by
    rintro x terminal hx r h
    obtain ⟨s', hs', rfl⟩ := map_eq_ok.mp h
    exact hx s' hs'
  have hguard : ∀ {x : Except Abort Scope} {p : Prop} [Decidable p] {e : Abort},
      Ensures x (Follows s) → Ensures (do
        let s ← x
        Transaction.refuse p e
        Pure.pure (s, none)) fun r : Scope × Option Terminal => Follows s r.1 := by
    intro x p _ e hx
    refine Ensures.bind hx fun s₁ h₁ => ?_
    intro r h
    cases (refuse_bind_ok.mp h).2
    exact h₁
  unfold Database.reportOnScope
  split
  · exact fun r h => by cases (refuse_bind_ok.mp h).2; exact .refl s
  · exact hguard (follows_started _)
  · exact fun r h => by cases (refuse_bind_ok.mp h).2; exact .refl s
  · exact fun r h => by cases (refuse_bind_ok.mp h).2; exact .refl s
  · exact hpair (follows_openHumanWait _ _)
  · exact hguard (follows_applyContinuationContext _)
  · exact hpair (follows_verificationResult _ _ _)
  · exact Ensures.ite (fun _ => ensures_pure.mpr (Follows.refl s)) fun _ =>
      hpair (follows_completed _ _)
  · exact Ensures.ite (fun _ => ensures_pure.mpr (Follows.refl s)) fun _ =>
      hpair (follows_ended _ _ _)
  · exact Ensures.ite (fun _ => ensures_pure.mpr (Follows.refl s)) fun _ =>
      hpair (follows_ended _ _ _)
  · exact ensures_pure.mpr (Follows.refl s)

/-! ### The other steps -/

theorem follows_giveUp (occurred_at : ℕ) :
    Ensures (Database.giveUp s occurred_at) (Follows s) := by
  refine Follows.bind (Follows.when (follows_transitionRun _ (by simp))) fun s₁ => ?_
  exact Ensures.ite (fun _ => (Follows.refl s₁).pure) fun _ => follows_transitionTask _

theorem follows_expireWaiting (occurred_at : ℕ) :
    Ensures (Database.expireWaiting s occurred_at) (Follows s) := by
  refine Ensures.ite (fun _ => (Follows.refl s).pure) fun _ => ?_
  refine Follows.bind (follows_transitionRun _ (by simp)) fun s₁ => ?_
  exact Follows.when (follows_transitionTask _)

theorem follows_expireDispatched (occurred_at : ℕ) :
    Ensures (Database.expireDispatched s occurred_at) (Follows s) := by
  refine Ensures.ite (fun _ => (Follows.refl s).pure) fun _ => ?_
  refine Follows.bind (follows_transitionRun _ (by simp)) fun s₁ => ?_
  exact Follows.when (follows_transitionTask _)

theorem follows_readyTask : Ensures (Database.readyTask s) (Follows s) := by
  refine Follows.bind (Follows.when (follows_transitionTask _)) fun s₁ => ?_
  refine Follows.bind (Follows.when (follows_transitionTask _)) fun s₂ => ?_
  exact Follows.when (follows_transitionTask _)

theorem follows_assignTask (replacement : Bool) :
    Ensures (Database.assignTask s replacement) (Follows s) := by
  refine Follows.bind (Follows.when (follows_transitionTask _)) fun s₁ => ?_
  refine Ensures.ite (fun _ => follows_transitionTask _) fun _ => ?_
  exact Follows.when (follows_transitionTask _)

end Scope

namespace Database

variable {db db' : Database} {run_id : String} {s : Scope}

/-! ### What was found -/

theorem scope?_some (h : db.scope? run_id = some s) :
    db.agent_runs.get? run_id = some s.run ∧ db.tasks.get? s.run.task_id = some s.task := by
  unfold scope? at h
  obtain ⟨run, hrun, h⟩ := Option.bind_eq_some_iff.mp h
  obtain ⟨task, htask, h⟩ := Option.bind_eq_some_iff.mp h
  obtain ⟨assignment, -, h⟩ := Option.bind_eq_some_iff.mp h
  obtain ⟨phase, -, rfl⟩ := Option.map_eq_some_iff.mp h
  exact ⟨hrun, htask⟩

/-- A run after another one was superseded. -/
theorem supersede_get? {prior : Option String} {at_ : ℕ} {run : AgentRunRow}
    (h : (db.supersede prior at_).agent_runs.get? run_id = some run) :
    (prior ≠ some run_id ∧ db.agent_runs.get? run_id = some run) ∨
      (prior = some run_id ∧ ∃ old, db.agent_runs.get? run_id = some old ∧
        run = { old with is_designated := false, superseded_at := some at_ }) := by
  unfold supersede at h
  split at h
  · exact .inl ⟨by simp, h⟩
  · rename_i id
    split at h
    · rename_i hnone
      refine .inl ⟨fun hid => ?_, h⟩
      cases hid
      rw [hnone] at h
      cases h
    · rename_i old hold
      by_cases hid : id = run_id
      · subst hid
        rw [OrdMap.get?_set_self] at h
        cases h
        exact .inr ⟨rfl, old, hold, rfl⟩
      · rw [OrdMap.get?_set_ne _ _ hid] at h
        exact .inl ⟨fun h' => hid (Option.some.inj h'), h⟩

/-- Only a finished attempt of the task is replaced. -/
theorem Admitted.prior_spec {row : SchedulingRow} {input : ScheduleInput} {prior : AgentRunRow}
    (h : Admitted db row input) (hid : input.supersedes_run_id = some run_id)
    (hprior : db.agent_runs.get? run_id = some prior) :
    prior.state.isTerminal = true ∧ prior.task_id = input.task_id := by
  have hgate := refuse_eq_ok.mp h.prior
  rw [hid] at hgate
  have hrep : db.replaceable row input run_id = true := by simpa using hgate
  unfold replaceable at hrep
  rw [hprior, Option.any_eq_true] at hrep
  obtain ⟨run, hrun, hstate⟩ := hrep
  obtain ⟨heq, hfilter⟩ := Option.filter_eq_some_iff.mp hrun
  cases heq
  simp only [Bool.and_eq_true, Bool.or_eq_true, decide_eq_true_eq] at hfilter hstate
  refine ⟨?_, hfilter.1.1⟩
  rcases hstate with ⟨hs, -⟩ | ⟨hs, -⟩
  · rw [hs]
    rfl
  · revert hs
    cases prior.state <;> decide

/-! ### What a step writes -/

/-- The rows of a resumed run. -/
def resumed (s : Scope) (input : ProvisionInput) : Scope :=
  ⟨{ s.run with runner_id := input.runner_id, state := .dispatched },
    { s.task with state := .assigned }, s.quick⟩

/-- What a step writes to the runs and to the tasks. -/
inductive Writes (db : Database) :
    OrdMap String AgentRunRow → OrdMap String TaskRow → Prop
  | same : Writes db db.agent_runs db.tasks
  | followed (run_id : String) (s s' : Scope) : db.scope? run_id = some s → s.Follows s' →
      Writes db (db.agent_runs.set run_id s'.run) (db.tasks.set s'.run.task_id s'.task)
  | resumed (input : ProvisionInput) (s : Scope) : db.scope? input.run_id = some s →
      s.run.state = .waiting_for_human →
      Writes db (db.agent_runs.set input.run_id (resumed s input).run)
        (db.tasks.set (resumed s input).run.task_id (resumed s input).task)
  | scheduled (input : ScheduleInput) (row : SchedulingRow) (run_id : String) (s : Scope) :
      Admitted db row input →
      (db.supersede input.supersedes_run_id input.issued_at).hasDesignated input.task_id = false →
      (db.supersede input.supersedes_run_id input.issued_at).agent_runs.get? run_id = none →
      assignTask ⟨newRun input (db.nextAttempt input.task_id), assignedTask row input run_id, false⟩
        input.supersedes_run_id.isSome = .ok s →
      Writes db ((db.supersede input.supersedes_run_id input.issued_at).agent_runs.set run_id
          (newRun input (db.nextAttempt input.task_id)))
        (db.tasks.set input.task_id s.task)

/-- A step that only touches other tables. -/
theorem writes_same (hruns : db'.agent_runs = db.agent_runs) (htasks : db'.tasks = db.tasks) :
    Writes db db'.agent_runs db'.tasks := by
  rw [hruns, htasks]
  exact .same

theorem apply_writes {event : RunnerEvent} {here : Elsewhere} :
    Ensures (db.apply event here) fun r => Writes db r.2.agent_runs r.2.tasks := by
  rintro ⟨reply, db'⟩ h
  cases apply_ok h with
  | duplicate _ => exact .same
  | ignored _ => exact .same
  | quiet _ => exact .same
  | ack id state detail row _ _ _ _ hack =>
    obtain ⟨-, ⟨rfl, -⟩ | ⟨terminal, mid, -, -, hend, rfl⟩⟩ := applyCommandAck_ok hack
    · exact writes_same (acknowledge_agent_runs id state) (acknowledge_tasks id state)
    · obtain ⟨budget, -, ⟨-, rfl⟩ | ⟨s, s', settles, hs, hmove, rfl⟩⟩ := endCommand_ok hend
      · exact writes_same (acknowledge_agent_runs id state) (acknowledge_tasks id state)
      · show Writes db ((db.acknowledge id state).agent_runs.set _ _)
          ((db.acknowledge id state).tasks.set _ _)
        rw [acknowledge_agent_runs, acknowledge_tasks]
        rw [acknowledge_scope?] at hs
        exact .followed row.run_id s s' hs (Scope.follows_endCommand _ _ _ _ _ hmove)
  | report run_id s _ _ _ hs hreport =>
    obtain ⟨-, -, s', terminal, budget, hmove, -, rfl⟩ := applyRunEvent_ok hreport
    exact .followed run_id s s' hs (Scope.follows_reportOnScope event _ hmove)

theorem dispatchCommand_eq (db : Database) (id : String) :
    ∃ commands, db.dispatchCommand id = { db with commands } := by
  unfold dispatchCommand
  split
  · exact ⟨_, rfl⟩
  · split
    · exact setCommandStatus_eq ..
    · exact ⟨_, rfl⟩

theorem markDelivered_writes {job_id owner : String} {allow receipts : Bool} {at_ : ℕ} :
    Ensures (db.markDelivered job_id owner allow receipts at_) fun db' =>
      Writes db db'.agent_runs db'.tasks := by
  intro db' h
  unfold markDelivered at h
  split at h
  · cases h
  rename_i job hjob
  split at h
  · obtain ⟨-, h⟩ := refuse_bind_ok.mp h
    obtain ⟨commands, hcommands⟩ := dispatchCommand_eq (db.setJob job_id { job with
      status := .delivered, lease_owner := none, lease_expires_at := none }) job.command_id
    dsimp only at h
    rw [hcommands] at h
    split at h
    · cases h
      exact .same
    · rename_i s hs
      split at h
      · rename_i hcreated
        obtain ⟨s', hs', rfl⟩ := map_eq_ok.mp h
        exact .followed job.run_id s s' hs
          (Scope.follows_transitionRun at_ (fun _ => hcreated) s' hs')
      · cases h
        exact .same
  · cases h

theorem deadLetter_writes {job_id owner : String} {at_ cost : ℕ} :
    Ensures (db.deadLetter job_id owner at_ cost) fun db' =>
      Writes db db'.agent_runs db'.tasks := by
  intro db' h
  unfold deadLetter at h
  split at h
  · cases h
  rename_i job hjob
  split at h
  · obtain ⟨mid, hmid, h⟩ := bind_eq_ok.mp h
    obtain ⟨budget, -, rfl⟩ := resolveActive_ok h
    obtain ⟨commands, hcommands⟩ := setCommandStatus_eq (db.setJob job_id { job with
      status := .dead_letter, lease_owner := none, lease_expires_at := none }) job.command_id
      (.state .failed)
    rw [hcommands] at hmid
    split at hmid
    · cases hmid
      exact .same
    · rename_i s hs
      obtain ⟨s', hs', rfl⟩ := map_eq_ok.mp hmid
      exact .followed job.run_id s s' hs (Scope.follows_giveUp at_ s' hs')
  · split at h
    · cases h
      exact .same
    · cases h

theorem onlyDispatch_writes (h : OnlyDispatch db db') : Writes db db'.agent_runs db'.tasks := by
  obtain ⟨jobs, commands, rfl⟩ := h
  exact .same

theorem deliver_writes {job_id owner : String} {authorized sent allow receipts : Bool} {at_ : ℕ} :
    Ensures (db.deliver job_id owner authorized sent allow receipts at_) fun db' =>
      Writes db db'.agent_runs db'.tasks := by
  intro db' h
  unfold deliver at h
  split at h
  · cases h
  · split at h
    · split at h
      · exact markDelivered_writes db' h
      · cases h
    · cases h
      exact onlyDispatch_writes (onlyDispatch_cancelStaleCommand ..)

theorem sweep_writes {expire : Scope → Except Abort Scope} {run_id : String}
    (hexpire : ∀ s, Ensures (expire s) (Scope.Follows s)) :
    Ensures (db.sweep expire run_id) fun db' => Writes db db'.agent_runs db'.tasks := by
  intro db' h
  obtain rfl | ⟨s, s', hs, hs', rfl⟩ := sweep_ok h
  · exact .same
  · exact .followed run_id s s' hs (hexpire s s' hs')

/-- **What a step writes.** -/
theorem perform_writes (op : Op) :
    Ensures (db.perform op) fun db' => Writes db db'.agent_runs db'.tasks := by
  intro db' h
  rcases op with ⟨event, here⟩ | ⟨job_id, owner, now, leaseMs, authorized⟩ |
    ⟨job_id, owner, authorized, sent, allow, receipts, at_⟩ | ⟨job_id, owner, available_at⟩ |
    ⟨job_id, owner, at_, cost⟩ | ⟨input, gates⟩ | input | ⟨input, gates⟩ | ⟨run_id, at_⟩ |
    ⟨run_id, at_⟩ | ⟨run_id, clear, cost⟩
  · obtain ⟨⟨reply, db''⟩, happly, rfl⟩ := map_eq_ok.mp h
    exact apply_writes (reply, db'') happly
  · cases h
    exact onlyDispatch_writes (onlyDispatch_claim ..)
  · exact deliver_writes db' h
  · obtain ⟨jobs, rfl⟩ := retryJob_ok h
    exact .same
  · exact deadLetter_writes db' h
  · obtain ⟨row, hadmitted, hinsert⟩ := schedule_ok h
    obtain ⟨s, commands, jobs, hone, hnew, hs, -, -, -, rfl⟩ := insertAttempt_ok hinsert
    exact .scheduled input row _ s hadmitted hone hnew hs
  · obtain ⟨s, s', assignments, phases, hs, hs', rfl⟩ := prepareRetry_ok h
    exact .followed input.failed_run_id s s' hs (Scope.follows_readyTask s' hs')
  · obtain rfl | ⟨s, s', jobs, hs, hwaiting, -, -, rfl, rfl⟩ := provision_ok h
    · exact .same
    · exact .resumed input s hs hwaiting
  · exact sweep_writes (fun s => Scope.follows_expireWaiting at_) db' h
  · exact sweep_writes (fun s => Scope.follows_expireDispatched at_) db' h
  · obtain rfl | ⟨s, s', budget, phases, hs, -, rfl, -, rfl⟩ := complete_ok h
    · exact .same
    · exact .followed run_id s _ hs ⟨rfl, rfl, rfl, rfl, rfl, rfl, rfl, fun _ => rfl, id, rfl⟩

end Database

end Norns.Coordinator
