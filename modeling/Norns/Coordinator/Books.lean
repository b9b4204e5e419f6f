import Norns.Coordinator.Attempts

/-! # What every step keeps

A step that is no scheduling of an attempt keeps the runs, resolves at most one active reservation,
lowers no budget of a phase and loses no event (`Kept`); a scheduling adds one run, with its
reservation, which the gates have admitted (`Scheduled`).

* `perform_books`: every transaction is one or the other. -/

namespace Norns.Coordinator.Database

open Norns.Lib Norns.Lib.Run Norns.Lib.Transaction Norns.Contracts.Protocol
  Norns.Contracts.V2Lifecycle

/-! ### Tables that only grow -/

/-- The runs are the same, and each is the same attempt as before. -/
structure SameRuns (runs runs' : OrdMap String AgentRunRow) : Prop where
  back : ∀ id run', runs'.get? id = some run' → ∃ run, runs.get? id = some run ∧
    run'.task_id = run.task_id ∧ run'.phase_id = run.phase_id ∧ run'.attempt = run.attempt
  kept : ∀ id run, runs.get? id = some run → ∃ run', runs'.get? id = some run'

/-- No phase loses budget. -/
def Widens (phases phases' : OrdMap String PhaseRow) : Prop :=
  ∀ id phase', phases'.get? id = some phase' → ∃ phase, phases.get? id = some phase ∧
    phase.approved_budget_usd ≤ phase'.approved_budget_usd

/-- No event is lost. -/
def KeepsEvents (events events' : OrdMap (String × ℕ × ℕ) RunnerEventRow) : Prop :=
  ∀ key, events.has key = true → events'.has key = true

/-- The runs after a step that schedules no attempt. -/
inductive Followed (db : Database) (op : Op) : OrdMap String AgentRunRow → Prop
  | same : Followed db op db.agent_runs
  | moved (run_id : String) (s s' : Scope) (found : db.scope? run_id = some s)
      (follows : s.Follows s') : Followed db op (db.agent_runs.set run_id s'.run)
  /-- A wait is answered. -/
  | resumed (input : ProvisionInput) (gates : Bool) (s : Scope) (provision : op = .provision input gates)
      (found : db.scope? input.run_id = some s) :
      Followed db op (db.agent_runs.set input.run_id (resumed s input).run)

/-- What a step keeps that schedules no attempt. -/
structure Kept (db : Database) (op : Op) (db' : Database) : Prop where
  runs : Followed db op db'.agent_runs
  reservations : Resolves db.budget_reservations db'.budget_reservations
  phases : Widens db.phases db'.phases
  events : KeepsEvents db.runner_events db'.runner_events
  projects : db'.projects = db.projects

/-- A new attempt. -/
structure Scheduled (db : Database) (input : ScheduleInput) (db' : Database) : Prop where
  admitted : ∃ row, Admitted db row input ∧
    db'.budget_reservations =
      db.budget_reservations.set (reservationId (runIdentity input.task_id (db.nextAttempt input.task_id)))
        (newReservation row input (runIdentity input.task_id (db.nextAttempt input.task_id))) ∧
    db'.phases = db.phases.set input.phase_id { row.phase with status := .active }
  fresh : db.budget_reservations.get?
    (reservationId (runIdentity input.task_id (db.nextAttempt input.task_id))) = none
  new : (db.supersede input.supersedes_run_id input.issued_at).agent_runs.get?
    (runIdentity input.task_id (db.nextAttempt input.task_id)) = none
  runs : db'.agent_runs = (db.supersede input.supersedes_run_id input.issued_at).agent_runs.set
    (runIdentity input.task_id (db.nextAttempt input.task_id))
    (newRun input (db.nextAttempt input.task_id))
  events : db'.runner_events = db.runner_events
  projects : db'.projects = db.projects

section

variable {runs : OrdMap String AgentRunRow} {phases : OrdMap String PhaseRow} {db db' : Database}
  {op : Op} {run_id : String} {s s' : Scope} {here : Elsewhere} {event : RunnerEvent}

theorem SameRuns.refl (runs : OrdMap String AgentRunRow) : SameRuns runs runs where
  back _ run' h := ⟨run', h, rfl, rfl, rfl⟩
  kept _ run h := ⟨run, h⟩

theorem sameRuns_set {run run' : AgentRunRow} (h : runs.get? run_id = some run)
    (htask : run'.task_id = run.task_id) (hphase : run'.phase_id = run.phase_id)
    (hattempt : run'.attempt = run.attempt) : SameRuns runs (runs.set run_id run') where
  back id other hother := by
    rw [OrdMap.get?_set] at hother
    split at hother
    case isTrue hid =>
      cases hother
      subst hid
      exact ⟨run, h, htask, hphase, hattempt⟩
    case isFalse => exact ⟨other, hother, rfl, rfl, rfl⟩
  kept id other hother := by
    rw [OrdMap.get?_set]
    split
    case isTrue => exact ⟨run', rfl⟩
    case isFalse => exact ⟨other, hother⟩

theorem Followed.sameRuns (h : Followed db op runs) : SameRuns db.agent_runs runs := by
  cases h with
  | same => exact .refl _
  | moved run_id s s' found follows =>
    exact sameRuns_set (scope?_some found).1 follows.task_id follows.phase_id follows.attempt
  | resumed input gates s provision found => exact sameRuns_set (scope?_some found).1 rfl rfl rfl

theorem sameRuns_supersede (prior_id : Option String) (at_ : ℕ) :
    SameRuns db.agent_runs (db.supersede prior_id at_).agent_runs := by
  unfold supersede
  split
  · exact .refl _
  · split
    · exact .refl _
    · rename_i hrun
      exact sameRuns_set hrun rfl rfl rfl

theorem Widens.refl (phases : OrdMap String PhaseRow) : Widens phases phases :=
  fun _ phase h => ⟨phase, h, le_rfl⟩

theorem Widens.set {id : String} {phase phase' : PhaseRow} (h : phases.get? id = some phase)
    (hle : phase.approved_budget_usd ≤ phase'.approved_budget_usd) :
    Widens phases (phases.set id phase') := by
  intro id' other hother
  rw [OrdMap.get?_set] at hother
  split at hother
  case isTrue hid =>
    cases hother
    subst hid
    exact ⟨phase, h, hle⟩
  case isFalse => exact ⟨other, hother, le_rfl⟩

theorem Widens.trans {phases' phases'' : OrdMap String PhaseRow} (h : Widens phases phases')
    (h' : Widens phases' phases'') : Widens phases phases'' := by
  intro id phase'' hphase
  obtain ⟨phase', hphase', hle'⟩ := h' id phase'' hphase
  obtain ⟨phase, hphase, hle⟩ := h id phase' hphase'
  exact ⟨phase, hphase, hle.trans hle'⟩

theorem KeepsEvents.refl (events : OrdMap (String × ℕ × ℕ) RunnerEventRow) :
    KeepsEvents events events := fun _ h => h

theorem keepsEvents_set (events : OrdMap (String × ℕ × ℕ) RunnerEventRow) (key : String × ℕ × ℕ)
    (row : RunnerEventRow) : KeepsEvents events (events.set key row) := by
  intro key' h
  rw [OrdMap.has_iff] at h ⊢
  exact OrdMap.mem_keys_set.mpr (.inr h)

/-! ### Events -/

theorem acknowledge_kept (id : String) (state : CommandState) :
    (db.acknowledge id state).budget_reservations = db.budget_reservations ∧
      (db.acknowledge id state).phases = db.phases ∧
      (db.acknowledge id state).runner_events = db.runner_events ∧
      (db.acknowledge id state).projects = db.projects := by
  unfold acknowledge setCommandStatus completeJob
  split <;> split <;> exact ⟨rfl, rfl, rfl, rfl⟩

theorem apply_kept : Ensures (db.apply event here) fun r => Kept db op r.2 := by
  rintro ⟨reply, db'⟩ h
  have hsame : Kept db op db := ⟨.same, .inl rfl, .refl _, .refl _, rfl⟩
  cases apply_ok h with
  | duplicate _ => exact hsame
  | ignored _ => exact hsame
  | quiet _ => exact ⟨.same, .inl rfl, .refl _, keepsEvents_set _ _ _, rfl⟩
  | ack id state detail row _ _ _ _ hack =>
    obtain ⟨hreservations, hphases, hevents, hprojects⟩ := @acknowledge_kept db id state
    have hrecord : ∀ mid : Database, mid.runner_events = db.runner_events →
        KeepsEvents db.runner_events (mid.record event (some row.run_id)).runner_events := by
      intro mid hmid
      rw [← hmid]
      exact keepsEvents_set _ _ _
    obtain ⟨-, ⟨rfl, -⟩ | ⟨terminal, mid, -, -, hend, rfl⟩⟩ := applyCommandAck_ok hack
    · refine ⟨?_, .inl hreservations, hphases ▸ .refl _, hrecord _ hevents, hprojects⟩
      change Followed db op (db.acknowledge id state).agent_runs
      rw [acknowledge_agent_runs]
      exact .same
    · obtain ⟨budget, hbudget, ⟨-, rfl⟩ | ⟨s, s', settles, hs, hmove, rfl⟩⟩ := endCommand_ok hend
      · rw [hreservations] at hbudget
        refine ⟨?_, hbudget, hphases ▸ .refl _, hrecord _ hevents, hprojects⟩
        change Followed db op (db.acknowledge id state).agent_runs
        rw [acknowledge_agent_runs]
        exact .same
      · rw [hreservations] at hbudget
        rw [acknowledge_scope?] at hs
        refine ⟨?_, hbudget, hphases ▸ .refl _, hrecord _ hevents, hprojects⟩
        change Followed db op ((db.acknowledge id state).agent_runs.set _ _)
        rw [acknowledge_agent_runs]
        exact .moved row.run_id s s' hs (Scope.follows_endCommand _ _ _ _ _ hmove)
  | report run_id s _ _ _ hs hreport =>
    obtain ⟨-, -, s', terminal, budget, hmove, hbudget, rfl⟩ := applyRunEvent_ok hreport
    exact ⟨.moved run_id s s' hs (Scope.follows_reportOnScope event _ hmove), hbudget, .refl _,
      keepsEvents_set _ _ _, rfl⟩

/-! ### The dispatcher -/

theorem onlyDispatch_kept (h : OnlyDispatch db db') : Kept db op db' := by
  obtain ⟨jobs, commands, rfl⟩ := h
  exact ⟨.same, .inl rfl, .refl _, .refl _, rfl⟩

theorem markDelivered_kept {job_id owner : String} {allow receipts : Bool} {at_ : ℕ} :
    Ensures (db.markDelivered job_id owner allow receipts at_) (Kept db op) := by
  intro db' h
  unfold markDelivered at h
  split at h
  · cases h
  rename_i job hjob
  split at h
  · obtain ⟨-, h⟩ := refuse_bind_ok.mp h
    obtain ⟨commands, hcommands⟩ := dispatchCommand_eq (db.setJob job_id { job with
      status := .delivered, lease_owner := none, lease_expires_at := none }) job.command_id
    dsimp only at h
    rw [hcommands] at h
    split at h
    · cases h
      exact ⟨.same, .inl rfl, .refl _, .refl _, rfl⟩
    · rename_i s hs
      split at h
      · rename_i hcreated
        obtain ⟨s', hs', rfl⟩ := map_eq_ok.mp h
        have hfollows := Scope.follows_transitionRun at_ (fun _ => hcreated) s' hs'
        exact ⟨.moved job.run_id s s' hs hfollows, .inl rfl, .refl _, .refl _, rfl⟩
      · cases h
        exact ⟨.same, .inl rfl, .refl _, .refl _, rfl⟩
  · cases h

theorem deliver_kept {job_id owner : String} {authorized sent allow receipts : Bool} {at_ : ℕ} :
    Ensures (db.deliver job_id owner authorized sent allow receipts at_) (Kept db op) := by
  intro db' h
  unfold deliver at h
  split at h
  · cases h
  · split at h
    · split at h
      · exact markDelivered_kept db' h
      · cases h
    · cases h
      exact onlyDispatch_kept (onlyDispatch_cancelStaleCommand ..)

theorem deadLetter_kept {job_id owner : String} {at_ cost : ℕ} :
    Ensures (db.deadLetter job_id owner at_ cost) (Kept db op) := by
  intro db' h
  unfold deadLetter at h
  split at h
  · cases h
  rename_i job hjob
  split at h
  · obtain ⟨mid, hmid, h⟩ := bind_eq_ok.mp h
    obtain ⟨budget, hbudget, rfl⟩ := resolveActive_ok h
    obtain ⟨commands, hcommands⟩ := setCommandStatus_eq (db.setJob job_id { job with
      status := .dead_letter, lease_owner := none, lease_expires_at := none }) job.command_id
      (.state .failed)
    rw [hcommands] at hmid
    split at hmid
    · cases hmid
      exact ⟨.same, hbudget, .refl _, .refl _, rfl⟩
    · rename_i s hs
      obtain ⟨s', hs', rfl⟩ := map_eq_ok.mp hmid
      exact ⟨.moved job.run_id s s' hs (Scope.follows_giveUp at_ s' hs'), hbudget, .refl _, .refl _,
        rfl⟩
  · split at h
    · cases h
      exact ⟨.same, .inl rfl, .refl _, .refl _, rfl⟩
    · cases h

/-! ### The other transactions -/

theorem adjust_widens {task : TaskRow} {input : RetryInput} (h : db.adjust task input = .ok db') :
    Widens db.phases db'.phases := by
  unfold adjust at h
  split at h
  · cases h
    exact .refl _
  · split at h
    · cases h
    · obtain ⟨-, h⟩ := refuse_bind_ok.mp h
      obtain ⟨-, h⟩ := refuse_bind_ok.mp h
      cases h
      dsimp only
      split
      · exact .refl _
      · rename_i hphase
        exact .set hphase (le_max_left ..)

theorem prepareRetry_widens {input : RetryInput} (h : db.prepareRetry input = .ok db') :
    Widens db.phases db'.phases := by
  unfold prepareRetry at h
  split at h
  · cases h
  · rename_i s phase hs
    obtain ⟨s₀, hs₀, hphase⟩ := Option.bind_eq_some_iff.mp hs
    obtain ⟨phase', hphase', heq⟩ := Option.map_eq_some_iff.mp hphase
    cases heq
    obtain ⟨-, h⟩ := refuse_bind_ok.mp h
    obtain ⟨-, h⟩ := refuse_bind_ok.mp h
    obtain ⟨-, h⟩ := refuse_bind_ok.mp h
    obtain ⟨-, h⟩ := refuse_bind_ok.mp h
    obtain ⟨-, h⟩ := refuse_bind_ok.mp h
    obtain ⟨mid, hmid, h⟩ := bind_eq_ok.mp h
    obtain ⟨s', -, h⟩ := bind_eq_ok.mp h
    cases h
    have hstatus : ∀ status, Widens db.phases
        (db.phases.set s.task.phase_id { phase with status }) := fun status => .set hphase' le_rfl
    exact (hstatus _).trans (adjust_widens hmid)

theorem closePhase_widens (db : Database) (phase_id : String) :
    Widens db.phases (db.closePhase phase_id).phases := by
  unfold closePhase
  split
  · exact .refl _
  · split
    · exact .refl _
    · rename_i hphase
      exact .set hphase le_rfl

theorem complete_widens {clear : Bool} {cost : ℕ} (h : db.complete run_id clear cost = .ok db') :
    Widens db.phases db'.phases := by
  unfold complete at h
  split at h
  · rename_i s row hs hrow
    obtain ⟨-, h⟩ := refuse_bind_ok.mp h
    split at h
    · cases h
      exact .refl _
    · obtain ⟨-, h⟩ := refuse_bind_ok.mp h
      obtain ⟨-, h⟩ := refuse_bind_ok.mp h
      obtain ⟨s', hs', h⟩ := bind_eq_ok.mp h
      obtain ⟨mid, hmid, h⟩ := bind_eq_ok.mp h
      cases h
      have hphases : mid.phases = db.phases := by
        split at hmid
        · obtain ⟨resolution, -, rfl⟩ := map_eq_ok.mp hmid
          rfl
        · cases hmid
          rfl
      rw [← hphases]
      exact closePhase_widens mid s'.run.phase_id
  · cases h

theorem sweep_kept {expire : Scope → Except Abort Scope}
    (hexpire : ∀ s, Ensures (expire s) (Scope.Follows s)) :
    Ensures (db.sweep expire run_id) (Kept db op) := by
  intro db' h
  obtain rfl | ⟨s, s', hs, hs', rfl⟩ := sweep_ok h
  · exact ⟨.same, .inl rfl, .refl _, .refl _, rfl⟩
  · exact ⟨.moved run_id s s' hs (hexpire s s' hs'), .inl rfl, .refl _, .refl _, rfl⟩

theorem schedule_scheduled {input : ScheduleInput} {gates : Bool}
    (h : db.schedule input gates = .ok db') : Scheduled db input db' := by
  obtain ⟨row, hadmitted, hinsert⟩ := schedule_ok h
  obtain ⟨s, commands, jobs, -, hnew, -, hfresh, -, -, rfl⟩ := insertAttempt_ok hinsert
  exact ⟨⟨row, hadmitted, rfl, rfl⟩, hfresh, hnew, rfl, rfl, rfl⟩

/-- **Every transaction** schedules an attempt, or keeps what there is. -/
theorem perform_books (op : Op) : Ensures (db.perform op) fun db' =>
    (∃ input gates, op = .schedule input gates ∧ Scheduled db input db') ∨ Kept db op db' := by
  intro db' h
  have hsame : Kept db op db := ⟨.same, .inl rfl, .refl _, .refl _, rfl⟩
  cases op with
  | event event here =>
    obtain ⟨⟨reply, db''⟩, happly, rfl⟩ := map_eq_ok.mp h
    exact .inr (apply_kept (reply, db'') happly)
  | claim job_id owner now leaseMs authorized =>
    cases h
    exact .inr (onlyDispatch_kept (onlyDispatch_claim ..))
  | deliver job_id owner authorized sent allow receipts at_ => exact .inr (deliver_kept db' h)
  | retryJob job_id owner available_at =>
    obtain ⟨jobs, rfl⟩ := retryJob_ok h
    exact .inr ⟨.same, .inl rfl, .refl _, .refl _, rfl⟩
  | deadLetter job_id owner at_ cost => exact .inr (deadLetter_kept db' h)
  | schedule input gates => exact .inl ⟨input, gates, rfl, schedule_scheduled h⟩
  | prepareRetry input =>
    have hphases := prepareRetry_widens h
    obtain ⟨s, s', assignments, phases, hs, hs', rfl⟩ := prepareRetry_ok h
    exact .inr ⟨.moved input.failed_run_id s s' hs (Scope.follows_readyTask s' hs'), .inl rfl, hphases,
      .refl _, rfl⟩
  | provision input gates =>
    obtain rfl | ⟨s, s', jobs, hs, -, -, -, rfl, rfl⟩ := provision_ok h
    · exact .inr hsame
    · exact .inr ⟨.resumed input gates s rfl hs, .inl rfl, .refl _, .refl _, rfl⟩
  | expireWait run_id at_ => exact .inr (sweep_kept (fun s => Scope.follows_expireWaiting at_) db' h)
  | expireDispatch run_id at_ =>
    exact .inr (sweep_kept (fun s => Scope.follows_expireDispatched at_) db' h)
  | complete run_id clear cost =>
    have hphases := complete_widens h
    obtain rfl | ⟨s, s', budget, phases, hs, -, rfl, hbudget, rfl⟩ := complete_ok h
    · exact .inr hsame
    · have hfollows : s.Follows ⟨s.run, { s.task with state := .completed }, s.quick⟩ :=
        ⟨rfl, rfl, rfl, rfl, rfl, rfl, rfl, fun _ => rfl, id, rfl⟩
      exact .inr ⟨.moved run_id s _ hs hfollows, hbudget, hphases, .refl _, rfl⟩

end

end Norns.Coordinator.Database
