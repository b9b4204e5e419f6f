import Norns.Coordinator.Scopes

/-! # The attempts of a task

A task designates one attempt, and an attempt that is not finished is the designated one: a
replacement supersedes a finished attempt only, and the index of designated runs admits one for each
task (`openIsCurrent`). So whatever the event of an unfinished attempt moves is its own task. The
event path does not ask whether an attempt is finished, or current, before it moves the task;
`Timely` says which late reports are harmless, and `current_attempt_moves` that if all are, only
current attempts move their tasks and a finished attempt keeps its record. -/

namespace Norns.Coordinator.Attempts

open Norns.Lib Norns.Lib.Run Norns.Lib.Transaction Norns.Coordinator.Database
  Norns.Contracts.Protocol Norns.Contracts.V2Lifecycle

variable {db db' : Database} {event : RunnerEvent} {here : Elsewhere} {run_id : String}
  {row : AgentRunRow} {s s' : Scope} {runs : OrdMap String AgentRunRow}
  {tasks : OrdMap String TaskRow}

/-! ### The current attempt -/

/-- The run is the attempt its task designates, and it is not superseded. -/
structure Current (tasks : OrdMap String TaskRow) (run_id : String) (run : AgentRunRow) : Prop where
  is_designated : run.is_designated = true
  superseded_at : run.superseded_at = none
  designated_run_id : (tasks.get? run.task_id).bind (·.designated_run_id) = some run_id

/-- An attempt that is not finished is current. -/
def OpenIsCurrent (runs : OrdMap String AgentRunRow) (tasks : OrdMap String TaskRow) : Prop :=
  ∀ run_id run, runs.get? run_id = some run → run.state.isTerminal = false →
    Current tasks run_id run

/-- A task keeps its designated run. -/
theorem current_set {id : String} {task task' : TaskRow} (h : Current tasks run_id row)
    (htask : tasks.get? id = some task)
    (hkeep : task'.designated_run_id = task.designated_run_id) :
    Current (tasks.set id task') run_id row := by
  refine ⟨h.is_designated, h.superseded_at, ?_⟩
  by_cases hid : id = row.task_id
  · have hcurrent := h.designated_run_id
    rw [← hid, htask] at hcurrent
    rw [hid, OrdMap.get?_set_self]
    exact hkeep.trans hcurrent
  · rw [OrdMap.get?_set_ne _ _ hid]
    exact h.designated_run_id

theorem current_follows (h : Current tasks run_id s.run) (hs : s.Follows s') :
    Current tasks run_id s'.run := by
  refine ⟨hs.is_designated.trans h.is_designated, hs.superseded_at.trans h.superseded_at, ?_⟩
  rw [hs.task_id]
  exact h.designated_run_id

theorem openIsCurrent_followed (h : OpenIsCurrent db.agent_runs db.tasks)
    (hs : db.scope? run_id = some s) (hkeep : s.Follows s') :
    OpenIsCurrent (db.agent_runs.set run_id s'.run) (db.tasks.set s'.run.task_id s'.task) := by
  obtain ⟨hrun, htask⟩ := scope?_some hs
  rw [hkeep.task_id]
  intro id run hid hopen
  refine current_set ?_ htask (by rw [hkeep.task])
  by_cases heq : run_id = id
  · subst heq
    rw [OrdMap.get?_set_self] at hid
    cases hid
    refine current_follows (h run_id s.run hrun ?_) hkeep
    by_contra hterminal
    rw [Bool.not_eq_false] at hterminal
    rw [hkeep.terminal hterminal, hterminal] at hopen
    cases hopen
  · rw [OrdMap.get?_set_ne _ _ heq] at hid
    exact h id run hid hopen

theorem openIsCurrent_resumed {input : ProvisionInput} (h : OpenIsCurrent db.agent_runs db.tasks)
    (hs : db.scope? input.run_id = some s) (hwaiting : s.run.state = .waiting_for_human) :
    OpenIsCurrent (db.agent_runs.set input.run_id (resumed s input).run)
      (db.tasks.set (resumed s input).run.task_id (resumed s input).task) := by
  obtain ⟨hrun, htask⟩ := scope?_some hs
  intro id run hid hopen
  refine current_set ?_ htask rfl
  by_cases heq : input.run_id = id
  · subst heq
    rw [OrdMap.get?_set_self] at hid
    cases hid
    obtain ⟨h₁, h₂, h₃⟩ := h input.run_id s.run hrun (by rw [hwaiting]; rfl)
    exact ⟨h₁, h₂, h₃⟩
  · rw [OrdMap.get?_set_ne _ _ heq] at hid
    exact h id run hid hopen

/-- The index of designated runs leaves no other open attempt of the task. -/
theorem openIsCurrent_scheduled {input : ScheduleInput} {found : SchedulingRow}
    (h : OpenIsCurrent db.agent_runs db.tasks) (hadmitted : Admitted db found input)
    (hone : (db.supersede input.supersedes_run_id input.issued_at).hasDesignated input.task_id =
      false)
    (hassign : assignTask ⟨newRun input (db.nextAttempt input.task_id),
      assignedTask found input run_id, false⟩ input.supersedes_run_id.isSome = .ok s) :
    OpenIsCurrent ((db.supersede input.supersedes_run_id input.issued_at).agent_runs.set run_id
        (newRun input (db.nextAttempt input.task_id)))
      (db.tasks.set input.task_id s.task) := by
  intro id run hid hopen
  by_cases heq : run_id = id
  · subst heq
    rw [OrdMap.get?_set_self] at hid
    cases hid
    refine ⟨rfl, rfl, ?_⟩
    show ((db.tasks.set input.task_id s.task).get? input.task_id).bind _ = _
    rw [OrdMap.get?_set_self, (Scope.follows_assignTask _ s hassign).task]
    rfl
  · rw [OrdMap.get?_set_ne _ _ heq] at hid
    obtain ⟨hprior, hold⟩ | ⟨hprior, old, hold, rfl⟩ := supersede_get? hid
    · have hcurrent := h id run hold hopen
      refine ⟨hcurrent.is_designated, hcurrent.superseded_at, ?_⟩
      rw [OrdMap.get?_set_ne]
      · exact hcurrent.designated_run_id
      · rintro htask
        refine absurd hone ?_
        rw [Bool.not_eq_false]
        refine List.any_eq_true.mpr ⟨run, OrdMap.mem_values.mpr ⟨id, hid⟩, ?_⟩
        rw [hcurrent.is_designated, hcurrent.superseded_at, ← htask]
        simp
    · have hterminal := (hadmitted.prior_spec hprior hold).1
      rw [show old.state.isTerminal = false from hopen] at hterminal
      cases hterminal

theorem openIsCurrent_writes (h : OpenIsCurrent db.agent_runs db.tasks)
    (hwrites : Writes db runs tasks) : OpenIsCurrent runs tasks := by
  cases hwrites with
  | same => exact h
  | followed run_id s s' hs hkeep => exact openIsCurrent_followed h hs hkeep
  | resumed input s hs hwaiting => exact openIsCurrent_resumed h hs hwaiting
  | scheduled input row run_id s hadmitted hone hnew hassign =>
    exact openIsCurrent_scheduled h hadmitted hone hassign

theorem step_openIsCurrent (op : Op) (h : OpenIsCurrent db.agent_runs db.tasks) :
    OpenIsCurrent (step db op).agent_runs (step db op).tasks :=
  commit_induct (P := fun db' : Database => OpenIsCurrent db'.agent_runs db'.tasks) h
    fun db' hdb' => openIsCurrent_writes h (perform_writes op db' hdb')

/-- **One open attempt.** In every state that the coordinator reaches, an attempt that is not finished
is the current attempt of its task. -/
theorem openIsCurrent (hfresh : db.agent_runs = .empty) (ops : List Op) :
    OpenIsCurrent (run step db ops).agent_runs (run step db ops).tasks := by
  refine run_induct' (I := fun db' : Database => OpenIsCurrent db'.agent_runs db'.tasks)
    (fun s op h => step_openIsCurrent op h) ?_ ops
  rw [hfresh]
  intro run_id run hrun
  cases hrun

/-! ### What an event may change -/

/-- The run that an event is about; an acknowledgement is about the run of its command. -/
def subject (db : Database) (event : RunnerEvent) : Option String :=
  match event.payload with
  | .command_ack command_id .. => (db.commands.get? command_id).map (·.run_id)
  | payload => db.runOf payload

/-- The state of a run, its failure record and its finish time. -/
def outcome (run : AgentRunRow) :
    V2AgentRunState × Option String × Option String × Option ℕ :=
  (run.state, run.failure_code, run.failure_detail, run.finished_at)

def taskState (db : Database) (task_id : String) : Option V2TaskState :=
  (db.tasks.get? task_id).map (·.state)

/-- What holds between the tables before and after an event. -/
structure Fenced (db : Database) (event : RunnerEvent) (db' : Database) : Prop where
  /-- Only the current attempt moves a task. -/
  moves : ∀ task_id, taskState db' task_id ≠ taskState db task_id →
    ∃ run_id row, subject db event = some run_id ∧ db.agent_runs.get? run_id = some row ∧
      row.task_id = task_id ∧ Current db.tasks run_id row
  /-- A finished attempt keeps its outcome. -/
  keeps : ∀ run_id row, db.agent_runs.get? run_id = some row → row.state.isTerminal = true →
    (db'.agent_runs.get? run_id).map outcome = some (outcome row)
  /-- The events of a finished attempt move nothing. -/
  still : ∀ run_id row, subject db event = some run_id → db.agent_runs.get? run_id = some row →
    row.state.isTerminal = true → ∀ task_id, taskState db' task_id = taskState db task_id

/-! ### Late reports -/

/-- The report of a finished attempt that changes nothing: the edge it would take is not there, and
it repeats the outcome on record. -/
def Quiet (s : Scope) (event : RunnerEvent) (here : Elsewhere) : Prop :=
  match event.payload with
  | .command_ack _ state _ => ∀ ended, EndState.of? state = some ended →
      (s.task.state = .completed ∨ s.task.state = .failed ∨ s.task.state = .cancelled) ∨
        v2CanTaskTransition s.task.state (if ended = .cancelled then .cancelled else .blocked) =
          false
  | .run_status _ .started _ =>
    s.task.state ≠ .assigned ∨ event.causation_id.isSome ∧ here.directions = false
  | .verification_result .. => s.task.state ≠ .in_progress
  | .run_status _ .completed _ =>
    here.queuedPause = true ∨ s.run.verification_status ≠ .passed ∨
      (s.task.state = .verifying ∨ s.task.state = .in_review) ∧ s.quick = true ∧
        here.quickCompletion = false ∨
      s.task.state ≠ .verifying ∧ ¬ (s.task.state = .in_review ∧ s.quick = true) ∧
        s.run.finished_at = some event.occurred_at
  | .run_status _ .failed failure =>
    here.queuedPause = true ∨
      (s.task.state = .completed ∨ s.task.state = .failed ∨ s.task.state = .cancelled) ∧
        outcome (s.recordFailure (failureOf false failure) event.occurred_at).run = outcome s.run
  | .run_status _ .cancelled failure =>
    here.queuedPause = true ∨ (s.task.state = .completed ∨ s.task.state = .cancelled) ∧
      outcome (s.recordFailure (failureOf true failure) event.occurred_at).run = outcome s.run
  | _ => True

/-- The event passes the fences. -/
def Passes (db : Database) (event : RunnerEvent) (here : Elsewhere) (run_id : String) (s : Scope) :
    Prop :=
  here.authorized = true ∧
    ¬ (db.runner_revocations.get? event.runner_id).any (event.generation ≤ ·) ∧
    db.runner_events.has event.key = false ∧
    match event.payload with
    | .command_ack command_id _ _ => ∃ row, db.commands.get? command_id = some row ∧
        row.kind = .launch_run ∧ Accepts row event command_id
    | _ => s.run.runner_id = event.runner_id ∧
        db.commandGeneration run_id event.causation_id = some event.generation

/-- **The condition.** An event of a finished attempt that passes the fences is quiet. -/
def Timely (db : Database) : Op → Prop
  | .event event here => ∀ run_id s, subject db event = some run_id → db.scope? run_id = some s →
      s.run.state.isTerminal = true → Passes db event here run_id s → Quiet s event here
  | _ => True

/-- The outcome and the task stay. -/
def Still (s s' : Scope) : Prop := outcome s'.run = outcome s.run ∧ s'.task.state = s.task.state

theorem Still.refl (s : Scope) : Still s s := ⟨rfl, rfl⟩

theorem terminal_ne (h : s.run.state.isTerminal = true) :
    s.run.state ≠ .created ∧ s.run.state ≠ .dispatched ∧ s.run.state ≠ .running ∧
      s.run.state ≠ .waiting_for_human ∧ s.run.state ≠ .verifying := by
  refine ⟨?_, ?_, ?_, ?_, ?_⟩ <;> intro hs <;> rw [hs] at h <;> cases h

theorem still_started {occurred_at : ℕ} (ht : s.run.state.isTerminal = true)
    (htask : s.task.state ≠ .assigned) : Ensures (s.started occurred_at) (Still s) := by
  unfold Scope.started
  rw [if_neg (terminal_ne ht).2.1]
  show Ensures (if s.task.state = .assigned then s.transitionTask .in_progress else pure s) _
  rw [if_neg htask]
  exact ensures_pure.mpr (.refl s)

theorem still_verificationResult {commit_sha : String} {passed : Bool} {occurred_at : ℕ}
    (ht : s.run.state.isTerminal = true) (htask : s.task.state ≠ .in_progress) :
    Ensures (s.verificationResult commit_sha passed occurred_at) (Still s) := by
  unfold Scope.verificationResult
  rw [if_neg (terminal_ne ht).2.2.1]
  intro s' h
  obtain ⟨s₁, hs₁, h⟩ := bind_eq_ok.mp h
  cases hs₁
  obtain ⟨s₂, hs₂, h⟩ := bind_eq_ok.mp h
  rw [if_neg htask] at hs₂
  cases hs₂
  cases h
  exact ⟨rfl, rfl⟩

/-- The gates of a Quick Change hold up the whole report. -/
theorem reviewReady_quick (htask : s.task.state = .verifying ∨ s.task.state = .in_review)
    (hquick : s.quick = true) : s.reviewReady false ≠ .ok s' := by
  intro h
  unfold Scope.reviewReady at h
  obtain ⟨s₁, hs₁, h⟩ := bind_eq_ok.mp h
  have hs₁' : s₁.quick = true ∧ s₁.task.state = .in_review := by
    rcases htask with htask | htask
    · rw [if_pos htask] at hs₁
      unfold Scope.transitionTask at hs₁
      rw [htask] at hs₁
      cases hs₁
      exact ⟨hquick, rfl⟩
    · rw [if_neg (by rw [htask]; simp)] at hs₁
      cases hs₁
      exact ⟨hquick, htask⟩
  rw [if_pos (by rw [hs₁'.1, hs₁'.2]; rfl)] at h
  exact absurd (refuse_bind_ok.mp h).1 (by simp)

theorem reviewReady_still {gates : Bool} (htask : s.task.state ≠ .verifying)
    (hquick : ¬ (s.task.state = .in_review ∧ s.quick = true)) : s.reviewReady gates = .ok s := by
  unfold Scope.reviewReady
  rw [if_neg htask]
  refine if_neg fun h => hquick ?_
  rw [Bool.and_eq_true, decide_eq_true_eq] at h
  exact ⟨h.2, h.1⟩

theorem still_completed {gates : Bool} {occurred_at : ℕ} (ht : s.run.state.isTerminal = true)
    (hq : s.run.verification_status ≠ .passed ∨
      (s.task.state = .verifying ∨ s.task.state = .in_review) ∧ s.quick = true ∧ gates = false ∨
      s.task.state ≠ .verifying ∧ ¬ (s.task.state = .in_review ∧ s.quick = true) ∧
        s.run.finished_at = some occurred_at) :
    Ensures (s.completed gates occurred_at) (Still s) := by
  intro s' h
  unfold Scope.completed at h
  obtain ⟨hgreen, h⟩ := refuse_bind_ok.mp h
  rw [if_neg (terminal_ne ht).2.2.2.2] at h
  obtain ⟨s₁, hs₁, h⟩ := bind_eq_ok.mp h
  cases hs₁
  obtain ⟨s₂, hs₂, h⟩ := bind_eq_ok.mp h
  cases h
  rcases hq with hq | ⟨htask, hquick, rfl⟩ | ⟨htask, hquick, hfinished⟩
  · exact absurd hq hgreen
  · exact absurd hs₂ (reviewReady_quick htask hquick)
  · rw [reviewReady_still htask hquick] at hs₂
    cases hs₂
    refine ⟨?_, rfl⟩
    unfold outcome
    rw [hfinished]

theorem still_ended {cancelled : Bool} {failure : Option RunFailure} {occurred_at : ℕ}
    (ht : s.run.state.isTerminal = true)
    (htask : s.task.state = .completed ∨ s.task.state = .cancelled ∨
      cancelled = false ∧ s.task.state = .failed)
    (hsame : outcome (s.recordFailure (failureOf cancelled failure) occurred_at).run =
      outcome s.run) :
    Ensures (s.ended cancelled failure occurred_at) (Still s) := by
  intro s' h
  unfold Scope.ended at h
  rw [if_pos ht] at h
  obtain ⟨s₁, hs₁, h⟩ := bind_eq_ok.mp h
  cases hs₁
  obtain ⟨s₂, hs₂, h⟩ := bind_eq_ok.mp h
  cases h
  have hs₂' : s₂ = s := by
    split at hs₂
    · cases hs₂
      rfl
    · rename_i hopen
      obtain ⟨hcancelled, hfailed⟩ : cancelled = false ∧ s.task.state = .failed := by
        tauto
      rw [if_neg (by rw [hcancelled]; simp), if_neg (not_not.mpr hfailed)] at hs₂
      cases hs₂
      rfl
  rw [hs₂']
  exact ⟨hsame, rfl⟩

theorem still_reportOnScope (ht : s.run.state.isTerminal = true) (hq : Quiet s event here) :
    Ensures (reportOnScope s event here) fun r => Still s r.1 := by
  have hpair : ∀ {x : Except Abort Scope} {terminal : Option Terminal}, Ensures x (Still s) →
      Ensures ((·, terminal) <$> x) fun r => Still s r.1 := by
    rintro x terminal hx r h
    obtain ⟨s', hs', rfl⟩ := map_eq_ok.mp h
    exact hx s' hs'
  unfold Quiet at hq
  unfold reportOnScope
  split
  · exact fun r h => by cases (refuse_bind_ok.mp h).2; exact .refl s
  · rename_i hpayload
    rw [hpayload] at hq
    intro r h
    obtain ⟨s₁, hs₁, h⟩ := bind_eq_ok.mp h
    obtain ⟨hdirections, h⟩ := refuse_bind_ok.mp h
    cases h
    exact still_started ht (hq.resolve_right hdirections) s₁ hs₁
  · exact fun r h => by cases (refuse_bind_ok.mp h).2; exact .refl s
  · exact fun r h => by cases (refuse_bind_ok.mp h).2; exact .refl s
  · refine hpair fun s' h => absurd (refuse_bind_ok.mp h).1 ?_
    rw [not_not]
    exact .inl (terminal_ne ht).2.2.1
  · intro r h
    obtain ⟨s₁, hs₁, -⟩ := bind_eq_ok.mp h
    refine absurd (refuse_bind_ok.mp hs₁).1 ?_
    rw [not_not]
    exact .inl (terminal_ne ht).2.2.1
  · rename_i hpayload
    rw [hpayload] at hq
    exact hpair (still_verificationResult ht hq)
  · rename_i hpayload
    rw [hpayload] at hq
    refine Ensures.ite (fun _ => ensures_pure.mpr (Still.refl s)) fun hpause => ?_
    exact hpair (still_completed ht (hq.resolve_left hpause))
  · rename_i hpayload
    rw [hpayload] at hq
    refine Ensures.ite (fun _ => ensures_pure.mpr (Still.refl s)) fun hpause => ?_
    obtain ⟨htask, hsame⟩ := hq.resolve_left hpause
    exact hpair (still_ended ht (by tauto) hsame)
  · rename_i hpayload
    rw [hpayload] at hq
    refine Ensures.ite (fun _ => ensures_pure.mpr (Still.refl s)) fun hpause => ?_
    obtain ⟨htask, hsame⟩ := hq.resolve_left hpause
    exact hpair (still_ended ht (by tauto) hsame)
  · exact ensures_pure.mpr (Still.refl s)

theorem still_endCommand {report : Option RunnerEvent} {state : CommandState} {detail : String}
    {occurred_at : ℕ} (ht : s.run.state.isTerminal = true)
    (hq : ∀ ended, EndState.of? state = some ended →
      (s.task.state = .completed ∨ s.task.state = .failed ∨ s.task.state = .cancelled) ∨
        v2CanTaskTransition s.task.state (if ended = .cancelled then .cancelled else .blocked) =
          false) :
    Ensures (s.endCommand report state detail here occurred_at) fun r => Still s r.2 := by
  obtain ⟨-, hdispatched, hrunning, -, hverifying⟩ := terminal_ne ht
  have hpause : s.applyQueuedPauseAtTerminal here occurred_at = .ok (false, s) :=
    if_neg fun h => h.2.2.1.elim hrunning hverifying
  have hreport : s.applyReport report here.quickCompletion = .ok (false, s) := by
    unfold Scope.applyReport
    split
    · exact if_pos (.inl fun h => by tauto)
    · rfl
  unfold Scope.endCommand
  rw [hpause]
  show Ensures (s.applyReport report here.quickCompletion >>= _) _
  rw [hreport]
  rcases hended : EndState.of? state with _ | ended
  · exact ensures_pure.mpr (Still.refl s)
  · intro r h
    obtain ⟨s', hs', rfl⟩ := map_eq_ok.mp h
    unfold Scope.endedByCommand Scope.endRun at hs'
    rw [if_pos ht] at hs'
    obtain ⟨s₁, hs₁, hs'⟩ := bind_eq_ok.mp hs'
    cases hs₁
    split at hs'
    · cases hs'
      exact .refl s
    · rename_i hclosed
      unfold Scope.transitionTask at hs'
      rw [(hq ended hended).resolve_left hclosed] at hs'
      cases hs'

/-! ### Events -/

/-- An event that leaves the runs and the tasks. -/
theorem fenced_same (hruns : db'.agent_runs = db.agent_runs) (htasks : db'.tasks = db.tasks) :
    Fenced db event db' := by
  refine ⟨fun task_id h => absurd ?_ h, fun run_id row hrow _ => ?_, fun _ _ _ _ _ task_id => ?_⟩
  · unfold taskState
    rw [htasks]
  · rw [hruns, hrow]
    rfl
  · unfold taskState
    rw [htasks]

/-- An event that moves its run and its task. -/
theorem fenced_moved (hopen : OpenIsCurrent db.agent_runs db.tasks)
    (hsubject : subject db event = some run_id) (hs : db.scope? run_id = some s)
    (hkeep : s.Follows s') (hstill : s.run.state.isTerminal = true → Still s s')
    (hruns : db'.agent_runs = db.agent_runs.set run_id s'.run)
    (htasks : db'.tasks = db.tasks.set s'.run.task_id s'.task) : Fenced db event db' := by
  obtain ⟨hrun, htask⟩ := scope?_some hs
  rw [hkeep.task_id] at htasks
  have hother : ∀ task_id, task_id ≠ s.run.task_id →
      taskState db' task_id = taskState db task_id := by
    intro task_id hne
    unfold taskState
    rw [htasks, OrdMap.get?_set_ne _ _ hne.symm]
  have hterminal : s.run.state.isTerminal = true →
      ∀ task_id, taskState db' task_id = taskState db task_id := by
    intro ht task_id
    by_cases htid : task_id = s.run.task_id
    · unfold taskState
      rw [htasks, htid, OrdMap.get?_set_self, htask]
      exact congrArg some (hstill ht).2
    · exact hother task_id htid
  refine ⟨fun task_id h => ?_, fun id row hrow ht => ?_, fun id row hid hrow ht => ?_⟩
  · have hopen' : s.run.state.isTerminal = false := by
      by_contra ht
      rw [Bool.not_eq_false] at ht
      exact h (hterminal ht task_id)
    have htid : task_id = s.run.task_id := by
      by_contra hne
      exact h (hother task_id hne)
    exact ⟨run_id, s.run, hsubject, hrun, htid.symm, hopen run_id s.run hrun hopen'⟩
  · rw [hruns]
    by_cases heq : run_id = id
    · subst heq
      rw [hrun] at hrow
      cases hrow
      rw [OrdMap.get?_set_self]
      exact congrArg some (hstill ht).1
    · rw [OrdMap.get?_set_ne _ _ heq, hrow]
      rfl
  · cases hsubject.symm.trans hid
    rw [hrun] at hrow
    cases hrow
    exact hterminal ht

/-- One event. -/
theorem fenced_apply (hopen : OpenIsCurrent db.agent_runs db.tasks)
    (htimely : Timely db (.event event here)) :
    Ensures (db.apply event here) fun r => Fenced db event r.2 := by
  rintro ⟨reply, db'⟩ h
  obtain ⟨hauthorized, hrevoked⟩ := apply_authorized h
  cases apply_ok h with
  | duplicate _ => exact fenced_same rfl rfl
  | ignored _ => exact fenced_same rfl rfl
  | quiet _ => exact fenced_same rfl rfl
  | ack id state detail row _ hnew hpayload hrow hack =>
    have hsubject : subject db event = some row.run_id := by
      unfold subject
      rw [hpayload]
      dsimp only
      rw [hrow]
      rfl
    obtain ⟨haccepts, ⟨rfl, -⟩ | ⟨terminal, mid, hkind, -, hend, rfl⟩⟩ := applyCommandAck_ok hack
    · exact fenced_same (acknowledge_agent_runs id state) (acknowledge_tasks id state)
    · obtain ⟨budget, -, ⟨-, rfl⟩ | ⟨s, s', settles, hs, hmove, rfl⟩⟩ := endCommand_ok hend
      · exact fenced_same (acknowledge_agent_runs id state) (acknowledge_tasks id state)
      · rw [acknowledge_scope?] at hs
        refine fenced_moved hopen hsubject hs (Scope.follows_endCommand _ _ _ _ _ hmove)
          (fun ht => ?_) ?_ ?_
        · have hpasses : Passes db event here row.run_id s := by
            refine ⟨hauthorized, hrevoked, hnew, ?_⟩
            rw [hpayload]
            exact ⟨row, hrow, hkind, haccepts⟩
          have hq := htimely row.run_id s hsubject hs ht hpasses
          unfold Quiet at hq
          rw [hpayload] at hq
          exact still_endCommand ht hq _ hmove
        · show (db.acknowledge id state).agent_runs.set _ _ = _
          rw [acknowledge_agent_runs]
        · show (db.acknowledge id state).tasks.set _ _ = _
          rw [acknowledge_tasks]
  | report run_id s _ hnew hrun hs hreport =>
    obtain ⟨hrunner, hgeneration, s', terminal, budget, hmove, -, rfl⟩ := applyRunEvent_ok hreport
    have hnoack : ∀ id state detail, event.payload ≠ .command_ack id state detail := by
      intro id state detail hpayload
      rw [hpayload] at hrun
      cases hrun
    have hsubject : subject db event = some run_id := by
      unfold subject
      split
      · rename_i hpayload
        exact absurd hpayload (hnoack _ _ _)
      · exact hrun
    refine fenced_moved hopen hsubject hs (Scope.follows_reportOnScope event _ hmove)
      (fun ht => ?_) rfl rfl
    refine still_reportOnScope ht (htimely run_id s hsubject hs ht ⟨hauthorized, hrevoked, hnew, ?_⟩)
      _ hmove
    split
    · rename_i hpayload
      exact absurd hpayload (hnoack _ _ _)
    · exact ⟨hrunner, hgeneration⟩

theorem fenced_step (hopen : OpenIsCurrent db.agent_runs db.tasks)
    (htimely : Timely db (.event event here)) :
    Fenced db event (step db (.event event here)) := by
  refine commit_induct (fenced_same rfl rfl) fun db' h => ?_
  obtain ⟨r, hr, rfl⟩ := map_eq_ok.mp h
  exact fenced_apply hopen htimely r hr

/-- **Only the current attempt moves its task.** In every run that starts without attempts and whose
late reports are quiet, an event changes the state of a task only if it is an event of the task's
current attempt, and a finished attempt keeps its outcome and moves nothing. -/
theorem current_attempt_moves (db : Database) (hfresh : db.agent_runs = .empty) (ops : List Op)
    (h : Along step Timely db ops) (pre : List Op) (event : RunnerEvent) (here : Elsewhere)
    (hpre : pre ++ [.event event here] <+: ops) :
    Fenced (run step db pre) event (run step db (pre ++ [.event event here])) := by
  obtain ⟨rest, rfl⟩ := hpre
  have hop := (along_append.mp ( along_prefix h)).2.1
  rw [run_concat]
  exact fenced_step (openIsCurrent hfresh pre) hop

/-- An attempt that expires before it starts, and its late report. -/
def lateStart : List Op :=
  attempt none :: sent "run:task:1" ++ [.expireDispatch "run:task:1" 5]

theorem current_attempt_moves_lateStart :
    Fenced (run step oneTask lateStart)
      ⟨1, "runner", 0, "launch", some "dispatch:dispatch-job:run:task:1", 1,
        .run_status "run:task:1" .started none⟩
      (run step oneTask (lateStart ++
        [report "run:task:1" 1 (.run_status "run:task:1" .started none)])) := by
  refine current_attempt_moves oneTask rfl
    (lateStart ++ [report "run:task:1" 1 (.run_status "run:task:1" .started none)])
    ⟨trivial, trivial, trivial, trivial, ?_, trivial⟩ lateStart _ calm (List.prefix_refl _)
  rintro run_id s hsubject hs - -
  cases hsubject
  have hblocked : ((run step oneTask lateStart).scope? "run:task:1").map (·.task.state) =
      some .blocked := by decide +kernel
  refine .inl fun hassigned => ?_
  rw [show (run step oneTask lateStart).scope? "run:task:1" = some s from hs] at hblocked
  cases hassigned.symm.trans (Option.some.inj hblocked)

/-- A retry is assigned, and the report of the expired attempt starts the task. -/
theorem expired_attempt_moves_task :
    ¬ ∀ (ops pre : List Op) (event : RunnerEvent) (here : Elsewhere),
      pre ++ [.event event here] <+: ops →
        Fenced (run step oneTask pre) event (run step oneTask (pre ++ [.event event here])) := by
  intro h
  have hfenced := h (lateStart ++ [.prepareRetry ⟨"task", "run:task:1", none, none⟩,
      attempt (some "run:task:1"), report "run:task:1" 1 (.run_status "run:task:1" .started none)])
    (lateStart ++ [.prepareRetry ⟨"task", "run:task:1", none, none⟩, attempt (some "run:task:1")])
    ⟨1, "runner", 0, "launch", some "dispatch:dispatch-job:run:task:1", 1,
      .run_status "run:task:1" .started none⟩ calm (List.prefix_refl _)
  obtain ⟨run_id, row, hsubject, -, htask, hcurrent⟩ := hfenced.moves "task" (by decide +kernel)
  cases hsubject
  have hdesignated := hcurrent.designated_run_id
  rw [htask] at hdesignated
  revert hdesignated
  decide +kernel

end Norns.Coordinator.Attempts
