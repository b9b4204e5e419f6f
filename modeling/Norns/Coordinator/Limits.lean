import Norns.Coordinator.Books

/-! # What the coordinator never exceeds

* `phase_reserved`: the reservations of a phase stay within its approved budget;
* `reservations_final`: a resolved reservation is balanced and stays as it is;
* `attempts_of_task`: the attempts of a task are numbered one by one, each with its own reservation,
  and one of them at most is not finished;
* `events_once`: an event that was applied changes nothing when it comes again;
* `capacity_held`: the running attempts of a project stay within its limit. -/

namespace Norns.Coordinator.Limits

open Norns.Lib Norns.Lib.Run Norns.Lib.Transaction Norns.Coordinator.Database
  Norns.Contracts.Protocol Norns.Contracts.V2Lifecycle

variable {db db' : Database} {op : Op}

/-! ### Reservations -/

/-- The reservation holds money of the phase. -/
def holds (phase_id : String) (row : BudgetReservationRow) : Bool :=
  decide (row.phase_id = phase_id) && [ReservationStatus.active, .retained_ambiguous].contains row.status

/-- The money that the reservations of a phase hold. -/
def held (phase_id : String) (reservations : OrdMap String BudgetReservationRow) : ℤ :=
  reservations.sum fun e => if holds phase_id e.2 = true then (e.2.amount_usd : ℤ) else 0

theorem reservedUsd_eq (db : Database) (phase_id : String) :
    (db.reservedUsd phase_id : ℤ) = held phase_id db.budget_reservations := by
  have hcast : ∀ rows : List BudgetReservationRow, (((rows.map (·.amount_usd)).sum : ℕ) : ℤ) =
      (rows.map fun row => (row.amount_usd : ℤ)).sum := by
    intro rows
    induction rows with
    | nil => rfl
    | cons row rows ih => simp [ih]
  have hsum := OrdMap.sum_filter_values db.budget_reservations
    (fun row => holds phase_id row = true) fun row => (row.amount_usd : ℤ)
  simp only [Bool.decide_eq_true] at hsum
  unfold reservedUsd
  rw [hcast]
  exact hsum

/-- The columns of a reservation. -/
structure Balanced (row : BudgetReservationRow) : Prop where
  active : row.status = .active → row.settled_usd = 0 ∧ row.released_usd = 0 ∧ row.retained_usd = 0
  resolved : row.status ≠ .active →
    row.settled_usd + row.released_usd + row.retained_usd = row.amount_usd

/-- The parts of a resolution. -/
theorem resolve_parts {reserved usage : ℕ} {outcome : BudgetOutcome} {r : BudgetResolution}
    (h : resolveV2BudgetReservation reserved outcome usage = .ok r) :
    r.status ≠ .active ∧ r.settled_usd + r.released_usd + r.retained_usd = reserved := by
  unfold resolveV2BudgetReservation at h
  split at h
  case isTrue => cases h
  case isFalse hle =>
    split at h
    case h_1 | h_2 =>
      cases h
      exact ⟨by simp, by simp; omega⟩
    case h_7 =>
      split at h
      · cases h
      · cases h
        exact ⟨by simp, by simp⟩
    all_goals
      split at h
      · cases h
      · cases h
        exact ⟨by simp, by simp⟩

section

variable {m m' : OrdMap String BudgetReservationRow} {id : String} {row : BudgetReservationRow}

/-- A reservation that is not active stays as it is. -/
theorem resolves_final (h : Resolves m m') (hrow : m.get? id = some row) (hstatus : row.status ≠ .active) :
    m'.get? id = some row := by
  rcases h with rfl | ⟨id', row', outcome, usage, resolution, hrow', hactive, -, rfl⟩
  · exact hrow
  · have hne : id' ≠ id := by
      rintro rfl
      rw [hrow] at hrow'
      cases hrow'
      exact hstatus hactive
    rw [OrdMap.get?_set_ne _ _ hne]
    exact hrow

/-- The phase, the run and the amount of a reservation stay. -/
theorem resolves_kept (h : Resolves m m') (hrow : m.get? id = some row) :
    ∃ row', m'.get? id = some row' ∧ row'.phase_id = row.phase_id ∧ row'.run_id = row.run_id ∧
      row'.amount_usd = row.amount_usd := by
  rcases h with rfl | ⟨id', old, outcome, usage, resolution, hold, -, -, rfl⟩
  · exact ⟨row, hrow, rfl, rfl, rfl⟩
  · rw [OrdMap.get?_set]
    split
    case isTrue hid =>
      subst hid
      rw [hrow] at hold
      cases hold
      exact ⟨_, rfl, rfl, rfl, rfl⟩
    case isFalse => exact ⟨row, hrow, rfl, rfl, rfl⟩

theorem resolves_balanced (h : Resolves m m') (hm : ∀ id row, m.get? id = some row → Balanced row) :
    ∀ id row, m'.get? id = some row → Balanced row := by
  rcases h with rfl | ⟨id', old, outcome, usage, resolution, hold, -, hresolution, rfl⟩
  · exact hm
  · intro id row hrow
    rw [OrdMap.get?_set] at hrow
    split at hrow
    case isTrue =>
      cases hrow
      obtain ⟨hstatus, hparts⟩ := resolve_parts hresolution
      exact ⟨fun hactive => absurd hactive hstatus, fun _ => hparts⟩
    case isFalse => exact hm id row hrow

/-- Resolving gives money back. -/
theorem resolves_held (h : Resolves m m') (phase_id : String) : held phase_id m' ≤ held phase_id m := by
  rcases h with rfl | ⟨id', old, outcome, usage, resolution, hold, hactive, -, rfl⟩
  · exact le_rfl
  · unfold held
    rw [OrdMap.sum_set, hold]
    have hholds : holds phase_id old = decide (old.phase_id = phase_id) := by
      simp [holds, hactive]
    dsimp only
    rw [hholds]
    by_cases hphase : old.phase_id = phase_id
    · rw [decide_eq_true hphase, if_pos rfl]
      split
      · omega
      · have hamount : (0 : ℤ) ≤ old.amount_usd := Int.natCast_nonneg _
        omega
    · have hnot : holds phase_id { old with
          status := resolution.status, settled_usd := resolution.settled_usd
          released_usd := resolution.released_usd, retained_usd := resolution.retained_usd } =
            false := by simp [holds, hphase]
      rw [hnot, decide_eq_false hphase]
      simp

end

/-! ### Phases -/

/-- The reservations of each phase are within its approved budget. -/
def Budgeted (db : Database) : Prop :=
  ∀ id phase, db.phases.get? id = some phase → db.reservedUsd id ≤ phase.approved_budget_usd

theorem budgeted_kept (h : Budgeted db) (hkept : Kept db op db') : Budgeted db' := by
  intro id phase' hphase'
  obtain ⟨phase, hphase, hle⟩ := hkept.phases id phase' hphase'
  have hbefore := h id phase hphase
  have hheld := resolves_held hkept.reservations id
  rw [← reservedUsd_eq, ← reservedUsd_eq] at hheld
  omega

/-- **A scheduled attempt** fits into its phase. -/
theorem budgeted_scheduled {input : ScheduleInput} (h : Budgeted db)
    (hscheduled : Scheduled db input db') : Budgeted db' := by
  obtain ⟨row, hadmitted, hreservations, hphases⟩ := hscheduled.admitted
  have hfresh := hscheduled.fresh
  have hheld : ∀ id, (db'.reservedUsd id : ℤ) = db.reservedUsd id +
      if id = input.phase_id then (maxCharge row input : ℤ) else 0 := by
    intro id
    rw [reservedUsd_eq, reservedUsd_eq, hreservations]
    unfold held
    rw [OrdMap.sum_set, hfresh]
    by_cases hid : id = input.phase_id
    · subst hid
      simp [holds, newReservation]
    · have hnot : ¬ input.phase_id = id := fun hsame => hid hsame.symm
      simp [holds, newReservation, hid, hnot]
  intro id phase' hphase'
  have hadds := hheld id
  rw [hphases, OrdMap.get?_set] at hphase'
  split at hphase'
  case isTrue hid =>
    subst hid
    obtain rfl := Option.some.inj hphase'
    have hbudget := hadmitted.budget
    rw [if_pos rfl] at hadds
    dsimp only
    omega
  case isFalse hid =>
    have hbefore := h id phase' hphase'
    rw [if_neg fun hsame => hid hsame.symm] at hadds
    omega

/-- **A phase never reserves more than was approved.** Whatever is scheduled, retried, reworked,
settled, released or given up, the amounts of the active and the ambiguously retained reservations of a
phase are within its approved budget. -/
theorem phase_reserved (db : Database) (h : Budgeted db) (ops : List Op) : Budgeted (run step db ops) := by
  refine run_induct' (fun db op hbudgeted => ?_) h ops
  refine commit_induct hbudgeted fun db' hok => ?_
  rcases perform_books op db' hok with ⟨input, gates, -, hscheduled⟩ | hkept
  · exact budgeted_scheduled hbudgeted hscheduled
  · exact budgeted_kept hbudgeted hkept

/-- The first attempt is given up, and the retry takes fifty of the hundred that were approved. -/
theorem phase_reserved_oneTask : (run step oneTask [attempt none,
    .claim (dispatchJobId "run:task:1") "worker" 0 30000 true,
    .deadLetter (dispatchJobId "run:task:1") "worker" 5 0, .prepareRetry ⟨"task", "run:task:1", some 50, none⟩,
    attempt (some "run:task:1")]).reservedUsd "phase" ≤ 100 :=
  phase_reserved oneTask (fun id phase hphase => by
    have hnone : oneTask.reservedUsd id = 0 := rfl
    rw [hnone]
    exact Nat.zero_le _) _ "phase" ⟨"project", .active, 100, false⟩ (by decide +kernel)

/-- The invariant of `reservations_final`. -/
theorem step_balanced (op : Op)
    (h : ∀ id row, db.budget_reservations.get? id = some row → Balanced row) :
    ∀ id row, (step db op).budget_reservations.get? id = some row → Balanced row := by
  refine commit_induct (P := fun db' : Database =>
    ∀ id row, db'.budget_reservations.get? id = some row → Balanced row) h fun db' hok => ?_
  rcases perform_books op db' hok with ⟨input, gates, -, hscheduled⟩ | hkept
  · obtain ⟨row, -, hreservations, -⟩ := hscheduled.admitted
    intro id other hother
    rw [hreservations, OrdMap.get?_set] at hother
    split at hother
    case isTrue =>
      cases hother
      exact ⟨fun _ => ⟨rfl, rfl, rfl⟩, fun hne => absurd rfl hne⟩
    case isFalse => exact h id other hother
  · exact resolves_balanced hkept.reservations h

theorem step_final (op : Op) {id : String} {row : BudgetReservationRow}
    (hrow : db.budget_reservations.get? id = some row) (hstatus : row.status ≠ .active) :
    (step db op).budget_reservations.get? id = some row := by
  refine commit_induct (P := fun db' : Database => db'.budget_reservations.get? id = some row) hrow
    fun db' hok => ?_
  rcases perform_books op db' hok with ⟨input, gates, -, hscheduled⟩ | hkept
  · obtain ⟨found, -, hreservations, -⟩ := hscheduled.admitted
    have hne : reservationId (runIdentity input.task_id (db.nextAttempt input.task_id)) ≠ id := by
      rintro rfl
      rw [hscheduled.fresh] at hrow
      cases hrow
    rw [hreservations, OrdMap.get?_set_ne _ _ hne]
    exact hrow
  · exact resolves_final hkept.reservations hrow hstatus

/-- **A resolved reservation is final.** Its parts add up to its amount, and whatever event, retry or
sweep comes later, it is resolved once. -/
theorem reservations_final (db : Database) (hfresh : db.budget_reservations = .empty) (ops more : List Op)
    (id : String) (row : BudgetReservationRow)
    (hrow : (run step db ops).budget_reservations.get? id = some row) (hstatus : row.status ≠ .active) :
    row.settled_usd + row.released_usd + row.retained_usd = row.amount_usd ∧
      (run step db (ops ++ more)).budget_reservations.get? id = some row := by
  have hbalanced : ∀ id row, (run step db ops).budget_reservations.get? id = some row → Balanced row :=
    run_induct' (I := fun db' : Database =>
      ∀ id row, db'.budget_reservations.get? id = some row → Balanced row)
      (fun db op h => step_balanced op h)
      (fun id row hnone => by rw [hfresh] at hnone; cases hnone) ops
  refine ⟨(hbalanced id row hrow).resolved hstatus, ?_⟩
  rw [run_append]
  exact run_induct' (I := fun db' : Database => db'.budget_reservations.get? id = some row)
    (fun db op h => step_final op h hstatus) hrow more

/-- An attempt that is given up before it was delivered. -/
def givenUp : List Op :=
  [attempt none, .claim (dispatchJobId "run:task:1") "worker" 0 30000 true,
    .deadLetter (dispatchJobId "run:task:1") "worker" 5 0]

theorem reservations_final_givenUp :
    (run step oneTask (givenUp ++ [.prepareRetry ⟨"task", "run:task:1", some 50, none⟩,
      attempt (some "run:task:1")])).budget_reservations.get? (reservationId "run:task:1") =
        some ⟨"phase", "run:task:1", 40, 0, 40, 0, .released⟩ :=
  (reservations_final oneTask rfl givenUp _ (reservationId "run:task:1")
    ⟨"phase", "run:task:1", 40, 0, 40, 0, .released⟩ (by decide +kernel) (by decide)).2

/-! ### Attempts -/

theorem foldl_max (l : List ℕ) : ∀ a : ℕ, (l.foldl max a = a ∨ l.foldl max a ∈ l) ∧ a ≤ l.foldl max a ∧
    ∀ x ∈ l, x ≤ l.foldl max a := by
  induction l with
  | nil => exact fun a => ⟨.inl rfl, le_rfl, fun x hx => absurd hx List.not_mem_nil⟩
  | cons b l ih =>
    intro a
    obtain ⟨hmem, hle, hall⟩ := ih (max a b)
    rw [List.foldl_cons]
    refine ⟨?_, (le_max_left a b).trans hle, fun x hx => ?_⟩
    · rcases hmem with heq | hin
      · rw [heq]
        rcases le_total a b with hab | hba
        · rw [max_eq_right hab]
          exact .inr List.mem_cons_self
        · exact .inl (max_eq_left hba)
      · exact .inr (List.mem_cons_of_mem b hin)
    · rcases List.mem_cons.mp hx with rfl | hin
      · exact (le_max_right a x).trans hle
      · exact hall x hin

/-- The number of a new attempt is one more than the highest of its task. -/
theorem nextAttempt_spec (db : Database) (task_id : String) : 1 ≤ db.nextAttempt task_id ∧
    (∀ id run, db.agent_runs.get? id = some run → run.task_id = task_id →
      run.attempt < db.nextAttempt task_id) ∧
    (1 < db.nextAttempt task_id → ∃ id run, db.agent_runs.get? id = some run ∧ run.task_id = task_id ∧
      run.attempt + 1 = db.nextAttempt task_id) := by
  unfold nextAttempt
  obtain ⟨hmem, -, hall⟩ := foldl_max
    ((db.agent_runs.values.filter fun run => decide (run.task_id = task_id)).map (·.attempt)) 0
  have hin : ∀ run, run ∈ db.agent_runs.values.filter (fun run => decide (run.task_id = task_id)) ↔
      (∃ id, db.agent_runs.get? id = some run) ∧ run.task_id = task_id := by
    intro run
    rw [List.mem_filter, OrdMap.mem_values, decide_eq_true_eq]
  refine ⟨by omega, fun id run hrun htask => ?_, fun hlt => ?_⟩
  · have hle := hall run.attempt (List.mem_map_of_mem ((hin run).mpr ⟨⟨id, hrun⟩, htask⟩))
    omega
  · rcases hmem with hzero | hsome
    · omega
    · obtain ⟨run, hrun, hattempt⟩ := List.mem_map.mp hsome
      obtain ⟨⟨id, hid⟩, htask⟩ := (hin run).mp hrun
      exact ⟨id, run, hid, htask, by rw [hattempt]⟩

/-- **The attempts of a task** have the identities of their numbers, each number below one of them is
that of another, and each attempt has its reservation. -/
structure Numbered (db : Database) : Prop where
  identity : ∀ id run, db.agent_runs.get? id = some run →
    id = runIdentity run.task_id run.attempt ∧ 1 ≤ run.attempt
  consecutive : ∀ id run, db.agent_runs.get? id = some run → ∀ k, 1 ≤ k → k ≤ run.attempt →
    ∃ other, db.agent_runs.get? (runIdentity run.task_id k) = some other ∧
      other.task_id = run.task_id ∧ other.attempt = k
  reservation : ∀ id run, db.agent_runs.get? id = some run → ∃ row,
    db.budget_reservations.get? (reservationId id) = some row ∧ row.run_id = id ∧
      row.phase_id = run.phase_id

section

variable {runs : OrdMap String AgentRunRow}

/-- The attempt is there, under its number. -/
theorem SameRuns.attempt {id task_id : String} {k : ℕ} {run : AgentRunRow}
    (h : SameRuns db.agent_runs runs) (hrun : db.agent_runs.get? id = some run)
    (htask : run.task_id = task_id) (hk : run.attempt = k) :
    ∃ run', runs.get? id = some run' ∧ run'.task_id = task_id ∧ run'.attempt = k := by
  obtain ⟨run', hrun'⟩ := h.kept id run hrun
  obtain ⟨old, hold, htask', -, hattempt⟩ := h.back id run' hrun'
  rw [hrun] at hold
  cases hold
  exact ⟨run', hrun', htask'.trans htask, hattempt.trans hk⟩

theorem numbered_kept (h : Numbered db) (hkept : Kept db op db') : Numbered db' := by
  constructor
  · intro id run' hrun'
    obtain ⟨run, hrun, htask, -, hattempt⟩ := hkept.runs.sameRuns.back id run' hrun'
    rw [htask, hattempt]
    exact h.identity id run hrun
  · intro id run' hrun' k hk hle
    obtain ⟨run, hrun, htask, -, hattempt⟩ := hkept.runs.sameRuns.back id run' hrun'
    rw [hattempt] at hle
    rw [htask]
    obtain ⟨other, hother, hsame, hnumber⟩ := h.consecutive id run hrun k hk hle
    exact SameRuns.attempt hkept.runs.sameRuns hother hsame hnumber
  · intro id run' hrun'
    obtain ⟨run, hrun, -, hphase, -⟩ := hkept.runs.sameRuns.back id run' hrun'
    obtain ⟨row, hrow, hid, hsame⟩ := h.reservation id run hrun
    obtain ⟨row', hrow', hphase', hid', -⟩ := resolves_kept hkept.reservations hrow
    exact ⟨row', hrow', hid'.trans hid, (hphase'.trans hsame).trans hphase.symm⟩

/-- **A new attempt** takes the next number. -/
theorem numbered_scheduled {input : ScheduleInput} (h : Numbered db)
    (hscheduled : Scheduled db input db') : Numbered db' := by
  obtain ⟨row, -, hreservations, -⟩ := hscheduled.admitted
  have hfresh := hscheduled.fresh
  have hsame := @sameRuns_supersede db input.supersedes_run_id input.issued_at
  have hnew := hscheduled.new
  have hruns := hscheduled.runs
  generalize (db.supersede input.supersedes_run_id input.issued_at).agent_runs = runs
    at hsame hnew hruns
  obtain ⟨hone, -, hprevious⟩ := nextAttempt_spec db input.task_id
  have hold : ∀ id run', id ≠ runIdentity input.task_id (db.nextAttempt input.task_id) →
      runs.get? id = some run' → db'.agent_runs.get? id = some run' := by
    intro id run' hne hrun'
    rw [hruns, OrdMap.get?_set_ne _ _ (Ne.symm hne)]
    exact hrun'
  have hnever : ∀ id run', runs.get? id = some run' →
      id ≠ runIdentity input.task_id (db.nextAttempt input.task_id) := by
    rintro id run' hrun' rfl
    rw [hnew] at hrun'
    cases hrun'
  have hnumber : ∀ id run, db.agent_runs.get? id = some run → ∀ k, 1 ≤ k → k ≤ run.attempt →
      ∃ other, db'.agent_runs.get? (runIdentity run.task_id k) = some other ∧
        other.task_id = run.task_id ∧ other.attempt = k := by
    intro id run hrun k hk hle
    obtain ⟨other, hother, htask, hattempt⟩ := h.consecutive id run hrun k hk hle
    obtain ⟨other', hother', htask', hattempt'⟩ := SameRuns.attempt hsame hother htask hattempt
    exact ⟨other', hold _ other' (hnever _ other' hother') hother', htask', hattempt'⟩
  have hcases : ∀ id run', db'.agent_runs.get? id = some run' →
      (id = runIdentity input.task_id (db.nextAttempt input.task_id) ∧
        run' = newRun input (db.nextAttempt input.task_id)) ∨
      ∃ run, db.agent_runs.get? id = some run ∧ run'.task_id = run.task_id ∧
        run'.phase_id = run.phase_id ∧ run'.attempt = run.attempt := by
    intro id run' hrun'
    rw [hruns, OrdMap.get?_set] at hrun'
    split at hrun'
    case isTrue hid => exact .inl ⟨hid.symm, (Option.some.inj hrun').symm⟩
    case isFalse => exact .inr (hsame.back id run' hrun')
  constructor
  · intro id run' hrun'
    rcases hcases id run' hrun' with ⟨rfl, rfl⟩ | ⟨run, hrun, htask, -, hattempt⟩
    · exact ⟨rfl, hone⟩
    · rw [htask, hattempt]
      exact h.identity id run hrun
  · intro id run' hrun' k hk hle
    rcases hcases id run' hrun' with ⟨rfl, rfl⟩ | ⟨run, hrun, htask, -, hattempt⟩
    · change k ≤ db.nextAttempt input.task_id at hle
      by_cases hlast : k = db.nextAttempt input.task_id
      · subst hlast
        exact ⟨_, hrun', rfl, rfl⟩
      · obtain ⟨prior_id, prior, hprior, htask, hnext⟩ := hprevious (by omega)
        have hstep := hnumber prior_id prior hprior k hk (by omega)
        rw [htask] at hstep
        exact hstep
    · rw [hattempt] at hle
      rw [htask]
      exact hnumber id run hrun k hk hle
  · intro id run' hrun'
    rcases hcases id run' hrun' with ⟨rfl, rfl⟩ | ⟨run, hrun, -, hphase, -⟩
    · refine ⟨_, by rw [hreservations, OrdMap.get?_set_self], rfl, rfl⟩
    · obtain ⟨old, hrow, hid, hphase'⟩ := h.reservation id run hrun
      have hne : reservationId (runIdentity input.task_id (db.nextAttempt input.task_id)) ≠
          reservationId id := by
        intro heq
        rw [heq, hrow] at hfresh
        cases hfresh
      refine ⟨old, ?_, hid, hphase'.trans hphase.symm⟩
      rw [hreservations, OrdMap.get?_set_ne _ _ hne]
      exact hrow

end

/-- **The attempts of a task** are numbered from one without a gap, no two have one number, each has
its own reservation in its phase, and at most one of them is not finished. -/
theorem attempts_of_task (db : Database) (hfresh : db.agent_runs = .empty) (ops : List Op) :
    Numbered (run step db ops) ∧
      (∀ id id' row row', (run step db ops).agent_runs.get? id = some row →
        (run step db ops).agent_runs.get? id' = some row' → row.task_id = row'.task_id →
        row.attempt = row'.attempt → id = id') ∧
      ∀ id id' row row', (run step db ops).agent_runs.get? id = some row →
        (run step db ops).agent_runs.get? id' = some row' → row.task_id = row'.task_id →
        row.state.isTerminal = false → row'.state.isTerminal = false → id = id' := by
  have hempty : ∀ id row, db.agent_runs.get? id ≠ some row := by
    intro id row hrow
    rw [hfresh] at hrow
    cases hrow
  have hnumbered : Numbered (run step db ops) := by
    refine run_induct' (fun db op hbefore => ?_)
      ⟨fun id row hrow => absurd hrow (hempty id row), fun id row hrow => absurd hrow (hempty id row),
        fun id row hrow => absurd hrow (hempty id row)⟩ ops
    refine commit_induct hbefore fun db' hok => ?_
    rcases perform_books op db' hok with ⟨input, gates, -, hscheduled⟩ | hkept
    · exact numbered_scheduled hbefore hscheduled
    · exact numbered_kept hbefore hkept
  have hopen := Attempts.openIsCurrent hfresh ops
  refine ⟨hnumbered, fun id id' row row' hrow hrow' htask hattempt => ?_,
    fun id id' row row' hrow hrow' htask hstate hstate' => ?_⟩
  · have hid := (hnumbered.identity id row hrow).1
    have hid' := (hnumbered.identity id' row' hrow').1
    rw [hid, hid', htask, hattempt]
  · have hcurrent := (hopen id row hrow hstate).designated_run_id
    have hcurrent' := (hopen id' row' hrow' hstate').designated_run_id
    rw [htask, hcurrent'] at hcurrent
    exact (Option.some.inj hcurrent).symm

theorem attempts_of_task_givenUp : ∃ row, (run step oneTask (givenUp ++
    [.prepareRetry ⟨"task", "run:task:1", some 50, none⟩, attempt (some "run:task:1")])).agent_runs.get?
      (runIdentity "task" 1) = some row ∧ row.task_id = "task" ∧ row.attempt = 1 :=
  (attempts_of_task oneTask rfl (givenUp ++ [.prepareRetry ⟨"task", "run:task:1", some 50, none⟩,
    attempt (some "run:task:1")])).1.consecutive "run:task:2"
      { newRun ⟨"project", "phase", "task", "assignment", "runner", 0, some "run:task:1", "launch", 0,
          false, 0⟩ 2 with state := .created } (by decide +kernel) 1 le_rfl (by decide)

/-! ### Events -/

/-- An event that was seen before is refused, or answered as a duplicate. -/
theorem step_seen {event : RunnerEvent} {here : Elsewhere} (h : db.runner_events.has event.key = true) :
    step db (.event event here) = db := by
  refine commit_induct (P := fun db' => db' = db) rfl fun db' hok => ?_
  obtain ⟨⟨reply, db''⟩, happly, rfl⟩ := map_eq_ok.mp hok
  cases apply_ok happly with
  | duplicate _ => rfl
  | ignored _ => rfl
  | quiet hnew =>
    rw [h] at hnew
    cases hnew
  | ack id state detail row _ hnew =>
    rw [h] at hnew
    cases hnew
  | report run_id s _ hnew =>
    rw [h] at hnew
    cases hnew

theorem step_keepsEvents (db : Database) (op : Op) :
    KeepsEvents db.runner_events (step db op).runner_events := by
  refine commit_induct (P := fun db' : Database => KeepsEvents db.runner_events db'.runner_events)
    (.refl _) fun db' hok => ?_
  rcases perform_books op db' hok with ⟨input, gates, -, hscheduled⟩ | hkept
  · rw [hscheduled.events]
    exact .refl _
  · exact hkept.events

theorem applied_recorded {event : RunnerEvent} {here : Elsewhere}
    (h : db.apply event here = .ok (.applied, db')) : db'.runner_events.has event.key = true := by
  have hrecord : ∀ (mid : Database) (run_id : Option String),
      (mid.record event run_id).runner_events.has event.key = true := by
    intro mid run_id
    rw [OrdMap.has_iff]
    exact OrdMap.mem_keys_set.mpr (.inl rfl)
  cases apply_ok h with
  | quiet _ => exact hrecord db none
  | ack id state detail row _ _ _ _ hack =>
    obtain ⟨-, ⟨rfl, -⟩ | ⟨terminal, mid, -, -, -, rfl⟩⟩ := applyCommandAck_ok hack
    · exact hrecord _ _
    · exact hrecord _ _
  | report run_id s _ _ _ _ hreport =>
    obtain ⟨-, -, s', terminal, budget, -, -, rfl⟩ := applyRunEvent_ok hreport
    exact hrecord _ _

/-- **An event is applied once.** After an event was applied, one with the same runner, generation and
number changes nothing, whenever it comes and whatever it says. -/
theorem events_once (db db' : Database) (ops more : List Op) (event again : RunnerEvent)
    (here there : Elsewhere) (happlied : (run step db ops).apply event here = .ok (.applied, db'))
    (hkey : again.key = event.key) :
    run step db' (more ++ [.event again there]) = run step db' more := by
  have hseen : (run step db' more).runner_events.has event.key = true := by
    refine run_induct' (I := fun db : Database => db.runner_events.has event.key = true)
      (fun db op h => step_keepsEvents db op event.key h) (applied_recorded happlied) more
  rw [run_concat]
  exact step_seen (hkey ▸ hseen)

theorem events_once_started : ∃ db', (run step oneTask (attempt none :: sent "run:task:1")).apply
      ⟨1, "runner", 0, "launch", some "dispatch:dispatch-job:run:task:1", 1,
        .run_status "run:task:1" .started none⟩ calm = .ok (.applied, db') ∧
    run step db' ([.expireDispatch "run:task:1" 9] ++
        [.event ⟨1, "runner", 0, "launch", none, 7, .heartbeat⟩ calm]) =
      run step db' [.expireDispatch "run:task:1" 9] := by
  have happlied : ∃ db', (run step oneTask (attempt none :: sent "run:task:1")).apply
      ⟨1, "runner", 0, "launch", some "dispatch:dispatch-job:run:task:1", 1,
        .run_status "run:task:1" .started none⟩ calm = .ok (.applied, db') := by
    have hreply : ((run step oneTask (attempt none :: sent "run:task:1")).apply
        ⟨1, "runner", 0, "launch", some "dispatch:dispatch-job:run:task:1", 1,
          .run_status "run:task:1" .started none⟩ calm).toOption.map Prod.fst = some .applied := by
      decide +kernel
    revert hreply
    cases (run step oneTask (attempt none :: sent "run:task:1")).apply
        ⟨1, "runner", 0, "launch", some "dispatch:dispatch-job:run:task:1", 1,
          .run_status "run:task:1" .started none⟩ calm with
    | error abort => exact fun hreply => by cases hreply
    | ok answer =>
      intro hreply
      obtain ⟨reply, db'⟩ := answer
      obtain rfl : reply = .applied := Option.some.inj hreply
      exact ⟨db', rfl⟩
  obtain ⟨db', happlied⟩ := happlied
  exact ⟨db', happlied, events_once oneTask db' (attempt none :: sent "run:task:1")
    [.expireDispatch "run:task:1" 9]
    ⟨1, "runner", 0, "launch", some "dispatch:dispatch-job:run:task:1", 1,
      .run_status "run:task:1" .started none⟩ ⟨1, "runner", 0, "launch", none, 7, .heartbeat⟩ calm calm
    happlied rfl⟩

/-! ### Capacity -/

/-- The run takes one of the project's places. -/
def occupies (project_id : String) (run : AgentRunRow) : Bool :=
  decide (run.project_id = project_id) && isOccupying run

/-- The places that are taken. -/
def taken (project_id : String) (runs : OrdMap String AgentRunRow) : ℤ :=
  runs.sum fun e => if occupies project_id e.2 = true then 1 else 0

theorem projectCount_eq (db : Database) (project_id : String) :
    (db.projectCount project_id : ℤ) = taken project_id db.agent_runs := by
  have hsum := OrdMap.sum_filter_values db.agent_runs (fun run => occupies project_id run = true)
    fun _ => (1 : ℤ)
  simp only [Bool.decide_eq_true, List.map_const', List.sum_replicate, nsmul_eq_mul, mul_one] at hsum
  exact hsum

section

variable {runs : OrdMap String AgentRunRow} {id : String} {run run' : AgentRunRow} {project_id : String}

/-- A run is replaced. -/
theorem taken_set (h : runs.get? id = some run) : taken project_id (runs.set id run') =
    taken project_id runs - (if occupies project_id run = true then 1 else 0) +
      if occupies project_id run' = true then 1 else 0 := by
  unfold taken
  rw [OrdMap.sum_set, h]

theorem taken_new (h : runs.get? id = none) : taken project_id (runs.set id run') =
    taken project_id runs + if occupies project_id run' = true then 1 else 0 := by
  unfold taken
  rw [OrdMap.sum_set, h]
  simp

/-- A run that takes no place it did not take. -/
theorem taken_set_le (h : runs.get? id = some run) (hproject : run'.project_id = run.project_id)
    (hstate : isOccupying run' = true → isOccupying run = true) :
    taken project_id (runs.set id run') ≤ taken project_id runs := by
  have hoccupies : occupies project_id run' = true → occupies project_id run = true := by
    unfold occupies
    rw [hproject, Bool.and_eq_true, Bool.and_eq_true]
    exact fun hboth => ⟨hboth.1, hstate hboth.2⟩
  rw [taken_set h]
  by_cases hnew : occupies project_id run' = true
  · rw [if_pos hnew, if_pos (hoccupies hnew)]
    omega
  · rw [if_neg hnew]
    split <;> omega

theorem taken_supersede (prior_id : Option String) (at_ : ℕ) :
    taken project_id (db.supersede prior_id at_).agent_runs ≤ taken project_id db.agent_runs := by
  unfold supersede
  split
  · exact le_rfl
  · split
    · exact le_rfl
    · rename_i hrun
      exact taken_set_le hrun rfl id

end

/-- An answered wait finds a free place in its project. -/
def FindsPlace (db : Database) : Op → Prop
  | .provision input _ => ∀ s ∈ db.scope? input.run_id, ∀ project ∈ db.projects.get? s.run.project_id,
      db.projectCount s.run.project_id < project.max_concurrent_tasks
  | _ => True

instance (db : Database) : (op : Op) → Decidable (FindsPlace db op)
  | .provision input _ => inferInstanceAs (Decidable (∀ s ∈ db.scope? input.run_id, ∀ _ ∈ _, _))
  | .event .. | .claim .. | .deliver .. | .retryJob .. | .deadLetter .. | .schedule .. | .prepareRetry ..
  | .expireWait .. | .expireDispatch .. | .complete .. => isTrue trivial

/-- Every project has room for the runs that take its places. -/
def Roomy (db : Database) : Prop :=
  ∀ id project, db.projects.get? id = some project → db.projectCount id ≤ project.max_concurrent_tasks

theorem roomy_kept (h : Roomy db) (hplace : FindsPlace db op) (hkept : Kept db op db') : Roomy db' := by
  intro id project hproject
  rw [hkept.projects] at hproject
  have hbefore := h id project hproject
  have htaken := projectCount_eq db id
  have htaken' := projectCount_eq db' id
  have hruns := hkept.runs
  generalize db'.agent_runs = runs at hruns htaken'
  cases hruns with
  | same => omega
  | moved run_id s s' found follows =>
    have hle : taken id _ ≤ taken id _ := taken_set_le (scope?_some found).1 follows.project_id follows.occupying
    omega
  | resumed input gates s provision found =>
    subst provision
    rw [taken_set (scope?_some found).1] at htaken'
    by_cases hid : s.run.project_id = id
    · subst hid
      have hfree : db.projectCount s.run.project_id < project.max_concurrent_tasks :=
        hplace s found project hproject
      split_ifs at htaken' <;> omega
    · have hnot : occupies id (resumed s input).run = false := by
        simp [occupies, resumed, hid]
      rw [hnot] at htaken'
      simp only [Bool.false_eq_true, if_false] at htaken'
      split_ifs at htaken' <;> omega

/-- **A scheduled attempt** found a place. -/
theorem roomy_scheduled {input : ScheduleInput} (h : Roomy db) (hscheduled : Scheduled db input db') :
    Roomy db' := by
  obtain ⟨row, hadmitted, -, -⟩ := hscheduled.admitted
  have hfree : db.projectCount input.project_id < row.project.max_concurrent_tasks := by
    have hcapacity := hadmitted.capacity
    unfold capacityGate at hcapacity
    obtain ⟨hroom, -⟩ := refuse_bind_ok.mp hcapacity
    omega
  have hrow : db.projects.get? input.project_id = some row.project := by
    have hfound := hadmitted.found
    unfold schedulingRow? at hfound
    simp only [Option.bind_eq_bind, Option.bind_eq_some_iff] at hfound
    obtain ⟨task, -, phase, -, project, hproject, assignment, -, profile, -, _, -, hrow⟩ := hfound
    cases hrow
    exact hproject
  intro id project hproject
  rw [hscheduled.projects] at hproject
  have hbefore := h id project hproject
  have htaken := projectCount_eq db id
  have htaken' := projectCount_eq db' id
  have hsupersede : taken id (db.supersede input.supersedes_run_id input.issued_at).agent_runs ≤
      taken id db.agent_runs := taken_supersede _ _
  rw [hscheduled.runs, taken_new hscheduled.new] at htaken'
  by_cases hid : input.project_id = id
  · subst hid
    rw [hrow] at hproject
    obtain rfl := Option.some.inj hproject
    split_ifs at htaken' <;> omega
  · have hnot : occupies id (newRun input (db.nextAttempt input.task_id)) = false := by
      simp [occupies, newRun, hid]
    rw [hnot] at htaken'
    simp only [Bool.false_eq_true, if_false] at htaken'
    omega

/-- **A project never runs more attempts at once than it may**, as long as an answered wait finds a free
place. -/
theorem capacity_held (db : Database) (h : Roomy db) (ops : List Op) (hplaces : Along step FindsPlace db ops) :
    Roomy (run step db ops) := by
  refine run_induct (fun db op hroomy hplace => ?_) h hplaces
  refine commit_induct hroomy fun db' hok => ?_
  rcases perform_books op db' hok with ⟨input, gates, -, hscheduled⟩ | hkept
  · exact roomy_scheduled hroomy hscheduled
  · exact roomy_kept hroomy hplace hkept

/-- An attempt waits for a human, and the answer finds its place free. -/
def answered : List Op :=
  attempt none :: sent "run:task:1" ++ [report "run:task:1" 1 (.run_status "run:task:1" .started none),
    report "run:task:1" 2 (.human_wait_requested "run:task:1"),
    .provision ⟨"run:task:1", "resume", "resume-job", "runner", 0, "launch", 3, false⟩ true]

theorem capacity_held_oneTask : (run step oneTask answered).projectCount "project" ≤ 1 :=
  capacity_held oneTask (fun id project _ => by
    have hnone : oneTask.projectCount id = 0 := rfl
    rw [hnone]
    exact Nat.zero_le _) answered (by decide +kernel) "project" ⟨1⟩ (by decide +kernel)

end Norns.Coordinator.Limits
