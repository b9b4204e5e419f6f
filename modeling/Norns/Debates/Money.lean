import Norns.Debates.Drivable
import Norns.Lib.Shares

/-! # The money of a debate run

What a run and its actors have committed stays within their budgets, as long as no call costs more
than the charge that was frozen for it. A reservation that is settled or released is final, and what a
provider reports of a call is recorded once and settled at its own cost.

* `Budget`, `Within`: the two kinds of budgets;
* `budgets_hold`, `reservations_balanced`, `usage_settled`: the runs. -/

namespace Norns.Debates

open Norns.Lib Norns.Lib.Run Norns.Lib.Shares Norns.Lib.Transaction

/-! ### Reservations -/

namespace ReservationRow

/-- **The columns of a reservation.** Its parts add up to its amount once it is resolved. -/
structure Balanced (row : ReservationRow) : Prop where
  amount : 0 ≤ row.amount_usd
  released : 0 ≤ row.released_usd
  retained : 0 ≤ row.retained_usd
  unspent : row.status = .active ∨ row.status = .retained_ambiguous →
    row.settled_usd = 0 ∧ row.released_usd = 0
  resolved : row.status ≠ .active → row.settled_usd + row.released_usd + row.retained_usd =
    row.amount_usd
  kept : row.status ≠ .retained_ambiguous → row.retained_usd = 0

/-- It never changes again. -/
def Final (row : ReservationRow) : Prop := row.status = .settled ∨ row.status = .released

variable {row row' : ReservationRow}

theorem Balanced.fresh {amount : ℚ} (h : 0 ≤ amount) :
    Balanced { amount_usd := amount } where
  amount := h
  released := le_rfl
  retained := le_rfl
  unspent _ := ⟨rfl, rfl⟩
  resolved hactive := absurd rfl hactive
  kept _ := rfl

/-- What an active or retained reservation has committed is its amount. -/
theorem Balanced.committed_unspent (h : row.Balanced)
    (hstatus : row.status = .active ∨ row.status = .retained_ambiguous) :
    row.committed = row.amount_usd := by
  obtain ⟨hsettled, hreleased⟩ := h.unspent hstatus
  unfold committed
  rcases hstatus with hactive | hretained
  · have hkept : row.retained_usd = 0 := h.kept (by rw [hactive]; decide)
    rw [if_pos hactive, hsettled, hkept]
    ring
  · have hparts := h.resolved (by rw [hretained]; decide)
    rw [if_neg (by rw [hretained]; decide)]
    linarith

theorem Balanced.resolve {P : Prop} (h : row.Balanced) (hactive : row.status = .active)
    (hresolved : row.Resolved P row') (hP : P) : row'.Balanced := by
  obtain ⟨hsettled, hreleased⟩ := h.unspent (.inl hactive)
  have hkept : row.retained_usd = 0 := h.kept (by rw [hactive]; decide)
  have hamount := h.amount
  cases hresolved with
  | settled cost quoted =>
    have hcost := quoted hP
    refine ⟨hamount, ?_, le_rfl, fun hunspent => ?_, fun _ => ?_, fun _ => rfl⟩
    · change 0 ≤ row.amount_usd - cost
      linarith
    · rcases hunspent with hstatus | hstatus <;> cases hstatus
    · change cost + (row.amount_usd - cost) + 0 = row.amount_usd
      ring
  | released =>
    refine ⟨hamount, hamount, h.retained, fun hunspent => ?_, fun _ => ?_, fun _ => hkept⟩
    · rcases hunspent with hstatus | hstatus <;> cases hstatus
    · change row.settled_usd + row.amount_usd + row.retained_usd = row.amount_usd
      rw [hsettled, hkept]
      ring
  | retained =>
    refine ⟨hamount, h.released, hamount, fun _ => ⟨hsettled, hreleased⟩, fun _ => ?_, fun hne => ?_⟩
    · change row.settled_usd + row.released_usd + row.amount_usd = row.amount_usd
      rw [hsettled, hreleased]
      ring
    · exact absurd rfl hne
  | assumed =>
    refine ⟨hamount, h.released, le_rfl, fun hunspent => ?_, fun _ => ?_, fun _ => rfl⟩
    · rcases hunspent with hstatus | hstatus <;> cases hstatus
    · change row.amount_usd + row.released_usd + 0 = row.amount_usd
      rw [hreleased]
      ring

/-- The full charge of a retained reservation is assumed. -/
theorem Balanced.reconcile (h : row.Balanced) :
    (row.updateIf .retained_ambiguous .assume).Balanced := by
  by_cases hretained : row.status = .retained_ambiguous
  · obtain ⟨-, hreleased⟩ := h.unspent (.inr hretained)
    rw [updateIf_of_status hretained]
    refine ⟨h.amount, h.released, le_rfl, fun hunspent => ?_, fun _ => ?_, fun _ => rfl⟩
    · rcases hunspent with hstatus | hstatus <;> cases hstatus
    · change row.amount_usd + row.released_usd + 0 = row.amount_usd
      rw [hreleased]
      ring
  · rw [updateIf_of_ne hretained]
    exact h

theorem Balanced.cancel (h : row.Balanced) : (row.updateIf .active .release).Balanced := by
  by_cases hactive : row.status = .active
  · rw [updateIf_of_status hactive]
    exact h.resolve (P := True) hactive .released trivial
  · rw [updateIf_of_ne hactive]
    exact h

/-- No reservation has committed more than its amount. -/
theorem Balanced.committed_le (h : row.Balanced) : row.committed ≤ row.amount_usd := by
  by_cases hunspent : row.status = .active ∨ row.status = .retained_ambiguous
  · exact (h.committed_unspent hunspent).le
  · push Not at hunspent
    have hparts := h.resolved hunspent.1
    have hreleased := h.released
    unfold committed
    rw [if_neg hunspent.1]
    linarith

theorem committed_reconcile (h : row.Balanced) :
    (row.updateIf .retained_ambiguous .assume).committed = row.committed := by
  by_cases hretained : row.status = .retained_ambiguous
  · have hamount := h.committed_unspent (.inr hretained)
    rw [updateIf_of_status hretained, hamount]
    change row.amount_usd + 0 + 0 = row.amount_usd
    ring
  · rw [updateIf_of_ne hretained]

theorem committed_cancel (h : row.Balanced) :
    (row.updateIf .active .release).committed ≤ row.committed := by
  by_cases hactive : row.status = .active
  · have hamount := h.committed_unspent (.inl hactive)
    obtain ⟨hsettled, -⟩ := h.unspent (.inl hactive)
    have hkept : row.retained_usd = 0 := h.kept (by rw [hactive]; decide)
    rw [updateIf_of_status hactive, hamount]
    change row.settled_usd + row.retained_usd + 0 ≤ row.amount_usd
    have hnonneg := h.amount
    linarith
  · rw [updateIf_of_ne hactive]

end ReservationRow

/-! ### Budgets -/

/-- The budgets of a run: its own, and that of each actor. -/
inductive Budget (c : RunConfig) : (Actor → Bool) → ℚ → Prop
  | run : Budget c (fun _ => true) c.debate.stopping_policy.max_total_cost_usd
  | actor (actor : Actor) (mem : actor ∈ c.debate.actors) :
      Budget c (fun other => decide (other.id = actor.id)) actor.budget_limit_usd

/-- What the turns of some actors have committed. -/
def spent (own : Actor → Bool) (attempts : List AttemptRow) : ℚ :=
  share (fun attempt => own attempt.actor) (fun attempt => attempt.reservation.committed) attempts

theorem committed_eq (db : RunDb) : db.committed = spent (fun _ => true) db.attempts :=
  (share_true db.attempts).symm

theorem actorCommitted_eq (db : RunDb) (id : String) :
    db.actorCommitted id = spent (fun actor => decide (actor.id = id)) db.attempts := rfl

/-- The money of a run is in order. -/
structure Within (c : RunConfig) (db : RunDb) : Prop where
  inv : Inv c db
  balanced : ∀ attempt ∈ db.attempts, attempt.reservation.Balanced
  budget : ∀ (own : Actor → Bool) (limit : ℚ), Budget c own limit →
    spent own db.attempts ≤ limit

section

variable {c : RunConfig} {db db' : RunDb} {op : Op} {own : Actor → Bool}
  {limit : ℚ} {attempts : List AttemptRow} {actor : Actor} {amount : ℚ}

/-- The budgets of an actor cover what is affordable for it. -/
theorem Affordable.budget (h : Affordable c attempts actor amount) (hbudget : Budget c own limit)
    (hown : own actor = true) : spent own attempts + amount ≤ limit := by
  cases hbudget with
  | run =>
    unfold spent
    rw [share_true]
    exact h.run
  | actor other hmem =>
    have hid : actor.id = other.id := of_decide_eq_true hown
    obtain rfl : actor = other := List.inj_on_of_nodup_map c.debate.ids_nodup h.mem hmem hid
    exact h.own

/-- No budget is negative. -/
theorem Budget.nonneg (h : Budget c own limit) (hc : c.Frozen) (hrun : 0 ≤
    c.debate.stopping_policy.max_total_cost_usd) : 0 ≤ limit := by
  cases h with
  | run => exact hrun
  | actor actor hmem =>
    obtain ⟨snapshot, hsnapshot, -, -, hcovers⟩ := hc.snapshot actor hmem
    exact (hc.charge actor hmem snapshot hsnapshot).trans hcovers

/-- What a row has committed of a budget. -/
def AttemptRow.spends (own : Actor → Bool) (attempt : AttemptRow) : ℚ :=
  if own attempt.actor then attempt.reservation.committed else 0

theorem spent_set {i : ℕ} {attempt attempt' : AttemptRow} (h : attempts[i]? = some attempt) :
    spent own (attempts.set i attempt') + attempt.spends own =
      spent own attempts + attempt'.spends own := share_set h

theorem spent_concat (attempt : AttemptRow) :
    spent own (attempts ++ [attempt]) = spent own attempts + attempt.spends own :=
  share_concat attempts attempt

theorem spent_map_le {f : AttemptRow → AttemptRow} (h : ∀ a ∈ attempts, (f a).spends own ≤ a.spends own) :
    spent own (attempts.map f) ≤ spent own attempts := share_map_le h

/-- A row whose reservation has committed no more adds no more. -/
theorem spends_le {attempt attempt' : AttemptRow} (hactor : attempt'.actor = attempt.actor)
    (h : attempt'.reservation.committed ≤ attempt.reservation.committed) :
    attempt'.spends own ≤ attempt.spends own := by
  unfold AttemptRow.spends
  rw [hactor]
  split
  · exact h
  · exact le_rfl

/-- **A turn is opened** within the budgets. -/
theorem Affordable.spent_le {turn attempt_number : ℕ} (h : Affordable c attempts actor amount)
    (hbudget : Budget c own limit) (hold : spent own attempts ≤ limit) :
    spent own (attempts ++ [{ turn, attempt_number, actor, reservation := { amount_usd := amount } }]) ≤
      limit := by
  rw [spent_concat]
  unfold AttemptRow.spends
  by_cases hown : own actor = true
  · have hcommitted : ReservationRow.committed { amount_usd := amount } = amount := by
      simp [ReservationRow.committed]
    rw [if_pos hown, hcommitted]
    exact h.budget hbudget hown
  · rw [if_neg hown, add_zero]
    exact hold

/-! ### Steps -/

theorem Affordable.amount_nonneg (h : Affordable c attempts actor amount) (hc : c.Frozen) :
    0 ≤ amount := by
  obtain ⟨snapshot, hsnapshot, -⟩ := hc.snapshot actor h.mem
  rw [h.snapshot snapshot hsnapshot]
  exact hc.charge actor h.mem snapshot hsnapshot

def AllBalanced (attempts : List AttemptRow) : Prop := ∀ attempt ∈ attempts, attempt.reservation.Balanced

theorem AllBalanced.set {i : ℕ} {attempt : AttemptRow} (h : AllBalanced attempts)
    (hrow : attempt.reservation.Balanced) : AllBalanced (attempts.set i attempt) := by
  intro a ha
  rcases List.mem_or_eq_of_mem_set ha with hold | rfl
  · exact h a hold
  · exact hrow

theorem AllBalanced.concat {turn attempt_number : ℕ} (h : AllBalanced attempts) (hamount : 0 ≤ amount) :
    AllBalanced
      (attempts ++ [{ turn, attempt_number, actor, reservation := { amount_usd := amount } }]) := by
  intro a ha
  rcases List.mem_append.mp ha with hold | hnew
  · exact h a hold
  · rw [List.mem_singleton.mp hnew]
    exact .fresh hamount

theorem AllBalanced.map {f : AttemptRow → AttemptRow} (h : AllBalanced attempts)
    (hf : ∀ a, a.reservation.Balanced → (f a).reservation.Balanced) : AllBalanced (attempts.map f) := by
  intro a ha
  obtain ⟨old, hold, rfl⟩ := List.mem_map.mp ha
  exact hf old (h old hold)

theorem AllBalanced.settleRetained (h : AllBalanced db.attempts) :
    AllBalanced db.settleRetained.attempts := by
  rcases settleRetained_cases db with hsame | hresolved
  · rw [hsame]
    exact h
  · rw [hresolved]
    exact h.map fun a hbalanced => hbalanced.reconcile

theorem Within.moved_balanced (hc : c.Frozen) (h : Within c db) (hmoved : Moved c db op db')
    (hpriced : Priced c db op) : AllBalanced db'.attempts := by
  have hrow : ∀ {i : ℕ} {attempt : AttemptRow}, db.attempts[i]? = some attempt →
      attempt.reservation.Balanced := fun hget => h.balanced _ (List.mem_of_getElem? hget)
  cases hmoved with
  | frame attempts =>
    rw [attempts]
    exact h.balanced
  | leased i attempt token row queued attempts =>
    rw [attempts]
    have hbalanced := hrow row
    exact AllBalanced.set h.balanced hbalanced
  | closed i attempt job reservation st row leased ends resolved attempts =>
    rw [attempts]
    have hactive := h.inv.active row leased
    exact AllBalanced.set h.balanced ((hrow row).resolve hactive resolved hpriced)
  | advanced i attempt event actor round_number amount row leased recorded quoted attempts affordable =>
    rw [attempts]
    have hactive := h.inv.active row leased
    have hset : AllBalanced (db.attempts.set i (attempt.close .succeeded
        (attempt.reservation.settle event.cost_usd))) :=
      AllBalanced.set h.balanced ((hrow row).resolve hactive (.settled event.cost_usd quoted) hpriced)
    exact hset.concat (affordable.amount_nonneg hc)
  | replaced i attempt row leased attempts =>
    rw [attempts]
    have hactive := h.inv.active row leased
    have hset : AllBalanced (db.attempts.set i (attempt.close .failed attempt.reservation.release)) :=
      AllBalanced.set h.balanced ((hrow row).resolve (P := True) hactive .released trivial)
    exact hset.concat (hrow row).amount
  | resumed waits attempts =>
    rw [attempts]
    exact AllBalanced.settleRetained h.balanced
  | retried t target attempt_number amount row failed attempts affordable =>
    rw [attempts]
    exact (AllBalanced.settleRetained h.balanced).concat (affordable.amount_nonneg hc)
  | cancelling leased attempts =>
    rw [attempts]
    exact AllBalanced.map h.balanced fun a hbalanced => hbalanced.reconcile
  | cancelled free attempts =>
    rw [attempts]
    have hreconciled : AllBalanced (db.resolveAll .retained_ambiguous .assume).attempts :=
      AllBalanced.map h.balanced fun a hbalanced => hbalanced.reconcile
    exact hreconciled.map fun a hbalanced => hbalanced.cancel

theorem spent_settleRetained (h : AllBalanced db.attempts) :
    spent own db.settleRetained.attempts ≤ spent own db.attempts := by
  rcases settleRetained_cases db with hsame | hresolved
  · rw [hsame]
  · rw [hresolved]
    exact spent_map_le fun a ha => spends_le rfl (ReservationRow.committed_reconcile (h a ha)).le

/-- A resolved reservation has committed no more than the active one had. -/
theorem spent_resolve {i : ℕ} {attempt : AttemptRow} {job : JobState} {reservation : ReservationRow}
    {P : Prop} (hbalanced : attempt.reservation.Balanced) (hget : attempts[i]? = some attempt)
    (hactive : attempt.reservation.status = .active)
    (hresolved : attempt.reservation.Resolved P reservation) (hP : P) :
    spent own (attempts.set i (attempt.close job reservation)) ≤ spent own attempts := by
  have hle : (attempt.close job reservation).spends own ≤ attempt.spends own := by
    refine spends_le rfl ?_
    have hcommitted := (hbalanced.resolve hactive hresolved hP).committed_le
    rw [hbalanced.committed_unspent (.inl hactive), ← hresolved.amount]
    exact hcommitted
  have hset : spent own (attempts.set i (attempt.close job reservation)) + attempt.spends own =
      spent own attempts + (attempt.close job reservation).spends own := spent_set hget
  linarith

theorem Within.moved_budget (h : Within c db) (hmoved : Moved c db op db') (hpriced : Priced c db op)
    (hbudget : Budget c own limit) : spent own db'.attempts ≤ limit := by
  have hrow : ∀ {i : ℕ} {attempt : AttemptRow}, db.attempts[i]? = some attempt →
      attempt.reservation.Balanced := fun hget => h.balanced _ (List.mem_of_getElem? hget)
  have hold := h.budget own limit hbudget
  cases hmoved with
  | frame attempts =>
    rw [attempts]
    exact hold
  | leased i attempt token row queued attempts =>
    rw [attempts]
    have hset : spent own (db.attempts.set i { attempt with job := .leased, lease_token := some token }) +
        attempt.spends own = spent own db.attempts +
          AttemptRow.spends own { attempt with job := .leased, lease_token := some token } := spent_set row
    have hsame : AttemptRow.spends own { attempt with job := .leased, lease_token := some token } =
        attempt.spends own := rfl
    linarith
  | closed i attempt job reservation st row leased ends resolved attempts =>
    rw [attempts]
    have hactive := h.inv.active row leased
    exact (spent_resolve (hrow row) row hactive resolved hpriced).trans hold
  | advanced i attempt event actor round_number amount row leased recorded quoted attempts affordable =>
    rw [attempts]
    have hactive := h.inv.active row leased
    have hresolved : spent own (db.attempts.set i (attempt.close .succeeded
        (attempt.reservation.settle event.cost_usd))) ≤ spent own db.attempts :=
      spent_resolve (hrow row) row hactive (.settled event.cost_usd quoted) hpriced
    exact affordable.spent_le hbudget (hresolved.trans hold)
  | replaced i attempt row leased attempts =>
    rw [attempts, spent_concat]
    have hactive := h.inv.active row leased
    have hset : spent own (db.attempts.set i (attempt.close .failed attempt.reservation.release)) +
        attempt.spends own = spent own db.attempts +
          (attempt.close .failed attempt.reservation.release).spends own := spent_set row
    -- the amount that the new reservation takes is the one that the old reservation gives back
    have hmoves : (attempt.close .failed attempt.reservation.release).spends own +
        AttemptRow.spends own { turn := attempt.turn, attempt_number := attempt.attempt_number + 1
                                actor := attempt.actor
                                reservation := { amount_usd := attempt.reservation.amount_usd } } ≤
          attempt.spends own := by
      have hamount := (hrow row).committed_unspent (.inl hactive)
      obtain ⟨hsettled, -⟩ := (hrow row).unspent (.inl hactive)
      have hkept : attempt.reservation.retained_usd = 0 :=
        (hrow row).kept (by rw [hactive]; decide)
      have hreleased : attempt.reservation.release.committed = 0 := by
        change attempt.reservation.settled_usd + attempt.reservation.retained_usd + 0 = 0
        rw [hsettled, hkept]
        ring
      have hfresh : ReservationRow.committed { amount_usd := attempt.reservation.amount_usd } =
          attempt.reservation.amount_usd := by simp [ReservationRow.committed]
      unfold AttemptRow.spends
      change (if own attempt.actor = true then attempt.reservation.release.committed else 0) + _ ≤ _
      split
      · rw [hreleased, hfresh, hamount, zero_add]
      · rw [add_zero]
    linarith
  | resumed waits attempts =>
    rw [attempts]
    exact (spent_settleRetained h.balanced).trans hold
  | retried t target attempt_number amount row failed attempts affordable =>
    rw [attempts]
    exact affordable.spent_le hbudget ((spent_settleRetained h.balanced).trans hold)
  | cancelling leased attempts =>
    rw [attempts]
    refine le_trans (spent_map_le fun a ha => ?_) hold
    exact spends_le rfl (ReservationRow.committed_reconcile (h.balanced a ha)).le
  | cancelled free attempts =>
    rw [attempts]
    have hbalanced : AllBalanced (db.resolveAll .retained_ambiguous .assume).attempts :=
      AllBalanced.map h.balanced fun a hbalanced => hbalanced.reconcile
    have hcancel : spent own (db.resolveAll .retained_ambiguous .assume).cancelQueued.attempts ≤
        spent own (db.resolveAll .retained_ambiguous .assume).attempts :=
      spent_map_le fun a ha => spends_le rfl (ReservationRow.committed_cancel (hbalanced a ha))
    have hreconcile : spent own (db.resolveAll .retained_ambiguous .assume).attempts ≤
        spent own db.attempts :=
      spent_map_le fun a ha => spends_le rfl (ReservationRow.committed_reconcile (h.balanced a ha)).le
    exact hcancel.trans (hreconcile.trans hold)

/-- **A step** whose call costs no more than its charge keeps the money in order. -/
theorem Within.step (hc : c.Frozen) (h : Within c db) (hpriced : Priced c db op) :
    Within c (step c db op) :=
  commit_induct h fun db' hok => by
    have hmoved := apply_moved h.inv hok
    exact ⟨h.inv.moved hmoved, h.moved_balanced hc hmoved hpriced,
      fun own limit hbudget => h.moved_budget hmoved hpriced hbudget⟩

theorem Started.within (hc : c.Frozen) (h : Started c db actor amount) : Within c db := by
  have hinv := h.inv
  obtain ⟨haffordable, rfl, -⟩ := h
  have hamount := haffordable.amount_nonneg hc
  have hrun : 0 ≤ c.debate.stopping_policy.max_total_cost_usd := by
    have hcovers := haffordable.run
    rw [List.map_nil, List.sum_nil, zero_add] at hcovers
    exact hamount.trans hcovers
  have hnone : AllBalanced [] := fun _ hmem => absurd hmem List.not_mem_nil
  refine ⟨hinv, hnone.concat hamount, fun own limit hbudget => ?_⟩
  exact haffordable.spent_le hbudget (hbudget.nonneg hc hrun)

/-! ### Final reservations -/

/-- A reservation that is settled or released stays as it is, with its attempt. -/
theorem Inv.moved_final {i : ℕ} {attempt : AttemptRow} (h : Inv c db) (hmoved : Moved c db op db')
    (hget : db.attempts[i]? = some attempt) (hfinal : attempt.reservation.Final) :
    db'.attempts[i]? = some attempt := by
  have hactive : attempt.reservation.status ≠ .active := by
    rcases hfinal with hstatus | hstatus <;> rw [hstatus] <;> decide
  have hretained : attempt.reservation.status ≠ .retained_ambiguous := by
    rcases hfinal with hstatus | hstatus <;> rw [hstatus] <;> decide
  have hclosed : ¬ attempt.Open := fun hopen => hactive ((h.row hget).active.mpr hopen)
  have hlt : i < db.attempts.length := (List.getElem?_eq_some_iff.mp hget).1
  -- an open row is another one
  have hset : ∀ (j : ℕ) (other other' : AttemptRow), db.attempts[j]? = some other → other.Open →
      (db.attempts.set j other')[i]? = some attempt := by
    intro j other other' hother hopen
    have hne : j ≠ i := by
      rintro rfl
      rw [hget] at hother
      cases hother
      exact hclosed hopen
    rw [List.getElem?_set_ne hne]
    exact hget
  have hkeep : { attempt with
      reservation := attempt.reservation.updateIf .retained_ambiguous .assume } = attempt := by
    rw [updateIf_of_ne hretained]
  have hresolveAll : (db.resolveAll .retained_ambiguous .assume).attempts[i]? = some attempt := by
    change (db.attempts.map _)[i]? = _
    rw [List.getElem?_map, hget]
    exact congrArg some hkeep
  have hsettle : db.settleRetained.attempts[i]? = some attempt := by
    rcases settleRetained_cases db with hsame | hresolved
    · rw [hsame]
      exact hget
    · rw [hresolved]
      exact hresolveAll
  cases hmoved with
  | frame attempts =>
    rw [attempts]
    exact hget
  | leased j other token row queued attempts =>
    rw [attempts]
    exact hset j other _ row (.inl queued)
  | closed j other job reservation st row leased ends resolved attempts =>
    rw [attempts]
    exact hset j other _ row (.inr leased)
  | advanced j other event actor round_number amount row leased recorded quoted attempts =>
    rw [attempts, List.getElem?_append_left (by rw [List.length_set]; exact hlt)]
    exact hset j other _ row (.inr leased)
  | replaced j other row leased attempts =>
    rw [attempts, List.getElem?_append_left (by rw [List.length_set]; exact hlt)]
    exact hset j other _ row (.inr leased)
  | resumed waits attempts =>
    rw [attempts]
    exact hsettle
  | retried t target attempt_number amount row failed attempts =>
    rw [attempts, List.getElem?_append_left (by rw [settleRetained_length]; exact hlt)]
    exact hsettle
  | cancelling leased attempts =>
    rw [attempts]
    exact hresolveAll
  | cancelled free attempts =>
    rw [attempts]
    change ((db.resolveAll .retained_ambiguous .assume).attempts.map _)[i]? = _
    have hqueued : attempt.job ≠ .queued := fun hqueued => hclosed (.inl hqueued)
    rw [List.getElem?_map, hresolveAll, Option.map_some, updateIf_of_ne hactive, if_neg hqueued]

theorem run_final {i : ℕ} {attempt : AttemptRow} (ops : List Op) : ∀ {db : RunDb}, Inv c db →
    db.attempts[i]? = some attempt → attempt.reservation.Final →
      (run (step c) db ops).attempts[i]? = some attempt := by
  induction ops with
  | nil => exact fun _ hget _ => hget
  | cons op ops ih =>
    intro db hinv hget hfinal
    refine ih (hinv.step op) ?_ hfinal
    exact commit_induct (P := fun db' : RunDb => db'.attempts[i]? = some attempt) hget
      fun db' hok => hinv.moved_final (apply_moved hinv hok) hget hfinal

/-! ### Usage -/

/-- The usage rows belong to attempts of their own, which are settled at their costs. -/
structure UsageOk (db : RunDb) : Prop where
  settled : ∀ event ∈ db.usage, ∃ attempt row, db.attempts[event.turn_attempt]? = some attempt ∧
    attempt.reservation = ReservationRow.settle row event.cost_usd
  distinct : (db.usage.map UsageEventRow.turn_attempt).Nodup

/-- One more row, for an attempt that was not settled. -/
theorem UsageOk.record {event : UsageEventRow} {attempt attempt' : AttemptRow} {row : ReservationRow}
    (hinv : Inv c db) (h : UsageOk db) (hmoved : Moved c db op db')
    (husage : db'.usage = db.usage ++ [event])
    (hget : db.attempts[event.turn_attempt]? = some attempt)
    (hactive : attempt.reservation.status = .active)
    (hget' : db'.attempts[event.turn_attempt]? = some attempt')
    (hsettled : attempt'.reservation = ReservationRow.settle row event.cost_usd) : UsageOk db' := by
  have hnew : event.turn_attempt ∉ db.usage.map UsageEventRow.turn_attempt := by
    intro hmem
    obtain ⟨old, hold, hsame⟩ := List.mem_map.mp hmem
    obtain ⟨other, row', hother, hstatus⟩ := h.settled old hold
    rw [hsame, hget] at hother
    cases hother
    rw [hstatus] at hactive
    cases hactive
  constructor
  · intro e he
    rw [husage] at he
    rcases List.mem_append.mp he with hold | hlast
    · obtain ⟨other, row', hother, hstatus⟩ := h.settled e hold
      refine ⟨other, row', hinv.moved_final hmoved hother ?_, hstatus⟩
      rw [hstatus]
      exact .inl rfl
    · obtain rfl := List.mem_singleton.mp hlast
      exact ⟨attempt', row, hget', hsettled⟩
  · rw [husage, List.map_append, List.nodup_append]
    refine ⟨h.distinct, List.nodup_singleton _, fun a ha b hb => ?_⟩
    obtain rfl := List.mem_singleton.mp hb
    rintro rfl
    exact hnew ha

theorem UsageOk.same (hinv : Inv c db) (h : UsageOk db) (hmoved : Moved c db op db')
    (husage : db'.usage = db.usage) : UsageOk db' := by
  constructor
  · intro e he
    rw [husage] at he
    obtain ⟨other, row, hother, hstatus⟩ := h.settled e he
    refine ⟨other, row, hinv.moved_final hmoved hother ?_, hstatus⟩
    rw [hstatus]
    exact .inl rfl
  · rw [husage]
    exact h.distinct

theorem UsageOk.moved (hinv : Inv c db) (h : UsageOk db) (hmoved : Moved c db op db') : UsageOk db' := by
  have hcopy := hmoved
  cases hmoved with
  | frame attempts turns usage => exact h.same hinv hcopy usage
  | leased i attempt token row queued attempts turns usage => exact h.same hinv hcopy usage
  | closed i attempt job reservation st row leased ends resolved attempts turns usage =>
    rcases usage with hsame | ⟨event, husage, rfl, hsettled⟩
    · exact h.same hinv hcopy hsame
    · have hlt := (List.getElem?_eq_some_iff.mp row).1
      have hclosed : db'.attempts[event.turn_attempt]? =
          some (attempt.close job (attempt.reservation.settle event.cost_usd)) := by
        rw [attempts, List.getElem?_set_self hlt, hsettled]
      exact h.record hinv hcopy husage row (hinv.active row leased) hclosed rfl
  | advanced i attempt event actor round_number amount row leased recorded quoted attempts affordable
      turns usage =>
    subst recorded
    have hlt := (List.getElem?_eq_some_iff.mp row).1
    have hclosed : db'.attempts[event.turn_attempt]? = some (attempt.close .succeeded
        (attempt.reservation.settle event.cost_usd)) := by
      rw [attempts, List.getElem?_append_left (by rw [List.length_set]; exact hlt),
        List.getElem?_set_self hlt]
    exact h.record hinv hcopy usage row (hinv.active row leased) hclosed rfl
  | replaced i attempt row leased attempts turns usage => exact h.same hinv hcopy usage
  | resumed waits attempts turns usage => exact h.same hinv hcopy usage
  | retried t target attempt_number amount row failed attempts affordable turns usage =>
    exact h.same hinv hcopy usage
  | cancelling leased attempts turns usage => exact h.same hinv hcopy usage
  | cancelled free attempts turns usage => exact h.same hinv hcopy usage

theorem run_usageOk (ops : List Op) (hinv : Inv c db) (h : UsageOk db) :
    Inv c (run (step c) db ops) ∧ UsageOk (run (step c) db ops) :=
  run_induct' (I := fun db => Inv c db ∧ UsageOk db)
    (fun _ op h => ⟨h.1.step op, commit_induct h.2 fun _ hok => h.2.moved h.1 (apply_moved h.1 hok)⟩)
    ⟨hinv, h⟩ ops

/-- The provider has reported the usage of the call of an attempt whose lease is held. -/
def Reports (db : RunDb) (i : ℕ) (usage : TurnUsage) : Op → Prop
  | .complete j _ _ used _ => j = i ∧ used = usage
  | .fail j token failure _ => j = i ∧ failure.usage = some usage ∧
      ∃ attempt ∈ db.attempts[i]?, attempt.lease_token = some token
  | _ => False

instance (db : RunDb) (i : ℕ) (usage : TurnUsage) : (op : Op) → Decidable (Reports db i usage op)
  | .complete .. => inferInstanceAs (Decidable (_ ∧ _))
  | .fail _ token _ _ =>
    inferInstanceAs (Decidable (_ ∧ _ ∧ ∃ attempt ∈ db.attempts[i]?, attempt.lease_token = some token))
  | .claim .. | .expire .. | .failClaimPreparation .. | .stopAtDeadline .. | .control .. | .intervene .. =>
    isFalse id

/-- What is recorded of a call: its tokens, at the prices that were frozen for its actor. -/
structure Recorded (c : RunConfig) (db : RunDb) (i : ℕ) (usage : TurnUsage) (event : UsageEventRow) :
    Prop where
  attempt : event.turn_attempt = i
  tokens : event.input_tokens = usage.input_tokens ∧ event.output_tokens = usage.output_tokens
  cost : ∃ attempt ∈ db.attempts[i]?, ∃ snapshot ∈ c.snapshot attempt.actor,
    event.cost_usd = snapshot.frozenCostUsd usage.input_tokens usage.output_tokens

theorem advance_usage {round_number : ℕ} {content : String} {now : ℤ} {stopAfter : StopAfter}
    (h : advance c db actor round_number content now stopAfter = .ok db') : db'.usage = db.usage := by
  rcases advance_ok h with ⟨hends, -⟩ | ⟨-, -, next, round, amount, hopens, -⟩
  · exact hends.usage
  · exact hopens.usage

theorem complete_usage {i : ℕ} {token : String} {output : TurnOutput} {usage : TurnUsage} {now : ℤ}
    (h : complete c db i token output usage now = .ok db') :
    ∃ event, Recorded c db i usage event ∧ db'.usage = db.usage ++ [event] := by
  unfold complete at h
  split at h
  case h_1 => cases h
  case h_2 attempt hrow =>
    obtain ⟨_, -, h⟩ := bind_eq_ok.mp h
    split at h
    case h_2 => cases h
    case h_1 turn snapshot hturn hsnapshot =>
      obtain ⟨_, -, h⟩ := bind_eq_ok.mp h
      obtain ⟨_, -, h⟩ := bind_eq_ok.mp h
      refine ⟨⟨i, usage.input_tokens, usage.output_tokens,
        snapshot.frozenCostUsd usage.input_tokens usage.output_tokens⟩,
        ⟨rfl, ⟨rfl, rfl⟩, attempt, hrow, snapshot, hsnapshot, rfl⟩, ?_⟩
      split at h
      case isTrue =>
        obtain ⟨rfl, -⟩ := transition_ok h
        rfl
      case isFalse =>
        obtain ⟨advanced, hadvance, h⟩ := bind_eq_ok.mp h
        have husage : advanced.usage = _ := advance_usage hadvance
        split at h
        case isTrue =>
          obtain ⟨rfl, -⟩ := transition_ok h
          exact husage
        case isFalse =>
          cases h
          exact husage

theorem fail_usage {i : ℕ} {token : String} {failure : Failure} {started : Bool} {usage : TurnUsage}
    {attempt : AttemptRow} (hinv : Inv c db) (hget : db.attempts[i]? = some attempt)
    (htoken : attempt.lease_token = some token) (hreported : failure.usage = some usage)
    (h : fail c db i token failure started = .ok db') :
    ∃ event, Recorded c db i usage event ∧ db'.usage = db.usage ++ [event] := by
  have hleased := (hinv.row hget).token.mp (by rw [htoken]; simp)
  have hactive := hinv.active hget hleased
  unfold fail at h
  rw [hget] at h
  dsimp only at h
  rw [if_pos htoken] at h
  obtain ⟨⟨known, row, db₁⟩, hknown, h⟩ := bind_eq_ok.mp h
  rcases recordKnownFailureUsage_ok hactive hknown with ⟨hnone, -⟩ |
    ⟨used, snapshot, hused, hsnapshot, -, -, rfl⟩
  · rw [hreported] at hnone
    cases hnone
  · obtain rfl : usage = used := Option.some.inj (hreported.symm.trans hused)
    refine ⟨⟨i, usage.input_tokens, usage.output_tokens,
      snapshot.frozenCostUsd usage.input_tokens usage.output_tokens⟩,
      ⟨rfl, ⟨rfl, rfl⟩, attempt, hget, snapshot, hsnapshot, rfl⟩, ?_⟩
    dsimp only at h
    split at h
    case isTrue =>
      obtain ⟨rfl, -⟩ := transition_ok h
      rfl
    case isFalse =>
      split at h
      case isTrue =>
        cases h
        rfl
      case isFalse =>
        obtain ⟨rfl, -⟩ := transition_ok h
        rfl

/-- **What is reported is recorded**, where the step commits. -/
theorem apply_reports {i : ℕ} {usage : TurnUsage} (hinv : Inv c db) (hreports : Reports db i usage op)
    (h : apply c db op = .ok db') :
    ∃ event, Recorded c db i usage event ∧ db'.usage = db.usage ++ [event] := by
  cases op with
  | complete j token output used now =>
    obtain ⟨rfl, rfl⟩ := hreports
    exact complete_usage h
  | fail j token failure started =>
    obtain ⟨rfl, hreported, attempt, hget, htoken⟩ := hreports
    exact fail_usage hinv hget htoken hreported h
  | _ => exact hreports.elim

/-- The usage rows only grow. -/
theorem Moved.usage_grows (h : Moved c db op db') : db.usage <+: db'.usage := by
  cases h with
  | closed i attempt job reservation st row leased ends resolved attempts turns usage =>
    rcases usage with hsame | ⟨event, husage, -⟩
    · rw [hsame]
    · rw [husage]
      exact List.prefix_append ..
  | advanced i attempt event actor round_number amount row leased recorded quoted attempts affordable
      turns usage =>
    rw [usage]
    exact List.prefix_append ..
  | frame attempts turns usage => rw [usage]
  | leased i attempt token row queued attempts turns usage => rw [usage]
  | replaced i attempt row leased attempts turns usage => rw [usage]
  | resumed waits attempts turns usage => rw [usage]
  | retried t target attempt_number amount row failed attempts affordable turns usage => rw [usage]
  | cancelling leased attempts turns usage => rw [usage]
  | cancelled free attempts turns usage => rw [usage]

theorem run_usage_grows (ops : List Op) : ∀ {db : RunDb}, Inv c db →
    db.usage <+: (run (step c) db ops).usage := by
  induction ops with
  | nil => exact fun _ => List.prefix_rfl
  | cons op ops ih =>
    intro db hinv
    have hstep : db.usage <+: (step c db op).usage :=
      commit_induct (P := fun db' : RunDb => db.usage <+: db'.usage) List.prefix_rfl
        fun db' hok => (apply_moved hinv hok).usage_grows
    exact hstep.trans (ih (hinv.step op))

end

/-! ### Runs -/

instance (c : RunConfig) (db : RunDb) : (op : Op) → Decidable (Priced c db op)
  | .complete i _ _ _ _ => inferInstanceAs (Decidable (∀ attempt ∈ db.attempts[i]?, ∀ _ ∈ _, _))
  | .fail i _ _ _ => inferInstanceAs (Decidable (∀ attempt ∈ db.attempts[i]?, ∀ _ ∈ _, ∀ _ ∈ _, _))
  | .claim .. | .expire .. | .failClaimPreparation .. | .stopAtDeadline .. | .control .. | .intervene .. =>
    isTrue trivial

/-- Of the rows that are told apart by a key, one has this key. -/
theorem filter_key {rows : List UsageEventRow} {event : UsageEventRow}
    (h : (rows.map UsageEventRow.turn_attempt).Nodup) (hmem : event ∈ rows) :
    rows.filter (fun row => decide (row.turn_attempt = event.turn_attempt)) = [event] := by
  induction rows with
  | nil => cases hmem
  | cons row rows ih =>
    rw [List.map_cons, List.nodup_cons] at h
    obtain ⟨hnew, hrest⟩ := h
    rcases List.mem_cons.mp hmem with rfl | hin
    · have hnone : rows.filter (fun row => decide (row.turn_attempt = event.turn_attempt)) = [] := by
        refine List.filter_eq_nil_iff.mpr fun other hother hsame => ?_
        exact hnew (List.mem_map.mpr ⟨other, hother, of_decide_eq_true hsame⟩)
      rw [List.filter_cons_of_pos (by simp), hnone]
    · have hne : row.turn_attempt ≠ event.turn_attempt := by
        intro hsame
        exact hnew (List.mem_map.mpr ⟨event, hin, hsame.symm⟩)
      rw [List.filter_cons_of_neg (by simpa using hne)]
      exact ih hrest hin

section

variable (debate : Debate) (quote : Actor → PricingSnapshot × ℚ) (started_at : ℤ) (maxAttempts : ℕ)
  (sha256 : String → String) (db : RunDb)

theorem run_within (hstart : start (.of debate quote started_at maxAttempts sha256) = .ok db)
    (hquote : ∀ actor ∈ debate.actors, 0 ≤ (quote actor).2) (ops : List Op)
    (hpriced : Along (step (.of debate quote started_at maxAttempts sha256))
      (Priced (.of debate quote started_at maxAttempts sha256)) db ops) :
    Within (.of debate quote started_at maxAttempts sha256)
      (run (step (.of debate quote started_at maxAttempts sha256)) db ops) := by
  have hc := start_frozen hstart hquote
  obtain ⟨first, amount, hstarted⟩ := start_started hc.toOk hstart
  exact run_induct (fun _ op h hp => h.step hc hp) (hstarted.within hc) hpriced

/-- **The budgets hold.** In every state of a run whose calls cost no more than their frozen charges,
what the reservations of the run have settled, retained and still hold is within the budget of the run,
and for each actor within the budget of the actor. -/
theorem budgets_hold (hstart : start (.of debate quote started_at maxAttempts sha256) = .ok db)
    (hquote : ∀ actor ∈ debate.actors, 0 ≤ (quote actor).2) (ops : List Op)
    (hpriced : Along (step (.of debate quote started_at maxAttempts sha256))
      (Priced (.of debate quote started_at maxAttempts sha256)) db ops) :
    (run (step (.of debate quote started_at maxAttempts sha256)) db ops).committed ≤
        debate.stopping_policy.max_total_cost_usd ∧
      ∀ actor ∈ debate.actors,
        (run (step (.of debate quote started_at maxAttempts sha256)) db ops).actorCommitted actor.id ≤
          actor.budget_limit_usd := by
  have h := run_within debate quote started_at maxAttempts sha256 db hstart hquote ops hpriced
  refine ⟨?_, fun actor hmem => ?_⟩
  · rw [committed_eq]
    exact h.budget _ _ .run
  · rw [actorCommitted_eq]
    exact h.budget _ _ (.actor actor hmem)

theorem budgets_hold_two_turns : (run (step exampleRun) exampleDb
    [.claim 0 "t", .complete 0 "t" { content := "first" } ⟨10, 10⟩ 1, .claim 1 "u",
      .expire 1, .control .resume true]).committed ≤ 10 :=
  (budgets_hold exampleDebate (fun _ => (⟨1, 1⟩, 1)) 0 3 id exampleDb (by decide +kernel)
    (fun _ _ => by decide +kernel) _ (by decide +kernel)).1

/-- **Reservations are balanced and final.** In every state of such a run the parts of each resolved
reservation add up to its amount, and one that is settled or released is the same in every later
state, whatever happens then. -/
theorem reservations_balanced (hstart : start (.of debate quote started_at maxAttempts sha256) = .ok db)
    (hquote : ∀ actor ∈ debate.actors, 0 ≤ (quote actor).2) (ops more : List Op)
    (hpriced : Along (step (.of debate quote started_at maxAttempts sha256))
      (Priced (.of debate quote started_at maxAttempts sha256)) db ops) (i : ℕ) (attempt : AttemptRow)
    (hget : (run (step (.of debate quote started_at maxAttempts sha256)) db ops).attempts[i]? =
      some attempt) :
    attempt.reservation.Balanced ∧ (attempt.reservation.Final →
      (run (step (.of debate quote started_at maxAttempts sha256)) db (ops ++ more)).attempts[i]? =
        some attempt) := by
  have h := run_within debate quote started_at maxAttempts sha256 db hstart hquote ops hpriced
  refine ⟨h.balanced attempt (List.mem_of_getElem? hget), fun hfinal => ?_⟩
  rw [run_append]
  exact run_final more h.inv hget hfinal

theorem reservations_balanced_two_turns :
    (run (step exampleRun) exampleDb ([.claim 0 "t", .fail 0 "t" ⟨none, some ⟨10, 10⟩, none⟩ true] ++
      [.control .resume true, .claim 1 "u"])).attempts[0]? =
        (run (step exampleRun) exampleDb
          [.claim 0 "t", .fail 0 "t" ⟨none, some ⟨10, 10⟩, none⟩ true]).attempts[0]? := by
  have h := reservations_balanced exampleDebate (fun _ => (⟨1, 1⟩, 1)) 0 3 id exampleDb
    (by decide +kernel) (fun _ _ => by decide +kernel)
    [.claim 0 "t", .fail 0 "t" ⟨none, some ⟨10, 10⟩, none⟩ true]
    [.control .resume true, .claim 1 "u"] (by decide +kernel) 0
    { turn := 0, attempt_number := 1, actor := ⟨"a", .participant, 5, 1000, 500, 3⟩
      job := .dead_letter, reservation := ⟨1, 1 / 50000, 49999 / 50000, 0, .settled⟩ }
    (by decide +kernel)
  exact (h.2 (.inl rfl)).trans (by decide +kernel)

/-- **Usage is recorded once.** What a provider reports of a call whose lease is held is recorded by the
step that commits it, at the frozen prices; from then on it is the only usage row of its attempt, and
the attempt's reservation stays settled at its cost. -/
theorem usage_settled (hstart : start (.of debate quote started_at maxAttempts sha256) = .ok db)
    (ops more : List Op) (op : Op) (db' : RunDb) (i : ℕ) (usage : TurnUsage)
    (hreports :
      Reports (run (step (.of debate quote started_at maxAttempts sha256)) db ops) i usage op)
    (hok : apply (.of debate quote started_at maxAttempts sha256)
      (run (step (.of debate quote started_at maxAttempts sha256)) db ops) op = .ok db') :
    ∃ event, Recorded (.of debate quote started_at maxAttempts sha256)
        (run (step (.of debate quote started_at maxAttempts sha256)) db ops) i usage event ∧
      (run (step (.of debate quote started_at maxAttempts sha256)) db (ops ++ op :: more)).usage.filter
        (fun row => decide (row.turn_attempt = i)) = [event] ∧
      ∃ attempt row, (run (step (.of debate quote started_at maxAttempts sha256)) db
          (ops ++ op :: more)).attempts[i]? = some attempt ∧
        attempt.reservation = ReservationRow.settle row event.cost_usd := by
  have hc := start_ok hstart
  obtain ⟨first, amount, hstarted⟩ := start_started hc hstart
  have hnone : UsageOk db := by
    obtain ⟨-, rfl, -⟩ := hstarted
    exact ⟨fun _ hmem => absurd hmem List.not_mem_nil, List.nodup_nil⟩
  obtain ⟨hinv, hbefore⟩ := run_usageOk ops hstarted.inv hnone
  obtain ⟨event, hrecorded, husage⟩ := apply_reports hinv hreports hok
  have hstep : step (.of debate quote started_at maxAttempts sha256)
      (run (step (.of debate quote started_at maxAttempts sha256)) db ops) op = db' :=
    step_of_ok hok
  have hinv' : Inv (.of debate quote started_at maxAttempts sha256) db' := hstep ▸ hinv.step op
  have hok' : UsageOk db' := hbefore.moved hinv (apply_moved hinv hok)
  obtain ⟨-, hlater⟩ := run_usageOk more hinv' hok'
  have hmem : event ∈ (run (step (.of debate quote started_at maxAttempts sha256)) db' more).usage := by
    refine (run_usage_grows more hinv').subset ?_
    rw [husage]
    exact List.mem_append_right _ (List.mem_singleton.mpr rfl)
  rw [run_append, run_cons, hstep]
  refine ⟨event, hrecorded, ?_, ?_⟩
  · rw [← hrecorded.attempt]
    exact filter_key hlater.distinct hmem
  · obtain ⟨attempt, row, hget, hsettled⟩ := hlater.settled event hmem
    rw [hrecorded.attempt] at hget
    exact ⟨attempt, row, hget, hsettled⟩

theorem usage_settled_two_turns : ∃ event, (run (step exampleRun) exampleDb
    ([.claim 0 "t"] ++ .fail 0 "t" ⟨none, some ⟨10, 10⟩, none⟩ true ::
      [.control .resume true, .claim 1 "u"])).usage.filter (fun row => decide (row.turn_attempt = 0)) =
        [event] := by
  obtain ⟨event, -, hfilter, -⟩ := usage_settled exampleDebate (fun _ => (⟨1, 1⟩, 1)) 0 3 id exampleDb
    (by decide +kernel) [.claim 0 "t"] [.control .resume true, .claim 1 "u"]
    (.fail 0 "t" ⟨none, some ⟨10, 10⟩, none⟩ true)
    (step exampleRun (run (step exampleRun) exampleDb [.claim 0 "t"])
      (.fail 0 "t" ⟨none, some ⟨10, 10⟩, none⟩ true)) 0 ⟨10, 10⟩ (by decide +kernel) (by decide +kernel)
  exact ⟨event, hfilter⟩

end

end Norns.Debates
