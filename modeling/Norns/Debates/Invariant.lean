import Norns.Debates.Moves

/-! # The invariant of a debate run

* `start_inv`: a run that starts satisfies `Inv`, and its constants are `Ok`;
* `Inv.moved`, `Inv.step`: moves keep it, and so does every step. -/

namespace Norns.Debates

open Norns.Lib Norns.Lib.Run Norns.Lib.Transaction

section

variable {c : RunConfig} {db db' : RunDb} {op : Op} {i : ℕ} {attempt : AttemptRow}

/-! ### Rows -/

theorem ReservationRow.Resolved.amount {P : Prop} {row row' : ReservationRow}
    (h : row.Resolved P row') : row'.amount_usd = row.amount_usd := by
  rcases h <;> rfl

theorem ReservationRow.Resolved.not_active {P : Prop} {row row' : ReservationRow}
    (h : row.Resolved P row') : row'.status ≠ .active := by
  rcases h <;> exact fun hactive => nomatch hactive

theorem RowOk.lease (h : RowOk c attempt) (hqueued : attempt.job = .queued) (token : String) :
    RowOk c { attempt with job := .leased, lease_token := some token } := by
  refine ⟨h.actor, h.amount, ?_, iff_of_true (by simp) rfl⟩
  exact h.active.trans ⟨fun _ => .inr rfl, fun _ => .inl hqueued⟩

theorem RowOk.close {P : Prop} {job : JobState} {reservation : ReservationRow} (h : RowOk c attempt)
    (hends : job ≠ .queued ∧ job ≠ .leased) (hresolved : attempt.reservation.Resolved P reservation) :
    RowOk c (attempt.close job reservation) := by
  refine ⟨h.actor, fun snapshot hsnapshot => ?_, ?_, iff_of_false (fun htoken => htoken rfl) hends.2⟩
  · exact hresolved.amount.trans (h.amount snapshot hsnapshot)
  · exact ⟨fun hactive => absurd hactive hresolved.not_active,
      fun hopen => absurd hopen (close_not_open hends)⟩

theorem RowOk.fresh {actor : Actor} {amount : ℚ} {turn attempt_number : ℕ}
    (hactor : actor ∈ c.debate.actors)
    (hamount : ∀ snapshot ∈ c.snapshot actor, amount = snapshot.maximum_turn_charge_usd) :
    RowOk c { turn, attempt_number, actor, reservation := { amount_usd := amount } } :=
  ⟨hactor, hamount, ⟨fun _ => .inl rfl, fun _ => rfl⟩, iff_of_false (fun htoken => htoken rfl) (by simp)⟩

theorem RowOk.assume (h : RowOk c attempt) : RowOk c
    { attempt with reservation := attempt.reservation.updateIf .retained_ambiguous .assume } := by
  by_cases hretained : attempt.reservation.status = .retained_ambiguous
  · rw [updateIf_of_status hretained]
    refine ⟨h.actor, h.amount, ⟨(fun hactive => nomatch hactive), fun hopen => ?_⟩, h.token⟩
    exact nomatch hretained.symm.trans (h.active.mpr hopen)
  · rw [updateIf_of_ne hretained]
    exact h

theorem RowOk.cancel (h : RowOk c attempt) (hfree : attempt.job ≠ .leased) : RowOk c
    { attempt with
      job := if attempt.job = .queued then .cancelled else attempt.job
      reservation := attempt.reservation.updateIf .active .release } := by
  by_cases hqueued : attempt.job = .queued
  · rw [if_pos hqueued, updateIf_of_status (h.active.mpr (.inl hqueued))]
    refine ⟨h.actor, h.amount, ⟨(fun hactive => nomatch hactive), fun hopen => ?_⟩,
      iff_of_false (fun htoken => ?_) (by simp)⟩
    · exact hopen.elim (fun hjob => nomatch hjob) fun hjob => nomatch hjob
    · exact nomatch hqueued.symm.trans (h.token.mp htoken)
  · have hactive : attempt.reservation.status ≠ .active := fun hactive =>
      (h.active.mp hactive).elim hqueued hfree
    rw [if_neg hqueued, updateIf_of_ne hactive]
    exact h

theorem rows_set {attempts : List AttemptRow} {row : AttemptRow}
    (h : ∀ a ∈ attempts, RowOk c a) (hrow : RowOk c row) : ∀ a ∈ attempts.set i row, RowOk c a := by
  intro a ha
  rcases List.mem_or_eq_of_mem_set ha with hold | rfl
  · exact h a hold
  · exact hrow

theorem rows_concat {attempts : List AttemptRow} {row : AttemptRow}
    (h : ∀ a ∈ attempts, RowOk c a) (hrow : RowOk c row) : ∀ a ∈ attempts ++ [row], RowOk c a := by
  intro a ha
  rcases List.mem_append.mp ha with hold | hnew
  · exact h a hold
  · rw [List.mem_singleton.mp hnew]
    exact hrow

theorem rows_map {attempts : List AttemptRow} {f : AttemptRow → AttemptRow}
    (h : ∀ a ∈ attempts, RowOk c (f a)) : ∀ a ∈ attempts.map f, RowOk c a := by
  intro a ha
  obtain ⟨old, hold, rfl⟩ := List.mem_map.mp ha
  exact h old hold

theorem rows_settleRetained (h : ∀ a ∈ db.attempts, RowOk c a) :
    ∀ a ∈ db.settleRetained.attempts, RowOk c a := by
  rcases settleRetained_cases db with hsame | hresolved
  · rw [hsame]
    exact h
  · rw [hresolved]
    exact rows_map fun a ha => (h a ha).assume

theorem Inv.moved_rows (h : Inv c db) (hmoved : Moved c db op db') :
    ∀ a ∈ db'.attempts, RowOk c a := by
  rcases hmoved with ⟨hattempts⟩ | ⟨i, attempt, token, hrow, hqueued, hattempts⟩ |
    ⟨i, attempt, job, reservation, st, hrow, hleased, hends, hresolved, hattempts⟩ |
    ⟨i, attempt, event, actor, round, amount, hrow, hleased, -, hquoted, hattempts, haffordable⟩ |
    ⟨i, attempt, hrow, hleased, hattempts⟩ | ⟨hwaits, hattempts⟩ |
    ⟨t, target, n, amount, hrow, hfailed, hattempts, haffordable⟩ | ⟨hleased, hattempts⟩ |
    ⟨hfree, hattempts⟩
  all_goals rw [hattempts]
  · exact h.rows
  · exact rows_set h.rows ((h.row hrow).lease hqueued token)
  · exact rows_set h.rows ((h.row hrow).close hends hresolved)
  · refine rows_concat (rows_set h.rows ?_) (.fresh haffordable.mem haffordable.snapshot)
    exact (h.row hrow).close (by decide) (.settled _ hquoted)
  · refine rows_concat (rows_set h.rows ?_) (.fresh (h.row hrow).actor (h.row hrow).amount)
    exact (h.row hrow).close (P := True) (by decide) .released
  · exact rows_settleRetained h.rows
  · exact rows_concat (rows_settleRetained h.rows) (.fresh haffordable.mem haffordable.snapshot)
  · exact rows_map fun a ha => (h.rows a ha).assume
  · show ∀ a ∈ (db.attempts.map _).map _, RowOk c a
    refine rows_map fun a ha => ?_
    obtain ⟨old, hold, rfl⟩ := List.mem_map.mp ha
    exact (h.rows old hold).assume.cancel (hfree old hold)

/-! ### Turns -/

/-- The turns changed at most their states. -/
def SameTurns (turns turns' : List TurnRow) : Prop :=
  ∀ (t : ℕ) (turn' : TurnRow), turns'[t]? = some turn' → ∃ turn : TurnRow, turns[t]? = some turn ∧
    turn'.actor = turn.actor ∧ turn'.designated_attempt = turn.designated_attempt

theorem sameTurns_map {turns : List TurnRow} {f : TurnRow → TurnRow}
    (hf : ∀ turn, (f turn).actor = turn.actor ∧
      (f turn).designated_attempt = turn.designated_attempt) : SameTurns turns (turns.map f) := by
  intro t turn' hturn'
  rw [List.getElem?_map] at hturn'
  obtain ⟨turn, hturn, rfl⟩ := Option.map_eq_some_iff.mp hturn'
  exact ⟨turn, hturn, hf turn⟩

theorem sameTurns_setDesignatedTurns (st : TurnState) :
    SameTurns db.turns (db.setDesignatedTurns i st).turns :=
  sameTurns_map fun turn => by split <;> exact ⟨rfl, rfl⟩

theorem sameTurns_setTurn (t : ℕ) (st : TurnState) : SameTurns db.turns (db.setTurn t st).turns := by
  intro t' turn' hturn'
  change (db.turns.modify t _)[t']? = _ at hturn'
  rw [List.getElem?_modify] at hturn'
  obtain ⟨turn, hturn, rfl⟩ := Option.map_eq_some_iff.mp hturn'
  refine ⟨turn, hturn, ?_⟩
  split <;> exact ⟨rfl, rfl⟩

theorem sameTurns_cancelTurns : SameTurns db.turns db.cancelTurns.turns :=
  sameTurns_map fun turn => by split <;> exact ⟨rfl, rfl⟩

theorem TurnsOk.same (h : TurnsOk c db) (hturns : SameTurns db.turns db'.turns)
    (hlength : db.attempts.length ≤ db'.attempts.length) : TurnsOk c db' := by
  refine ⟨fun turn' hturn' => ?_, fun turn' hturn' => ?_, fun t t' turn turn' hturn hturn' hsame => ?_⟩
  · obtain ⟨t, ht⟩ := List.mem_iff_getElem?.mp hturn'
    obtain ⟨turn, hturn, hactor, -⟩ := hturns t turn' ht
    rw [hactor]
    exact h.actor turn (List.mem_of_getElem? hturn)
  · obtain ⟨t, ht⟩ := List.mem_iff_getElem?.mp hturn'
    obtain ⟨turn, hturn, -, hdesignated⟩ := hturns t turn' ht
    have hlt := h.designated turn (List.mem_of_getElem? hturn)
    omega
  · obtain ⟨old, hold, -, hdesignated⟩ := hturns t turn hturn
    obtain ⟨old', hold', -, hdesignated'⟩ := hturns t' turn' hturn'
    exact h.distinct t t' old old' hold hold' (by rw [← hdesignated, hsame, hdesignated'])

/-- A turn of its own for the new attempt. -/
theorem TurnsOk.concat {turns : List TurnRow} {actor : Actor} {round_number : ℕ} (h : TurnsOk c db)
    (hactor : actor ∈ c.debate.actors) (hsame : SameTurns db.turns turns)
    (hturns : db'.turns = turns ++ [{ round_number, actor, designated_attempt := db.attempts.length }])
    (hlength : db'.attempts.length = db.attempts.length + 1) : TurnsOk c db' := by
  have hcases : ∀ {t : ℕ} {turn' : TurnRow}, db'.turns[t]? = some turn' →
      (∃ turn : TurnRow, db.turns[t]? = some turn ∧ turn'.actor = turn.actor ∧
        turn'.designated_attempt = turn.designated_attempt) ∨
      (t = turns.length ∧ turn'.actor = actor ∧ turn'.designated_attempt = db.attempts.length) := by
    intro t turn' hturn'
    rw [hturns] at hturn'
    rcases lt_trichotomy t turns.length with hlt | rfl | hgt
    · rw [List.getElem?_append_left hlt] at hturn'
      exact .inl (hsame t turn' hturn')
    · rw [List.getElem?_concat_length] at hturn'
      cases hturn'
      exact .inr ⟨rfl, rfl, rfl⟩
    · rw [List.getElem?_eq_none (by simp; omega)] at hturn'
      cases hturn'
  have hold : ∀ {t : ℕ} {turn : TurnRow}, db.turns[t]? = some turn →
      turn.designated_attempt < db.attempts.length :=
    fun hturn => h.designated _ (List.mem_of_getElem? hturn)
  refine ⟨fun turn' hturn' => ?_, fun turn' hturn' => ?_, fun t t' turn turn' hturn hturn' heq => ?_⟩
  · obtain ⟨t, ht⟩ := List.mem_iff_getElem?.mp hturn'
    rcases hcases ht with ⟨turn, hturn, hactor', -⟩ | ⟨-, hactor', -⟩
    · rw [hactor']
      exact h.actor turn (List.mem_of_getElem? hturn)
    · rw [hactor']
      exact hactor
  · obtain ⟨t, ht⟩ := List.mem_iff_getElem?.mp hturn'
    rcases hcases ht with ⟨turn, hturn, -, hdesignated⟩ | ⟨-, -, hdesignated⟩
    · have hlt := hold hturn
      omega
    · omega
  · rcases hcases hturn with ⟨old, hget, -, hdesignated⟩ | ⟨rfl, -, hdesignated⟩
    · have hlt := hold hget
      rcases hcases hturn' with ⟨old', hget', -, hdesignated'⟩ | ⟨-, -, hdesignated'⟩
      · exact h.distinct t t' old old' hget hget' (by rw [← hdesignated, heq, hdesignated'])
      · omega
    · rcases hcases hturn' with ⟨old', hget', -, hdesignated'⟩ | ⟨rfl, -, -⟩
      · have hlt := hold hget'
        omega
      · rfl

/-- The new attempt is designated by a turn that exists. -/
theorem TurnsOk.redesignate {t : ℕ} (h : TurnsOk c db)
    (hturns : db'.turns = db.turns.modify t fun turn =>
      { turn with state := .queued, designated_attempt := db.attempts.length })
    (hlength : db'.attempts.length = db.attempts.length + 1) : TurnsOk c db' := by
  have hcases : ∀ {t' : ℕ} {turn' : TurnRow}, db'.turns[t']? = some turn' →
      ∃ turn : TurnRow, db.turns[t']? = some turn ∧
      turn'.actor = turn.actor ∧ turn'.designated_attempt =
        if t = t' then db.attempts.length else turn.designated_attempt := by
    intro t' turn' hturn'
    rw [hturns, List.getElem?_modify] at hturn'
    obtain ⟨turn, hturn, rfl⟩ := Option.map_eq_some_iff.mp hturn'
    refine ⟨turn, hturn, ?_⟩
    split <;> exact ⟨rfl, rfl⟩
  have hold : ∀ {t : ℕ} {turn : TurnRow}, db.turns[t]? = some turn →
      turn.designated_attempt < db.attempts.length :=
    fun hturn => h.designated _ (List.mem_of_getElem? hturn)
  refine ⟨fun turn' hturn' => ?_, fun turn' hturn' => ?_, fun t₁ t₂ turn turn' hturn hturn' heq => ?_⟩
  · obtain ⟨t', ht'⟩ := List.mem_iff_getElem?.mp hturn'
    obtain ⟨turn, hturn, hactor, -⟩ := hcases ht'
    rw [hactor]
    exact h.actor turn (List.mem_of_getElem? hturn)
  · obtain ⟨t', ht'⟩ := List.mem_iff_getElem?.mp hturn'
    obtain ⟨turn, hturn, -, hdesignated⟩ := hcases ht'
    have hlt := hold hturn
    split at hdesignated <;> omega
  · obtain ⟨old, hget, -, hdesignated⟩ := hcases hturn
    obtain ⟨old', hget', -, hdesignated'⟩ := hcases hturn'
    have hlt := hold hget
    have hlt' := hold hget'
    rw [heq, hdesignated'] at hdesignated
    split at hdesignated
    · split at hdesignated
      · rename_i h₂ h₁
        exact h₁.symm.trans h₂
      · omega
    · split at hdesignated
      · omega
      · exact h.distinct t₁ t₂ old old' hget hget' hdesignated.symm

theorem Inv.moved_turns (h : Inv c db) (hmoved : Moved c db op db') : TurnsOk c db' := by
  have hself : SameTurns db.turns db.turns := fun t turn hturn => ⟨turn, hturn, rfl, rfl⟩
  rcases hmoved with ⟨hattempts, hturns⟩ | ⟨i, attempt, token, -, -, hattempts, hturns⟩ |
    ⟨i, attempt, job, reservation, st, -, -, -, -, hattempts, hturns⟩ |
    ⟨i, attempt, event, actor, round, amount, -, -, -, -, hattempts, haffordable, hturns⟩ |
    ⟨i, attempt, -, -, hattempts, hturns⟩ | ⟨-, hattempts, hturns⟩ |
    ⟨t, target, n, amount, -, -, hattempts, -, hturns⟩ | ⟨-, hattempts, hturns⟩ |
    ⟨-, hattempts, hturns⟩
  · exact h.turns.same (hturns ▸ hself) (by rw [hattempts])
  · exact h.turns.same (hturns ▸ sameTurns_setDesignatedTurns _) (by rw [hattempts, List.length_set])
  · exact h.turns.same (hturns ▸ sameTurns_setTurn _ _) (by rw [hattempts, List.length_set])
  · exact h.turns.concat haffordable.mem (sameTurns_setTurn _ _) hturns
      (by rw [hattempts, List.length_append, List.length_set]; rfl)
  · exact h.turns.redesignate hturns (by rw [hattempts, List.length_append, List.length_set]; rfl)
  · exact h.turns.same (hturns ▸ hself) (by rw [hattempts, settleRetained_length])
  · exact h.turns.redesignate hturns
      (by rw [hattempts, List.length_append, settleRetained_length]; rfl)
  · exact h.turns.same (hturns ▸ hself) (by rw [hattempts]; exact (List.length_map _).ge)
  · refine h.turns.same (hturns ▸ sameTurns_cancelTurns) ?_
    rw [hattempts]
    show _ ≤ ((db.attempts.map _).map _).length
    rw [List.length_map, List.length_map]

/-! ### Phases -/

theorem setDesignatedTurns_get {st : TurnState} {t : ℕ} {turn' : TurnRow}
    (h : (db.setDesignatedTurns i st).turns[t]? = some turn') :
    turn'.state = st ∨ db.turns[t]? = some turn' := by
  change (db.turns.map _)[t]? = _ at h
  rw [List.getElem?_map] at h
  obtain ⟨turn, hturn, rfl⟩ := Option.map_eq_some_iff.mp h
  split
  · exact .inl rfl
  · exact .inr hturn

theorem modify_get {turns : List TurnRow} {t t' : ℕ} {f : TurnRow → TurnRow} {turn' : TurnRow}
    (h : (turns.modify t f)[t']? = some turn') :
    (t' = t ∧ ∃ turn, turns[t]? = some turn ∧ turn' = f turn) ∨
      (t' ≠ t ∧ turns[t']? = some turn') := by
  rw [List.getElem?_modify] at h
  obtain ⟨turn, hturn, rfl⟩ := Option.map_eq_some_iff.mp h
  by_cases heq : t = t'
  · subst heq
    rw [if_pos rfl]
    exact .inl ⟨rfl, turn, hturn, rfl⟩
  · rw [if_neg heq]
    exact .inr ⟨Ne.symm heq, hturn⟩

theorem modify_get_self {turns : List TurnRow} {t : ℕ} {f : TurnRow → TurnRow} {turn : TurnRow}
    (h : turns[t]? = some turn) : (turns.modify t f)[t]? = some (f turn) := by
  rw [List.getElem?_modify, h]
  exact congrArg some (if_pos rfl)

theorem not_failed {turn : TurnRow} (h : turn.state = .queued ∨ turn.state = .running ∨
    turn.state = .completed ∨ turn.state = .cancelled) : ¬ turn.Failed := by
  unfold TurnRow.Failed
  rcases h with h | h | h | h <;> rw [h] <;> decide

/-- The turns are live if one that was not is queued again or complete. -/
theorem live_modify {turns : List TurnRow} {t : ℕ} {f : TurnRow → TurnRow}
    (hf : ∀ turn, ¬ (f turn).Failed)
    (h : ∀ t' turn, t' ≠ t → turns[t']? = some turn → ¬ turn.Failed) :
    ∀ turn ∈ turns.modify t f, ¬ turn.Failed := by
  intro turn' hturn'
  obtain ⟨t', ht'⟩ := List.mem_iff_getElem?.mp hturn'
  rcases modify_get ht' with ⟨-, turn, -, rfl⟩ | ⟨hne, hold⟩
  · exact hf turn
  · exact h t' turn' hne hold

theorem Working.live_get (h : Working db i attempt) {t : ℕ} {turn : TurnRow}
    (hturn : db.turns[t]? = some turn) : ¬ turn.Failed := h.live turn (List.mem_of_getElem? hturn)

/-- Where a turn failed, the run rests. -/
theorem Inv.resting (h : Inv c db) {t : ℕ} {turn : TurnRow} (hturn : db.turns[t]? = some turn)
    (hfailed : turn.Failed) : Resting db := by
  rcases h.phase with hrest | ⟨i, attempt, hworking⟩
  · exact hrest
  · exact absurd hfailed (hworking.live_get hturn)

theorem idle_settleRetained (h : Idle db.attempts) : Idle db.settleRetained.attempts := by
  rcases settleRetained_cases db with hsame | hresolved
  · rw [hsame]
    exact h
  · rw [hresolved]
    exact h.map fun a _ hopen => hopen

theorem Working.leased {token : String} (h : Working db i attempt)
    (hattempts : db'.attempts = db.attempts.set i
      { attempt with job := .leased, lease_token := some token })
    (hturns : db'.turns = (db.setDesignatedTurns i .running).turns)
    (houtputs : db'.final_outputs = db.final_outputs)
    (hstate : db'.state = .running ∨ db'.state = .finalizing) :
    Working db' i { attempt with job := .leased, lease_token := some token } := by
  obtain ⟨turn, hturn, hdesignated⟩ := h.turn
  refine ⟨hattempts ▸ h.busy.set_open (.inr rfl), ?_, fun turn' hturn' => ?_,
    houtputs ▸ h.outputs, .inr ⟨rfl, by tauto⟩⟩
  · refine ⟨{ turn with state := .running }, ?_, hdesignated⟩
    rw [hturns]
    show (db.turns.map _)[attempt.turn]? = _
    rw [List.getElem?_map, hturn]
    exact congrArg some (if_pos hdesignated)
  · rw [hturns] at hturn'
    obtain ⟨t, ht⟩ := List.mem_iff_getElem?.mp hturn'
    rcases setDesignatedTurns_get ht with hrunning | hold
    · exact not_failed (.inr (.inl hrunning))
    · exact h.live_get hold

theorem Working.closed {job : JobState} {reservation : ReservationRow} {st : TurnState}
    (h : Working db i attempt) (hends : job ≠ .queued ∧ job ≠ .leased)
    (hattempts : db'.attempts = db.attempts.set i (attempt.close job reservation))
    (hturns : db'.turns = (db.setTurn attempt.turn st).turns)
    (hstate : db'.state = .paused ∨ db'.state = .completed ∨ db'.state = .cancelled)
    (hkeeps : st = .failed ∨ st = .expired → db'.final_outputs = db.final_outputs) : Resting db' := by
  have hfailed : ∀ {t : ℕ} {turn : TurnRow}, db'.turns[t]? = some turn → turn.Failed →
      t = attempt.turn ∧ (st = .failed ∨ st = .expired) := by
    intro t turn hturn hfailed
    rw [hturns] at hturn
    rcases modify_get hturn with ⟨rfl, old, -, rfl⟩ | ⟨-, hold⟩
    · exact ⟨rfl, hfailed⟩
    · exact absurd hfailed (h.live_get hold)
  refine ⟨hattempts ▸ h.busy.set_closed (close_not_open hends), hstate, ?_,
    fun t t' turn turn' hturn hturn' hf hf' => ?_⟩
  · rintro ⟨turn, hturn, hf⟩
    obtain ⟨t, ht⟩ := List.mem_iff_getElem?.mp hturn
    rw [hkeeps (hfailed ht hf).2]
    exact h.outputs
  · exact (hfailed hturn hf).1.trans (hfailed hturn' hf').1.symm

theorem Working.advanced {job : JobState} {reservation : ReservationRow} {actor : Actor}
    {round_number : ℕ} {amount : ℚ} (h : Working db i attempt)
    (hends : job ≠ .queued ∧ job ≠ .leased)
    (hattempts : db'.attempts = db.attempts.set i (attempt.close job reservation) ++
      [{ turn := db.turns.length, attempt_number := 1, actor, reservation := { amount_usd := amount } }])
    (hturns : db'.turns = (db.setTurn attempt.turn .completed).turns ++
      [{ round_number, actor, designated_attempt := db.attempts.length }])
    (houtputs : db'.final_outputs = db.final_outputs)
    (hstate : db'.state = .running ∨ db'.state = .paused ∨ db'.state = .finalizing) :
    ∃ j next, Working db' j next := by
  have hidle : Idle (db.attempts.set i (attempt.close job reservation)) :=
    h.busy.set_closed (close_not_open hends)
  have hbusy := hidle.append (show AttemptRow.Open { turn := db.turns.length, attempt_number := 1, actor
                                                     reservation := { amount_usd := amount } } from
    .inl rfl)
  rw [← hattempts, List.length_set] at hbusy
  refine ⟨_, _, hbusy, ?_, fun turn hturn => ?_, houtputs ▸ h.outputs, .inl ⟨rfl, by tauto⟩⟩
  · refine ⟨{ round_number, actor, designated_attempt := db.attempts.length }, ?_, rfl⟩
    rw [hturns]
    have hlength : (db.setTurn attempt.turn .completed).turns.length = db.turns.length :=
      List.length_modify _ _ _
    show _[db.turns.length]? = _
    rw [← hlength]
    exact List.getElem?_concat_length
  · rw [hturns] at hturn
    rcases List.mem_append.mp hturn with hold | hnew
    · exact live_modify (fun _ => not_failed (.inr (.inr (.inl rfl)))) (fun t turn _ hturn => h.live_get hturn) turn hold
    · rw [List.mem_singleton.mp hnew]
      exact not_failed (.inl rfl)

theorem Working.replaced {job : JobState} {reservation : ReservationRow} {attempt_number : ℕ}
    {amount : ℚ} (h : Working db i attempt) (hends : job ≠ .queued ∧ job ≠ .leased)
    (hattempts : db'.attempts = db.attempts.set i (attempt.close job reservation) ++
      [{ turn := attempt.turn, attempt_number, actor := attempt.actor
         reservation := { amount_usd := amount } }])
    (hturns : db'.turns = db.turns.modify attempt.turn fun turn =>
      { turn with state := .queued, designated_attempt := db.attempts.length })
    (houtputs : db'.final_outputs = db.final_outputs)
    (hstate : db'.state = .running ∨ db'.state = .paused ∨ db'.state = .finalizing) :
    ∃ j next, Working db' j next := by
  have hidle : Idle (db.attempts.set i (attempt.close job reservation)) :=
    h.busy.set_closed (close_not_open hends)
  have hbusy := hidle.append (show AttemptRow.Open {
      turn := attempt.turn, attempt_number, actor := attempt.actor
      reservation := { amount_usd := amount } } from .inl rfl)
  rw [← hattempts, List.length_set] at hbusy
  obtain ⟨turn, hturn, -⟩ := h.turn
  refine ⟨_, _, hbusy, ?_, ?_, houtputs ▸ h.outputs, .inl ⟨rfl, by tauto⟩⟩
  · refine ⟨{ turn with state := .queued, designated_attempt := db.attempts.length }, ?_, rfl⟩
    rw [hturns]
    exact modify_get_self hturn
  · rw [hturns]
    exact live_modify (fun _ => not_failed (.inl rfl)) fun t turn _ hturn => h.live_get hturn

theorem Working.busy_resolveAll {from_ : ReservationStatus} {update : ReservationRow → ReservationRow}
    (h : Working db i attempt) : Busy (db.resolveAll from_ update).attempts i
      { attempt with reservation := attempt.reservation.updateIf from_ update } :=
  h.busy.map fun _ => rfl

theorem Working.resumed (h : Working db i attempt) (hqueued : attempt.job = .queued)
    (hattempts : db'.attempts = db.settleRetained.attempts) (hturns : db'.turns = db.turns)
    (houtputs : db'.final_outputs = db.final_outputs) (hstate : db'.state = .queued) :
    ∃ j next, Working db' j next := by
  rcases settleRetained_cases db with hsame | hresolved
  · rw [hsame] at hattempts
    exact ⟨i, attempt, hattempts ▸ h.busy, hturns ▸ h.turn, hturns ▸ h.live, houtputs ▸ h.outputs,
      .inl ⟨hqueued, .inl hstate⟩⟩
  · rw [hresolved] at hattempts
    exact ⟨i, { attempt with reservation := attempt.reservation.updateIf .retained_ambiguous .assume },
      hattempts ▸ h.busy_resolveAll, hturns ▸ h.turn, hturns ▸ h.live,
      houtputs ▸ h.outputs, .inl ⟨hqueued, .inl hstate⟩⟩

theorem Working.cancelling (h : Working db i attempt) (hleased : attempt.job = .leased)
    (hattempts : db'.attempts = (db.resolveAll .retained_ambiguous .assume).attempts)
    (hturns : db'.turns = db.turns) (houtputs : db'.final_outputs = db.final_outputs)
    (hstate : db'.state = .cancelling) : ∃ j next, Working db' j next :=
  ⟨i, { attempt with reservation := attempt.reservation.updateIf .retained_ambiguous .assume },
    hattempts ▸ h.busy_resolveAll, hturns ▸ h.turn, hturns ▸ h.live, houtputs ▸ h.outputs,
    .inr ⟨hleased, .inr (.inr (.inr (.inr hstate)))⟩⟩

/-- The turn that failed is the only one. -/
theorem Resting.retried {t attempt_number : ℕ} {target : TurnRow} {actor : Actor} {amount : ℚ}
    (h : Resting db) (hrow : db.turns[t]? = some target) (hfailed : target.Failed)
    (hattempts : db'.attempts = db.settleRetained.attempts ++
      [{ turn := t, attempt_number, actor, reservation := { amount_usd := amount } }])
    (hturns : db'.turns = db.turns.modify t fun turn =>
      { turn with state := .queued, designated_attempt := db.attempts.length })
    (houtputs : db'.final_outputs = db.final_outputs) (hstate : db'.state = .queued) :
    ∃ j next, Working db' j next := by
  have hbusy := (idle_settleRetained h.idle).append (show AttemptRow.Open {
      turn := t, attempt_number, actor, reservation := { amount_usd := amount } } from .inl rfl)
  rw [← hattempts, settleRetained_length] at hbusy
  refine ⟨_, _, hbusy, ?_, ?_, ?_, .inl ⟨rfl, .inl hstate⟩⟩
  · refine ⟨{ target with state := .queued, designated_attempt := db.attempts.length }, ?_, rfl⟩
    rw [hturns]
    exact modify_get_self hrow
  · rw [hturns]
    refine live_modify (fun _ => not_failed (.inl rfl)) fun t' turn hne hturn hother => ?_
    exact hne (h.failed t' t turn target hturn hrow hother hfailed)
  · rw [houtputs]
    exact h.outputs ⟨target, List.mem_of_getElem? hrow, hfailed⟩

theorem idle_free {attempts : List AttemptRow} (hfree : ∀ a ∈ attempts, a.job ≠ .leased) :
    ∀ a ∈ attempts, a.Open → a.job = .queued :=
  fun a ha hopen => hopen.resolve_right (hfree a ha)

theorem idle_cancelQueued (hfree : ∀ a ∈ db.attempts, a.Open → a.job = .queued) :
    Idle (db.resolveAll .retained_ambiguous .assume).cancelQueued.attempts := by
  intro a ha hopen
  change a ∈ (db.attempts.map _).map _ at ha
  rw [List.map_map] at ha
  obtain ⟨old, hold, rfl⟩ := List.mem_map.mp ha
  change (if old.job = .queued then JobState.cancelled else old.job) = _ ∨
    (if old.job = .queued then JobState.cancelled else old.job) = _ at hopen
  by_cases hqueued : old.job = .queued
  · rw [if_pos hqueued] at hopen
    exact hopen.elim (fun h => nomatch h) fun h => nomatch h
  · rw [if_neg hqueued] at hopen
    exact hqueued (hfree old hold hopen)

theorem cancelTurns_failed {t : ℕ} {turn : TurnRow} (h : db.cancelTurns.turns[t]? = some turn)
    (hfailed : turn.Failed) : db.turns[t]? = some turn := by
  change (db.turns.map _)[t]? = _ at h
  rw [List.getElem?_map] at h
  obtain ⟨old, hold, rfl⟩ := Option.map_eq_some_iff.mp h
  split at hfailed
  · exact absurd hfailed (not_failed (.inr (.inr (.inr rfl))))
  · rename_i hqueued
    rw [if_neg hqueued]
    exact hold

theorem Inv.moved_phase (h : Inv c db) (hmoved : Moved c db op db') :
    Resting db' ∨ ∃ i attempt, Working db' i attempt := by
  rcases hmoved with ⟨hattempts, hturns, -, houtputs, hstate⟩ |
    ⟨i, attempt, token, hrow, hqueued, hattempts, hturns, -, houtputs, hstate⟩ |
    ⟨i, attempt, job, reservation, st, hrow, hleased, hends, -, hattempts, hturns, -, hstate, -,
      hkeeps⟩ |
    ⟨i, attempt, event, actor, round, amount, hrow, hleased, -, -, hattempts, -, hturns, -, houtputs,
      hstate⟩ |
    ⟨i, attempt, hrow, hleased, hattempts, hturns, -, houtputs, hstate⟩ |
    ⟨hwaits, hattempts, hturns, -, houtputs, hstate⟩ |
    ⟨t, target, n, amount, hrow, hfailed, hattempts, -, hturns, -, houtputs, hstate⟩ |
    ⟨hleased, hattempts, hturns, -, houtputs, hstate⟩ | ⟨hfree, hattempts, hturns, -, houtputs, hstate⟩
  · rcases h.phase with hrest | ⟨i, attempt, hworking⟩
    · left
      refine ⟨hattempts ▸ hrest.idle, ?_, hturns ▸ houtputs ▸ hrest.outputs, hturns ▸ hrest.failed⟩
      have hrests := hrest.state
      grind
    · right
      refine ⟨i, attempt, hattempts ▸ hworking.busy, hturns ▸ hworking.turn, hturns ▸ hworking.live,
        houtputs ▸ hworking.outputs, ?_⟩
      have hlive := hworking.state
      grind
  · refine .inr ⟨i, _, (h.working hrow (.inl hqueued)).leased hattempts hturns houtputs ?_⟩
    rcases hstate with ⟨-, hrunning⟩ | ⟨hold, hsame⟩
    · exact .inl hrunning
    · rw [hsame]
      exact hold
  · exact .inl ((h.working hrow (.inr hleased)).closed hends hattempts hturns hstate hkeeps)
  · refine .inr ((h.working hrow (.inr hleased)).advanced (by decide) hattempts hturns houtputs ?_)
    grind
  · refine .inr ((h.working hrow (.inr hleased)).replaced (by decide) hattempts hturns houtputs ?_)
    have hlive := (h.working hrow (.inr hleased)).state
    grind
  · rcases h.phase with hrest | ⟨i, attempt, hworking⟩
    · obtain ⟨a, ha, hqueued⟩ := hwaits
      exact absurd (.inl hqueued) (hrest.idle a ha)
    · obtain ⟨a, ha, hqueued⟩ := hwaits
      obtain ⟨j, hj⟩ := List.mem_iff_getElem?.mp ha
      exact .inr ((h.working hj (.inl hqueued)).resumed hqueued hattempts hturns houtputs hstate.2)
  · exact .inr ((h.resting hrow hfailed).retried hrow hfailed hattempts hturns houtputs hstate.2)
  · obtain ⟨a, ha, hjob⟩ := hleased
    obtain ⟨j, hj⟩ := List.mem_iff_getElem?.mp ha
    exact .inr ((h.working hj (.inr hjob)).cancelling hjob hattempts hturns houtputs hstate)
  · refine .inl ⟨hattempts ▸ idle_cancelQueued (idle_free hfree), .inr (.inr hstate), ?_, ?_⟩
    · rintro ⟨turn, hturn, hfailed⟩
      obtain ⟨t, ht⟩ := List.mem_iff_getElem?.mp hturn
      rw [hturns] at ht
      have hold := cancelTurns_failed ht hfailed
      rw [houtputs]
      exact (h.resting hold hfailed).outputs ⟨turn, List.mem_of_getElem? hold, hfailed⟩
    · intro t t' turn turn' hturn hturn' hfailed hfailed'
      rw [hturns] at hturn hturn'
      have hold := cancelTurns_failed hturn hfailed
      exact (h.resting hold hfailed).failed t t' turn turn' hold (cancelTurns_failed hturn' hfailed')
        hfailed hfailed'

theorem Inv.moved (h : Inv c db) (hmoved : Moved c db op db') : Inv c db' :=
  ⟨h.moved_rows hmoved, h.moved_turns hmoved, h.moved_phase hmoved⟩

theorem Inv.step (h : Inv c db) (op : Op) : Inv c (step c db op) :=
  commit_induct h fun _ hok => h.moved (apply_moved h hok)

/-! ### Start -/

/-- An actor's snapshot is its own, since ids are unique. -/
theorem of_snapshot {debate : Debate} {quote : Actor → PricingSnapshot × ℚ} {started_at : ℤ}
    {maxAttempts : ℕ} {sha256 : String → String} {actor : Actor} (hactor : actor ∈ debate.actors) :
    (RunConfig.of debate quote started_at maxAttempts sha256).snapshot actor = some {
      actor_id := actor.id, budget_limit_usd := actor.budget_limit_usd
      pricing := (quote actor).1, maximum_turn_charge_usd := (quote actor).2 } := by
  have hnodup := debate.ids_nodup
  show List.find? _ (debate.actors.map _) = _
  rw [List.find?_map]
  revert hactor hnodup
  induction debate.actors with
  | nil => exact fun hactor => absurd hactor List.not_mem_nil
  | cons first rest ih =>
    intro hactor hnodup
    rw [List.map_cons, List.nodup_cons] at hnodup
    by_cases heq : first.id = actor.id
    · rcases List.mem_cons.mp hactor with rfl | hrest
      · rw [List.find?_cons_of_pos (by simp)]
        rfl
      · exact absurd (List.mem_map.mpr ⟨actor, hrest, heq.symm⟩) hnodup.1
    · rw [List.find?_cons_of_neg (by simpa using heq)]
      refine ih ((List.mem_cons.mp hactor).resolve_left ?_) hnodup.2
      exact fun hsame => heq (congrArg Actor.id hsame.symm)

/-- The first turn of the first participant is queued. -/
structure Started (c : RunConfig) (db : RunDb) (first : Actor) (amount : ℚ) : Prop where
  affordable : Affordable c [] first amount
  db : db = RunDb.openTurn {
    state := .queued, rounds := [{ round_number := 1 }], turns := [], attempts := [] } first 1 amount
  participant : first.actor_kind ≠ .synthesizer

theorem start_ok {debate : Debate} {quote : Actor → PricingSnapshot × ℚ} {started_at : ℤ}
    {maxAttempts : ℕ} {sha256 : String → String}
    (h : start (.of debate quote started_at maxAttempts sha256) = .ok db) :
    (RunConfig.of debate quote started_at maxAttempts sha256).Ok := by
  unfold start at h
  obtain ⟨_, hparticipants, h⟩ := bind_eq_ok.mp h
  obtain ⟨_, hcovers, h⟩ := bind_eq_ok.mp h
  rw [refuse_eq_ok] at hparticipants hcovers
  push Not at hcovers
  refine ⟨fun hnone => hparticipants (by rw [hnone]; decide), fun actor hactor => ?_⟩
  have hmem : (⟨actor.id, actor.budget_limit_usd, (quote actor).1, (quote actor).2⟩ :
      ActorExecutionSnapshot) ∈
        (RunConfig.of debate quote started_at maxAttempts sha256).actor_execution_snapshots :=
    List.mem_map_of_mem hactor
  exact ⟨_, of_snapshot hactor, hmem, rfl, hcovers _ hmem⟩

theorem start_frozen {debate : Debate} {quote : Actor → PricingSnapshot × ℚ} {started_at : ℤ}
    {maxAttempts : ℕ} {sha256 : String → String}
    (h : start (.of debate quote started_at maxAttempts sha256) = .ok db)
    (hquote : ∀ actor ∈ debate.actors, 0 ≤ (quote actor).2) :
    (RunConfig.of debate quote started_at maxAttempts sha256).Frozen where
  toOk := start_ok h
  charge actor hmem snapshot hsnapshot := by
    have hown : (RunConfig.of debate quote started_at maxAttempts sha256).snapshot actor = _ :=
      of_snapshot hmem
    obtain rfl := Option.some.inj (hown.symm.trans hsnapshot)
    exact hquote actor hmem

theorem start_started (hc : c.Ok) (h : start c = .ok db) :
    ∃ first amount, Started c db first amount := by
  unfold start at h
  obtain ⟨_, -, h⟩ := bind_eq_ok.mp h
  obtain ⟨_, -, h⟩ := bind_eq_ok.mp h
  split at h
  · cases h
  · rename_i first hfirst
    obtain ⟨hmem, hkind⟩ := participants_head hfirst
    obtain ⟨snapshot, hsnapshot, -, -, hcovers⟩ := hc.snapshot first hmem
    rw [hsnapshot] at h
    dsimp only at h
    obtain ⟨_, hbudget, h⟩ := bind_eq_ok.mp h
    rw [refuse_eq_ok] at hbudget
    push Not at hbudget
    cases h
    refine ⟨first, snapshot.maximum_turn_charge_usd, ⟨hmem, fun other hother => ?_, ?_, ?_⟩, rfl, hkind⟩
    · cases hsnapshot.symm.trans hother
      rfl
    · rw [List.map_nil, List.sum_nil, zero_add]
      exact hbudget.1
    · rw [List.filter_nil, List.map_nil, List.sum_nil, zero_add]
      exact hcovers

theorem Started.inv {first : Actor} {amount : ℚ} (h : Started c db first amount) : Inv c db := by
  obtain ⟨⟨hmem, hamount, -, -⟩, rfl, -⟩ := h
  refine ⟨fun a ha => ?_, ⟨fun turn hturn => ?_, fun turn hturn => ?_, fun t t' turn turn' ht ht' _ => ?_⟩,
    .inr ⟨0, { turn := 0, attempt_number := 1, actor := first, reservation := { amount_usd := amount } },
      Idle.append (fun _ hnone => absurd hnone List.not_mem_nil) (.inl rfl), ?_, fun turn hturn => ?_,
      fun _ hnone => absurd hnone List.not_mem_nil, .inl ⟨rfl, .inl rfl⟩⟩⟩
  · rw [List.mem_singleton.mp ha]
    exact .fresh hmem hamount
  · rw [List.mem_singleton.mp hturn]
    exact hmem
  · rw [List.mem_singleton.mp hturn]
    exact Nat.one_pos
  · have hlt : t < 1 := (List.getElem?_eq_some_iff.mp ht).1
    have hlt' : t' < 1 := (List.getElem?_eq_some_iff.mp ht').1
    omega
  · exact ⟨{ round_number := 1, actor := first, designated_attempt := 0 }, rfl, rfl⟩
  · rw [List.mem_singleton.mp hturn]
    exact not_failed (.inl rfl)

end

end Norns.Debates
