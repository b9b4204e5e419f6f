import Norns.Debates.Invariant

/-! # Legal transitions and clean states

`Guard` is a condition on the steps of a run. While it holds, no step asks for an illegal transition
(`apply_legal`), and every state is `Clean`: a paused run has no leased job and, unless a job waits, a
turn to retry; an ambiguous reservation pauses the run; a synthesizer's turn is open only while the run
is finalizing, cancelled or paused; there is one final output exactly when the run is completed.

* `apply_legal`: the transactions;
* `Clean.moved`: moves that `Guard` admits keep `Clean`. -/

namespace Norns.Debates

open Norns.Lib Norns.Lib.Run Norns.Lib.Transaction

/-! ### Definitions -/

def DebateError.IllegalTransition : DebateError → Prop
  | .illegalTransition _ _ => True
  | _ => False

/-- The transaction does not ask for an illegal transition of the run. -/
def Legal {α : Type} (x : Except DebateError α) : Prop := Avoids x DebateError.IllegalTransition

/-- What `Guard` adds to the invariant. -/
structure Clean (db : RunDb) : Prop where
  drained : db.state = .paused → ∀ a ∈ db.attempts, a.job ≠ .leased
  resumable : db.state = .paused → Idle db.attempts → ∃ turn ∈ db.turns, turn.Failed
  retained : ∀ a ∈ db.attempts, a.reservation.status = .retained_ambiguous →
    db.state = .paused ∧ 0 < a.reservation.retained_usd
  outputs : ¬ db.state.terminal → db.final_outputs = []
  output : db.state = .completed → db.final_outputs.length = 1
  synthesizes : ∀ a ∈ db.attempts, a.Open → a.actor.actor_kind = .synthesizer →
    db.state = .finalizing ∨ db.state = .cancelling ∨ db.state = .paused

section

variable {c : RunConfig} {db db' : RunDb} {op : Op} {i : ℕ} {attempt : AttemptRow} {token : String}

/-! ### Legal transitions -/

theorem transitionRunState_commits (db : RunDb) (to_ : RunState)
    (h : db.state = to_ ∨ canDebateRunTransition db.state to_) :
    ∃ moved, transitionRunState db to_ = .ok (moved, { db with state := to_ }) := by
  unfold transitionRunState
  split
  · rename_i heq
    exact ⟨false, by rw [← heq]⟩
  · rename_i hne
    rw [if_pos (h.resolve_left hne)]
    exact ⟨true, rfl⟩

theorem transitionRunState_legal {to_ : RunState}
    (h : db.state = to_ ∨ canDebateRunTransition db.state to_) : Legal (transitionRunState db to_) := by
  obtain ⟨moved, hok⟩ := transitionRunState_commits db to_ h
  rw [hok]
  exact avoids_ok

theorem transition_legal {to_ : RunState}
    (h : db.state = to_ ∨ canDebateRunTransition db.state to_) :
    Legal (Prod.snd <$> transitionRunState db to_) :=
  avoids_map.mpr (transitionRunState_legal h)

theorem pauses_legal (db : RunDb) (h : db.state = .running ∨ db.state = .pausing ∨ db.state = .paused ∨
    db.state = .finalizing) : db.state = .paused ∨ canDebateRunTransition db.state .paused := by
  rcases h with h | h | h | h <;> rw [h] <;> decide

theorem claim_legal : Legal (claim db i token) := by
  unfold claim
  split
  · exact avoids_ok
  · split
    · split
      · rename_i hstate
        refine transition_legal (.inr ?_)
        change canDebateRunTransition db.state .running
        rw [hstate]
        decide
      · exact avoids_ok
    · exact avoids_ok

theorem expire_legal (hinv : Inv c db) : Legal (expire db i) := by
  unfold expire
  split
  · exact avoids_ok
  · rename_i attempt hrow
    split
    · rename_i hleased
      have hphase := hinv.leased_state hrow hleased
      split
      · rename_i hstate
        refine transition_legal (.inr ?_)
        change canDebateRunTransition db.state .cancelled
        rw [hstate]
        decide
      · rename_i hstate
        exact transition_legal (pauses_legal db (pausable hphase hstate))
    · exact avoids_ok

theorem failClaimPreparation_legal (hinv : Inv c db) (hguard : Guard db (.failClaimPreparation i token)) :
    Legal (failClaimPreparation db i token) := by
  unfold failClaimPreparation
  split
  · exact avoids_ok
  · rename_i attempt hrow
    split
    · rename_i htoken
      have hphase := hinv.leased_state hrow ((hinv.row hrow).token.mp (by rw [htoken]; simp))
      have hstate := hguard attempt hrow htoken
      exact transition_legal (pauses_legal db (pausable hphase hstate))
    · exact avoids_ok

@[simp] theorem offerLastMessage_state : db.offerLastMessage.state = db.state := by
  unfold RunDb.offerLastMessage
  split <;> simp

theorem stopAtDeadline_legal (hinv : Inv c db) (hclean : Clean db)
    (hguard : Guard db (.stopAtDeadline i token)) : Legal (stopAtDeadline db i token) := by
  unfold stopAtDeadline
  split
  · exact avoids_ok
  · rename_i attempt hrow
    split
    · rename_i hleased
      have hphase := hinv.leased_state hrow hleased.1
      have hdrained : db.state ≠ .paused := fun hpaused =>
        hclean.drained hpaused attempt (List.mem_of_getElem? hrow) hleased.1
      have hpausing := (hguard attempt hrow hleased).1
      dsimp only
      split
      · rename_i hcancelling
        refine Avoids.bind (transitionRunState_legal (.inr ?_)) fun _ _ => avoids_ok
        change canDebateRunTransition db.state .cancelled
        change db.state = .cancelling at hcancelling
        rw [hcancelling]
        decide
      · rename_i hcancelling
        change db.state ≠ .cancelling at hcancelling
        split
        · rename_i hpauses
          exact absurd hpauses hpausing
        · refine Avoids.bind (transitionRunState_legal ?_) fun ⟨_, db₁⟩ hmove => ?_
          · have hlive : db.state = .running ∨ db.state = .finalizing := by
              rcases pausable hphase hcancelling with hstate | hstate | hstate | hstate
              · exact .inl hstate
              · exact absurd hstate hpausing
              · exact absurd hstate hdrained
              · exact .inr hstate
            change db.state = .finalizing ∨ canDebateRunTransition db.state .finalizing
            rcases hlive with h | h <;> rw [h] <;> decide
          · obtain ⟨rfl, -⟩ := transitionRunState_ok hmove
            refine Avoids.bind (transitionRunState_legal (.inr ?_)) fun _ _ => avoids_ok
            rw [offerLastMessage_state]
            exact (by decide : canDebateRunTransition .finalizing .completed)
    · exact avoids_ok

/-! ### Completing -/

theorem completeRun_legal {round_number : ℕ} (h : db.state = .finalizing) :
    Legal (completeRun db round_number) := by
  unfold completeRun
  split
  · exact transition_legal (pauses_legal db (.inr (.inr (.inr h))))
  · refine Avoids.bind (transitionRunState_legal (.inr ?_)) fun _ _ => avoids_ok
    rw [h]
    decide

theorem finalizes_legal (h : db.state = .running ∨ db.state = .pausing ∨ db.state = .finalizing) :
    db.state = .finalizing ∨ canDebateRunTransition db.state .finalizing := by
  rcases h with h | h | h <;> rw [h] <;> decide

theorem scheduleTurn_legal {claimRound roundNumber : ℕ} {actor : Actor} {createRound : Bool}
    (h : db.state = .running ∨ db.state = .pausing ∨ db.state = .finalizing) :
    Legal (scheduleTurn c db claimRound actor roundNumber createRound) := by
  unfold scheduleTurn
  split
  · exact avoids_error.mpr id
  · refine Avoids.refuse_bind id fun _ => ?_
    split
    · split
      · exact avoids_error.mpr id
      · refine Avoids.bind (transitionRunState_legal ?_) fun ⟨_, db₁⟩ hmove => ?_
        · rw [offerFinalOutput_state]
          exact finalizes_legal h
        · obtain ⟨rfl, -⟩ := transitionRunState_ok hmove
          exact completeRun_legal rfl
    · split
      · exact avoids_ok
      · exact avoids_ok

theorem insertFinalOutput_legal {content : String} : Legal (db.insertFinalOutput content) := by
  unfold RunDb.insertFinalOutput
  split
  · exact avoids_error.mpr id
  · exact avoids_ok

theorem advance_legal {actor : Actor} {round_number : ℕ} {content : String} {now : ℤ}
    {stopAfter : StopAfter}
    (h : db.state = .running ∨ db.state = .pausing ∨ db.state = .finalizing)
    (hfinal : actor.actor_kind = .synthesizer → db.state = .finalizing) :
    Legal (advance c db actor round_number content now stopAfter) := by
  unfold advance
  split
  · rename_i hkind
    exact completeRun_legal (hfinal hkind)
  · split
    · exact scheduleTurn_legal h
    · dsimp only
      split
      · refine Avoids.bind (transitionRunState_legal (finalizes_legal h)) fun ⟨_, db₁⟩ hmove => ?_
        obtain ⟨rfl, -⟩ := transitionRunState_ok hmove
        dsimp only
        split
        · exact scheduleTurn_legal (.inr (.inr rfl))
        · refine Avoids.bind insertFinalOutput_legal fun db₂ hinsert => ?_
          unfold RunDb.insertFinalOutput at hinsert
          split at hinsert
          · cases hinsert
          · cases hinsert
            exact completeRun_legal rfl
      · split
        · exact avoids_error.mpr id
        · exact scheduleTurn_legal h

theorem complete_legal {output : TurnOutput} {usage : TurnUsage} {now : ℤ} (hinv : Inv c db)
    (hclean : Clean db) : Legal (complete c db i token output usage now) := by
  unfold complete
  split
  · exact avoids_error.mpr id
  · rename_i attempt hrow
    refine Avoids.refuse_bind id fun hleased => ?_
    rw [not_not] at hleased
    have hphase := hinv.leased_state hrow hleased.1
    have hdrained : db.state ≠ .paused := fun hpaused =>
      hclean.drained hpaused attempt (List.mem_of_getElem? hrow) hleased.1
    split
    · dsimp only
      refine Avoids.refuse_bind id fun _ => Avoids.refuse_bind id fun _ => ?_
      split
      · rename_i hcancelling
        refine transition_legal (.inr ?_)
        change canDebateRunTransition db.state .cancelled
        rw [hcancelling]
        decide
      · rename_i hcancelling
        have hlive : db.state = .running ∨ db.state = .pausing ∨ db.state = .finalizing := by
          rcases pausable hphase hcancelling with hstate | hstate | hstate | hstate
          · exact .inl hstate
          · exact .inr (.inl hstate)
          · exact absurd hstate hdrained
          · exact .inr (.inr hstate)
        have hfinal : attempt.actor.actor_kind = .synthesizer → db.state = .finalizing :=
          fun hkind => (hclean.synthesizes attempt (List.mem_of_getElem? hrow) (.inr hleased.1) hkind).resolve_right
            fun hother => hother.elim hcancelling hdrained
        refine Avoids.bind (advance_legal hlive hfinal) fun advanced hadvance => ?_
        split
        · rename_i hpausing
          have hlive' := hpausing.2
          refine transition_legal ?_
          -- the run is paused, or finalizing, or still where it was
          rcases advance_ok hadvance with ⟨hends, -⟩ | ⟨hsame | ⟨hfinalizing, -⟩, -, -⟩
          · rcases hends.state with ⟨hpaused, -⟩ | hcompleted
            · exact .inl hpaused
            · exact absurd (.inl hcompleted) hlive'
          · exact pauses_legal _ (.inr (.inl (hsame.trans hpausing.1)))
          · exact pauses_legal _ (.inr (.inr (.inr hfinalizing)))
        · exact avoids_ok
    · exact avoids_error.mpr id

theorem recordKnownFailureUsage_legal {failure : Failure} :
    Legal (recordKnownFailureUsage c db i attempt failure) := by
  unfold recordKnownFailureUsage
  split
  · exact avoids_ok
  · split
    · exact avoids_error.mpr id
    · exact Avoids.refuse_bind id fun _ => avoids_ok

theorem fail_legal {failure : Failure} {externalExecutionStarted : Bool} (hinv : Inv c db) :
    Legal (fail c db i token failure externalExecutionStarted) := by
  unfold fail
  split
  · exact avoids_ok
  · rename_i attempt hrow
    split
    · rename_i htoken
      have hleased := (hinv.row hrow).token.mp (by rw [htoken]; simp)
      have hphase := hinv.leased_state hrow hleased
      refine Avoids.bind recordKnownFailureUsage_legal fun ⟨known, row, db₁⟩ hknown => ?_
      have hstate : db₁.state = db.state := by
        rcases recordKnownFailureUsage_ok (hinv.active hrow hleased) hknown with ⟨-, -, -, rfl⟩ |
          ⟨_, _, -, -, -, -, rfl⟩ <;> rfl
      dsimp only
      split
      · rename_i hcancelling
        refine transition_legal (.inr ?_)
        change canDebateRunTransition db₁.state .cancelled
        rw [hcancelling]
        decide
      · rename_i hcancelling
        rw [hstate] at hcancelling
        split
        · exact avoids_ok
        · refine transition_legal (pauses_legal _ ?_)
          change db₁.state = .running ∨ db₁.state = .pausing ∨ db₁.state = .paused ∨
            db₁.state = .finalizing
          rw [hstate]
          exact pausable hphase hcancelling
    · exact avoids_ok

/-! ### Controls -/

theorem prepareResume_legal {assumeFullCharge : Bool} : Legal (prepareResume c db assumeFullCharge) := by
  unfold prepareResume
  refine Avoids.refuse_bind id fun _ => ?_
  dsimp only
  split
  · exact avoids_ok
  · split
    · exact avoids_error.mpr id
    · split
      · exact avoids_error.mpr id
      · exact Avoids.refuse_bind id fun _ => Avoids.refuse_bind id fun _ => avoids_ok

/-- A run that is not terminal is at none of these. -/
theorem Inv.live_state (h : Inv c db) (hlive : ¬ db.state.terminal) : db.state = .paused ∨
    ∃ i attempt, Working db i attempt := by
  rcases h.phase with hrest | hworking
  · unfold RunState.terminal at hlive
    rcases hrest.state with hpaused | hcompleted | hcancelled
    · exact .inl hpaused
    · exact absurd (.inl hcompleted) hlive
    · exact absurd (.inr (.inl hcancelled)) hlive
  · exact .inr hworking

/-- A run that goes on is queued, leased, paused or finalizing; one that is cancelling has a leased job. -/
theorem Inv.live_phase (h : Inv c db) (hlive : ¬ db.state.terminal) :
    db.state = .queued ∨ db.state = .running ∨ db.state = .pausing ∨ db.state = .paused ∨
      db.state = .finalizing ∨
      (db.state = .cancelling ∧ ∃ attempt ∈ db.attempts, attempt.job = .leased) := by
  rcases h.live_state hlive with hpaused | ⟨i, attempt, hworking⟩
  · exact .inr (.inr (.inr (.inl hpaused)))
  · have hmem := hworking.busy.mem
    rcases hworking.state with ⟨-, hstate⟩ | ⟨hleased, hstate⟩
    · rcases hstate with h | h | h | h | h
      · exact .inl h
      · exact .inr (.inl h)
      · exact .inr (.inr (.inl h))
      · exact .inr (.inr (.inr (.inl h)))
      · exact .inr (.inr (.inr (.inr (.inl h))))
    · rcases hstate with h | h | h | h | h
      · exact .inr (.inl h)
      · exact .inr (.inr (.inl h))
      · exact .inr (.inr (.inr (.inl h)))
      · exact .inr (.inr (.inr (.inr (.inl h))))
      · exact .inr (.inr (.inr (.inr (.inr ⟨h, attempt, hmem, hleased⟩))))

theorem control_legal {action : ControlAction} {assumeFullCharge : Bool} (hinv : Inv c db)
    (hguard : Guard db (.control action assumeFullCharge)) :
    Legal (control c db action assumeFullCharge) := by
  unfold control
  refine Avoids.refuse_bind id fun hlive => Avoids.refuse_bind id fun hpaused =>
    Avoids.refuse_bind id fun hfinalizing => ?_
  have hphase := hinv.live_phase hlive
  rcases action
  · have hcancelling := hguard.1
    refine transition_legal ?_
    rcases hphase with h | h | h | h | h | ⟨h, -⟩
    · rw [h]
      decide
    · rw [h]
      decide
    · rw [h]
      decide
    · rw [h]
      decide
    · exact absurd ⟨rfl, h⟩ hfinalizing
    · exact absurd h hcancelling
  · have hstate : db.state = .paused := by
      by_contra hne
      exact hpaused ⟨rfl, hne⟩
    refine Avoids.bind prepareResume_legal fun db₁ hprepare => transition_legal (.inr ?_)
    have hsame : db₁.state = db.state := by
      rcases prepareResume_ok hinv.turns hprepare with ⟨-, rfl⟩ | ⟨_, _, _, _, -, -, -, rfl⟩
      · exact settleRetained_state
      · exact settleRetained_state
    rw [hsame, hstate]
    decide
  · dsimp only
    split
    · refine transition_legal ?_
      change db.state = .cancelling ∨ canDebateRunTransition db.state .cancelling
      rcases hphase with h | h | h | h | h | ⟨h, -⟩ <;> rw [h] <;> decide
    · rename_i hleased
      refine Avoids.bind (transitionRunState_legal (.inr ?_)) fun _ _ => avoids_ok
      change canDebateRunTransition db.state .cancelled
      rcases hphase with h | h | h | h | h | ⟨-, hsome⟩
      · rw [h]
        decide
      · rw [h]
        decide
      · rw [h]
        decide
      · rw [h]
        decide
      · rw [h]
        decide
      · exact absurd hsome hleased
  · exact avoids_ok
  · exact avoids_ok

theorem intervene_legal {text : String} : Legal (intervene db text) :=
  Avoids.refuse_bind id fun _ => avoids_ok

/-- **No step asks for an illegal transition.** -/
theorem apply_legal (hinv : Inv c db) (hclean : Clean db) (hguard : Guard db op) :
    Legal (apply c db op) := by
  rcases op with ⟨i, token⟩ | i | ⟨i, token⟩ | ⟨i, token⟩ | ⟨i, token, output, usage, now⟩ |
    ⟨i, token, failure, started⟩ | ⟨action, assumeFullCharge⟩ | text
  · exact claim_legal
  · exact expire_legal hinv
  · exact failClaimPreparation_legal hinv hguard
  · exact stopAtDeadline_legal hinv hclean hguard
  · exact complete_legal hinv hclean
  · exact fail_legal hinv
  · exact control_legal hinv hguard
  · exact intervene_legal

/-! ### Clean states -/

theorem Inv.only_open (h : Inv c db) {a b : AttemptRow} (ha : a ∈ db.attempts) (hb : b ∈ db.attempts)
    (hopen : a.Open) (hopen' : b.Open) : a = b := by
  obtain ⟨j, hj⟩ := List.mem_iff_getElem?.mp ha
  obtain ⟨k, hk⟩ := List.mem_iff_getElem?.mp hb
  have hsame := (h.working hk hopen').busy.only j a hj hopen
  subst hsame
  exact Option.some.inj (hj.symm.trans hk)

theorem ReservationRow.Resolved.retained_usd {P : Prop} {row row' : ReservationRow}
    (h : row.Resolved P row') (hretained : row'.status = .retained_ambiguous) :
    row'.retained_usd = row.amount_usd := by
  rcases h with ⟨cost, quoted⟩ | _ | _ | _
  · exact nomatch hretained
  · exact nomatch hretained
  · rfl
  · exact nomatch hretained

theorem resolveAll_not_retained :
    ∀ a ∈ (db.resolveAll .retained_ambiguous .assume).attempts,
      a.reservation.status ≠ .retained_ambiguous := by
  intro a ha
  obtain ⟨old, hold, rfl⟩ := List.mem_map.mp ha
  by_cases hretained : old.reservation.status = .retained_ambiguous
  · change (old.reservation.updateIf .retained_ambiguous .assume).status ≠ _
    rw [updateIf_of_status hretained]
    exact fun h => nomatch h
  · change (old.reservation.updateIf .retained_ambiguous .assume).status ≠ _
    rw [updateIf_of_ne hretained]
    exact hretained

/-- A resume settles whatever is ambiguous. -/
theorem Clean.settleRetained (h : Clean db) : ∀ a ∈ db.settleRetained.attempts,
    a.reservation.status ≠ .retained_ambiguous := by
  by_cases hany : ∃ a ∈ db.attempts, a.reservation.status = .retained_ambiguous
  · obtain ⟨a, ha, hretained⟩ := hany
    have hpos : 0 < db.retained := by
      refine List.sum_pos _ (fun x hx => ?_) ?_
      · obtain ⟨b, hb, rfl⟩ := List.mem_map.mp hx
        obtain ⟨hmem, hstatus⟩ := List.mem_filter.mp hb
        exact (h.retained b hmem (of_decide_eq_true hstatus)).2
      · refine List.ne_nil_of_mem (List.mem_map_of_mem (a := a) (List.mem_filter.mpr ⟨ha, ?_⟩))
        exact decide_eq_true hretained
    unfold RunDb.settleRetained
    rw [if_pos hpos]
    exact resolveAll_not_retained
  · push Not at hany
    rcases settleRetained_cases db with hsame | hresolved
    · rw [hsame]
      exact hany
    · rw [hresolved]
      exact resolveAll_not_retained

/-- A state that is not paused, with nothing ambiguous. -/
theorem Clean.of_live (hstate : db.state ≠ .paused)
    (hretained : ∀ a ∈ db.attempts, a.reservation.status ≠ .retained_ambiguous)
    (houtputs : ¬ db.state.terminal → db.final_outputs = [])
    (houtput : db.state = .completed → db.final_outputs.length = 1)
    (hsynthesizes : ∀ a ∈ db.attempts, a.Open → a.actor.actor_kind = .synthesizer →
      db.state = .finalizing ∨ db.state = .cancelling ∨ db.state = .paused) : Clean db :=
  ⟨fun h => absurd h hstate, fun h => absurd h hstate, fun a ha h => absurd h (hretained a ha),
    houtputs, houtput, hsynthesizes⟩

/-- Nothing is ambiguous unless the run is paused. -/
theorem Clean.not_retained (h : Clean db) (hstate : db.state ≠ .paused) :
    ∀ a ∈ db.attempts, a.reservation.status ≠ .retained_ambiguous :=
  fun a ha hretained => hstate (h.retained a ha hretained).1

/-- A job is leased in no paused run. -/
theorem Clean.leased_state (h : Clean db) (hrow : db.attempts[i]? = some attempt)
    (hleased : attempt.job = .leased) : db.state ≠ .paused :=
  fun hpaused => h.drained hpaused attempt (List.mem_of_getElem? hrow) hleased

theorem not_retained_set {attempts : List AttemptRow} {row : AttemptRow}
    (h : ∀ a ∈ attempts, a.reservation.status ≠ .retained_ambiguous)
    (hrow : row.reservation.status ≠ .retained_ambiguous) :
    ∀ a ∈ attempts.set i row, a.reservation.status ≠ .retained_ambiguous := by
  intro a ha
  rcases List.mem_or_eq_of_mem_set ha with hold | rfl
  · exact h a hold
  · exact hrow

theorem not_retained_concat {attempts : List AttemptRow} {row : AttemptRow}
    (h : ∀ a ∈ attempts, a.reservation.status ≠ .retained_ambiguous)
    (hrow : row.reservation.status ≠ .retained_ambiguous) :
    ∀ a ∈ attempts ++ [row], a.reservation.status ≠ .retained_ambiguous := by
  intro a ha
  rcases List.mem_append.mp ha with hold | hnew
  · exact h a hold
  · rw [List.mem_singleton.mp hnew]
    exact hrow

/-- The leased job ends and the run rests. -/
theorem Clean.closed {job : JobState} {reservation : ReservationRow} {st : TurnState} {P : Prop}
    (h : Clean db) (hinv : Inv c db) (hrow : db.attempts[i]? = some attempt)
    (hleased : attempt.job = .leased) (hends : job ≠ .queued ∧ job ≠ .leased)
    (hresolved : attempt.reservation.Resolved P reservation)
    (hattempts : db'.attempts = db.attempts.set i (attempt.close job reservation))
    (hturns : db'.turns = (db.setTurn attempt.turn st).turns)
    (hstate : db'.state = .paused ∨ db'.state = .completed ∨ db'.state = .cancelled)
    (hretains : reservation.status = .retained_ambiguous → db'.state = .paused ∧
      (st = .failed ∨ st = .expired) ∧ 0 < attempt.reservation.amount_usd)
    (hkeeps : st = .failed ∨ st = .expired → db'.final_outputs = db.final_outputs)
    (hpauses : db'.state = .paused → Unresolved db'.attempts ∨ st = .failed ∨ st = .expired)
    (hcompletes : db'.state = .completed → db.final_outputs = [] → db'.final_outputs.length = 1) :
    Clean db' := by
  have hworking := hinv.working hrow (.inr hleased)
  have hnone := h.not_retained (h.leased_state hrow hleased)
  have hempty : db.final_outputs = [] := by
    refine h.outputs fun hterminal => ?_
    unfold RunState.terminal at hterminal
    have hphase := hinv.leased_state hrow hleased
    rcases hterminal with heq | heq | heq <;> rw [heq] at hphase <;> simp at hphase
  have hretained : ∀ a ∈ db'.attempts, a.reservation.status = .retained_ambiguous →
      a = attempt.close job reservation := by
    intro a ha hstatus
    rw [hattempts] at ha
    rcases List.mem_or_eq_of_mem_set ha with hold | heq
    · exact absurd hstatus (hnone a hold)
    · exact heq
  have hfails : db'.state = .paused → st = .failed ∨ st = .expired := by
    intro hpaused
    rcases hpauses hpaused with ⟨a, ha, hactive | hambiguous⟩ | hfailed
    · have hclosed : ∀ a ∈ db.attempts.set i (attempt.close job reservation),
          ¬ a.Open ∧ a.reservation.status ≠ .active :=
        hinv.closed_rows hworking (close_not_open hends) hresolved.not_active
      rw [hattempts] at ha
      exact absurd hactive (hclosed a ha).2
    · rw [hretained a ha hambiguous] at hambiguous
      exact (hretains hambiguous).2.1
    · exact hfailed
  refine ⟨fun _ a ha hjob => ?_, fun hpaused _ => ?_, fun a ha hstatus => ?_, fun hlive => ?_,
    fun hcompleted => hcompletes hcompleted hempty, fun a ha hopen => ?_⟩
  · rw [hattempts] at ha
    exact hworking.busy.set_closed (close_not_open hends) a ha (.inr hjob)
  · obtain ⟨turn, hturn, -⟩ := hworking.turn
    refine ⟨{ turn with state := st }, ?_, hfails hpaused⟩
    rw [hturns]
    exact List.mem_of_getElem? (modify_get_self hturn)
  · obtain rfl := hretained a ha hstatus
    obtain ⟨hpaused, -, hpos⟩ := hretains hstatus
    refine ⟨hpaused, ?_⟩
    rw [show (attempt.close job reservation).reservation.retained_usd = attempt.reservation.amount_usd
      from hresolved.retained_usd hstatus]
    exact hpos
  · have hpaused : db'.state = .paused := by
      unfold RunState.terminal at hlive
      rcases hstate with hpaused | hcompleted | hcancelled
      · exact hpaused
      · exact absurd (.inl hcompleted) hlive
      · exact absurd (.inr (.inl hcancelled)) hlive
    rw [hkeeps (hfails hpaused)]
    exact hempty
  · rw [hattempts] at ha
    exact absurd hopen (hworking.busy.set_closed (close_not_open hends) a ha)

/-- The open job of a run is queued. -/
theorem Clean.queued {new : AttemptRow} (hinv : Inv c db) (hmem : new ∈ db.attempts)
    (hqueued : new.job = .queued)
    (hretained : ∀ a ∈ db.attempts, a.reservation.status ≠ .retained_ambiguous)
    (houtputs : db.final_outputs = []) (hsynthesizes : new.actor.actor_kind = .synthesizer →
      db.state = .finalizing ∨ db.state = .cancelling ∨ db.state = .paused) : Clean db := by
  refine ⟨fun _ a ha hjob => ?_, fun _ hidle => ?_, fun a ha hstatus => ?_, fun _ => houtputs,
    fun hcompleted => ?_, fun a ha hopen hkind => ?_⟩
  · cases hinv.only_open ha hmem (.inr hjob) (.inl hqueued)
    exact nomatch hqueued.symm.trans hjob
  · exact absurd (.inl hqueued) (hidle new hmem)
  · exact absurd hstatus (hretained a ha)
  · obtain ⟨j, hj⟩ := List.mem_iff_getElem?.mp hmem
    rcases (hinv.working hj (.inl hqueued)).state with ⟨-, hstate⟩ | ⟨hjob, -⟩
    · rw [hcompleted] at hstate
      simp at hstate
    · exact nomatch hqueued.symm.trans hjob
  · cases hinv.only_open ha hmem hopen (.inl hqueued)
    exact hsynthesizes hkind

/-- A run with an open job has no final output yet. -/
theorem Clean.no_output (h : Clean db) (hinv : Inv c db) (hrow : db.attempts[i]? = some attempt)
    (hopen : attempt.Open) : db.final_outputs = [] := by
  refine h.outputs fun hterminal => ?_
  unfold RunState.terminal at hterminal
  rcases (hinv.working hrow hopen).state with ⟨-, hstate⟩ | ⟨-, hstate⟩
  · rcases hterminal with heq | heq | heq <;> rw [heq] at hstate <;> simp at hstate
  · rcases hterminal with heq | heq | heq <;> rw [heq] at hstate <;> simp at hstate

/-- No job moves. -/
theorem Clean.framed (h : Clean db) (hinv : Inv c db) (hinv' : Inv c db') (hattempts : db'.attempts = db.attempts)
    (hturns : db'.turns = db.turns) (houtputs : db'.final_outputs = db.final_outputs)
    (hstate : db'.state = db.state ∨ (db.state = .queued ∧ db'.state = .paused) ∨
      (db.state = .running ∧ db'.state = .pausing) ∨
      (db.state = .pausing ∧ db'.state = .paused ∧ ∀ attempt ∈ db.attempts, attempt.job ≠ .leased)) :
    Clean db' := by
  rcases hstate with hsame | ⟨hold, hnew⟩ | ⟨hold, hnew⟩ | ⟨hold, hnew, hdrained⟩
  · exact ⟨fun hpaused => hattempts ▸ h.drained (hsame ▸ hpaused),
      fun hpaused => hattempts ▸ hturns ▸ h.resumable (hsame ▸ hpaused),
      fun a ha hretained => hsame ▸ h.retained a (hattempts ▸ ha) hretained,
      fun hterminal => houtputs ▸ h.outputs (hsame ▸ hterminal),
      fun hcompleted => houtputs ▸ h.output (hsame ▸ hcompleted),
      fun a ha => hsame ▸ h.synthesizes a (hattempts ▸ ha)⟩
  all_goals
    obtain ⟨i, attempt, hworking⟩ := (hinv.live_state (by rw [hold]; decide)).resolve_left
      (by rw [hold]; decide)
    have hlive : db.state ≠ .paused := by
      rw [hold]
      decide
    have hnone := hattempts ▸ h.not_retained hlive
    have hempty := houtputs.trans (h.outputs (by rw [hold]; decide))
  · rcases hworking.state with ⟨hqueued, -⟩ | ⟨-, hphase⟩
    · exact .queued hinv' (hattempts ▸ hworking.busy.mem) hqueued hnone hempty fun _ => .inr (.inr hnew)
    · rw [hold] at hphase
      simp at hphase
  · refine .of_live (by rw [hnew]; decide) hnone (fun _ => hempty) (fun hcompleted => ?_)
      fun a ha hopen hkind => ?_
    · rw [hnew] at hcompleted
      cases hcompleted
    · have hphase := h.synthesizes a (hattempts ▸ ha) hopen hkind
      rw [hold] at hphase
      simp at hphase
  · have hqueued : attempt.job = .queued :=
      hworking.busy.isOpen.resolve_right (hdrained attempt hworking.busy.mem)
    exact .queued hinv' (hattempts ▸ hworking.busy.mem) hqueued hnone hempty fun _ => .inr (.inr hnew)

/-- The queued job is leased. -/
theorem Clean.leased (h : Clean db) (hinv : Inv c db) (hrow : db.attempts[i]? = some attempt)
    (hqueued : attempt.job = .queued) (hattempts : db'.attempts = db.attempts.set i
      { attempt with job := .leased, lease_token := some token })
    (houtputs : db'.final_outputs = db.final_outputs)
    (hstate : (db.state = .queued ∧ db'.state = .running) ∨
      ((db.state = .running ∨ db.state = .finalizing) ∧ db'.state = db.state)) : Clean db' := by
  have hlive : db.state ≠ .paused ∧ db'.state ≠ .paused ∧ db'.state ≠ .completed := by
    rcases hstate with ⟨hold, hnew⟩ | ⟨hold | hold, hnew⟩ <;> rw [hnew, hold] <;> decide
  have hnone := h.not_retained hlive.1
  have hmem := List.mem_of_getElem? hrow
  refine .of_live hlive.2.1 ?_ (fun _ => ?_) (fun hcompleted => absurd hcompleted hlive.2.2)
    fun a ha hopen hkind => ?_
  · rw [hattempts]
    exact not_retained_set hnone (hnone attempt hmem)
  · exact houtputs.trans (h.no_output hinv hrow (.inl hqueued))
  · have hphase : db.state = .finalizing ∨ db.state = .cancelling ∨ db.state = .paused := by
      rw [hattempts] at ha
      rcases List.mem_or_eq_of_mem_set ha with hold | rfl
      · exact h.synthesizes a hold hopen hkind
      · exact h.synthesizes attempt hmem (.inl hqueued) hkind
    rcases hstate with ⟨hold, -⟩ | ⟨-, hnew⟩
    · rw [hold] at hphase
      simp at hphase
    · rw [hnew]
      exact hphase

/-- A queued job waits on, and the run is queued again. -/
theorem Clean.resumed {a : AttemptRow} (h : Clean db) (hinv : Inv c db) (hinv' : Inv c db') (ha : a ∈ db.attempts)
    (hqueued : a.job = .queued) (hattempts : db'.attempts = db.settleRetained.attempts)
    (houtputs : db'.final_outputs = db.final_outputs) (hfree : ¬ db.SynthesizerOutstanding) : Clean db' := by
  obtain ⟨j, hj⟩ := List.mem_iff_getElem?.mp ha
  -- what the settling leaves of the waiting job
  obtain ⟨b, hb, hwaits, old, hold, hjob, hactor⟩ : ∃ b ∈ db'.attempts, b.job = .queued ∧
      ∃ old ∈ db.attempts, old.job = .queued ∧ b.actor = old.actor := by
    rw [hattempts]
    rcases settleRetained_cases db with hsame | hresolved
    · rw [hsame]
      exact ⟨a, ha, hqueued, a, ha, hqueued, rfl⟩
    · rw [hresolved]
      exact ⟨_, List.mem_map_of_mem ha, hqueued, a, ha, hqueued, rfl⟩
  exact .queued hinv' hb hwaits (hattempts ▸ h.settleRetained)
    (houtputs.trans (h.no_output hinv hj (.inl hqueued)))
    fun hkind => absurd (.inl ⟨old, hold, hjob, hactor ▸ hkind⟩) hfree

theorem Clean.cancelled (hfree : ∀ attempt ∈ db.attempts, attempt.job ≠ .leased)
    (hattempts : db'.attempts = (db.resolveAll .retained_ambiguous .assume).cancelQueued.attempts)
    (hstate : db'.state = .cancelled) : Clean db' := by
  refine .of_live (by rw [hstate]; decide) ?_ (fun hlive => ?_) (fun hcompleted => ?_) fun a ha hopen => ?_
  · rw [hattempts]
    intro a ha hstatus
    obtain ⟨old, hold, rfl⟩ := List.mem_map.mp ha
    refine resolveAll_not_retained old hold ?_
    by_cases hactive : old.reservation.status = .active
    · change (old.reservation.updateIf .active .release).status = _ at hstatus
      rw [updateIf_of_status hactive] at hstatus
      cases hstatus
    · change (old.reservation.updateIf .active .release).status = _ at hstatus
      rwa [updateIf_of_ne hactive] at hstatus
  · exact absurd (.inr (.inl hstate)) hlive
  · rw [hstate] at hcompleted
    cases hcompleted
  · rw [hattempts] at ha
    exact absurd hopen (idle_cancelQueued (idle_free hfree) a ha)

/-- **A move that `Guard` admits** keeps the states clean. -/
theorem Clean.moved (h : Clean db) (hinv : Inv c db) (hmoved : Moved c db op db')
    (hguard : Guard db op) : Clean db' := by
  have hinv' := hinv.moved hmoved
  cases hmoved with
  | frame hattempts hturns _ houtputs hstate =>
    refine h.framed hinv hinv' hattempts hturns houtputs (hstate.imp_right (.imp_right (.imp_right ?_)))
    exact fun hpaused => ⟨hpaused.1, hpaused.2.1, hpaused.2.2 hguard⟩
  | leased _ _ _ hrow hqueued hattempts _ _ houtputs hstate =>
    exact h.leased hinv hrow hqueued hattempts houtputs hstate
  | closed _ _ _ _ _ hrow hleased hends hresolved hattempts hturns _ hstate hretains hkeeps hpauses
      hcompletes =>
    exact h.closed hinv hrow hleased hends hresolved hattempts hturns hstate
      (fun hretained => ⟨(hretains hretained).1, (hretains hretained).2.1,
        (hretains hretained).2.2 hguard⟩) hkeeps (fun hpaused => hpauses hpaused hguard)
      (fun hcompleted => hcompletes hcompleted hguard)
  | advanced _ _ _ _ _ _ hrow hleased _ _ hattempts _ _ _ houtputs _ hfinalizes =>
    refine .queued hinv' (hattempts ▸ List.mem_append_right _ (List.mem_singleton.mpr rfl)) rfl ?_
      (houtputs.trans (h.no_output hinv hrow (.inr hleased))) fun hkind => (hfinalizes hkind).imp_right .inr
    rw [hattempts]
    exact not_retained_concat (not_retained_set (h.not_retained (h.leased_state hrow hleased))
      fun hstatus => nomatch hstatus) fun hstatus => nomatch hstatus
  | replaced _ attempt hrow hleased hattempts _ _ houtputs hstate =>
    refine .queued hinv' (hattempts ▸ List.mem_append_right _ (List.mem_singleton.mpr rfl)) rfl ?_
      (houtputs.trans (h.no_output hinv hrow (.inr hleased))) fun hkind => ?_
    · rw [hattempts]
      exact not_retained_concat (not_retained_set (h.not_retained (h.leased_state hrow hleased))
        fun hstatus => nomatch hstatus) fun hstatus => nomatch hstatus
    · rw [hstate.1]
      exact h.synthesizes attempt (List.mem_of_getElem? hrow) (.inr hleased) hkind
  | resumed hwaits hattempts _ _ houtputs _ hguarded =>
    obtain ⟨a, ha, hqueued⟩ := hwaits
    exact h.resumed hinv hinv' ha hqueued hattempts houtputs (hguarded hguard)
  | retried _ target _ _ htarget hfailed hattempts _ _ _ houtputs hstate hguarded =>
    refine .queued hinv' (hattempts ▸ List.mem_append_right _ (List.mem_singleton.mpr rfl)) rfl ?_
      (houtputs.trans (h.outputs (by rw [hstate.1]; decide))) fun hkind => absurd ?_ (hguarded hguard)
    · rw [hattempts]
      exact not_retained_concat h.settleRetained fun hstatus => nomatch hstatus
    · exact .inr ⟨target, List.mem_of_getElem? htarget, hfailed, hkind⟩
  | cancelling hleased hattempts _ _ houtputs hstate =>
    obtain ⟨a, ha, hleased⟩ := hleased
    obtain ⟨j, hj⟩ := List.mem_iff_getElem?.mp ha
    refine .of_live (by rw [hstate]; decide) (hattempts ▸ resolveAll_not_retained)
      (fun _ => houtputs.trans (h.no_output hinv hj (.inr hleased))) (fun hcompleted => ?_)
      fun _ _ _ _ => .inr (.inl hstate)
    rw [hstate] at hcompleted
    cases hcompleted
  | cancelled hfree hattempts _ _ _ hstate => exact .cancelled hfree hattempts hstate

theorem Clean.step (h : Clean db) (hinv : Inv c db) (hguard : Guard db op) :
    Clean (step c db op) :=
  commit_induct h fun _ hok => h.moved hinv (apply_moved hinv hok) hguard

theorem Started.clean {first : Actor} {amount : ℚ} (h : Started c db first amount) : Clean db := by
  have hinv := h.inv
  obtain ⟨-, rfl, hkind⟩ := h
  refine .queued hinv (List.mem_singleton.mpr rfl) rfl (fun a ha hstatus => ?_) rfl
    fun hsynthesizer => absurd hsynthesizer hkind
  rw [List.mem_singleton.mp ha] at hstatus
  cases hstatus

end

end Norns.Debates
