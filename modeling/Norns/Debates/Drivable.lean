import Norns.Debates.Clean

/-! # A debate run that stays drivable

A paused run is resumed within its budget, and a resumed one is completed by its worker: each turn is
claimed and completed, and what is left of the run (`RunConfig.rank`) decreases.

* `resume_commits`: resuming;
* `Follows.rank_lt`, `complete_continues`, `Waits.finishes`: completing;
* `run_stays_drivable`: the runs;
* `resumed_synthesizer_stuck`: a run whose synthesizer was resumed. -/

namespace Norns.Debates

open Norns.Lib Norns.Lib.Run Norns.Lib.Transaction

/-- A claim, or the completion of a turn at a time. -/
def Op.Works (now : ℤ) : Op → Prop
  | .claim _ _ => True
  | .complete _ _ _ _ at_ => at_ = now
  | _ => False

/-- The run is completed by claiming and completing turns. -/
def Finishes (c : RunConfig) (now : ℤ) (db : RunDb) : Prop := ∃ ops, (∀ op ∈ ops, op.Works now) ∧
  Along (step c) (fun db op => Commits (apply c db op)) db ops ∧ (run (step c) db ops).state = .completed

/-- **Drivable.** -/
structure Drivable (c : RunConfig) (db : RunDb) : Prop where
  busy : ¬ db.state.terminal → db.state ≠ .paused →
    ∃! i : ℕ, ∃ attempt : AttemptRow, db.attempts[i]? = some attempt ∧ attempt.Open
  cancels : db.state = .paused → ∀ assumeFullCharge, Commits (control c db .cancel assumeFullCharge)
  resumes : db.state = .paused → Commits (control c db .resume true) ∨ control c db .resume true =
    .error (.refused "debate_budget_exhausted_after_ambiguity_reconciliation")
  completes : ∀ assumeFullCharge db', Guard db (.control .resume assumeFullCharge) →
    control c db .resume assumeFullCharge = .ok db' → ∀ now, Finishes c now db'
  finishes : db.state = .queued ∨ db.state = .running ∨ db.state = .finalizing → ∀ now, Finishes c now db
  output : db.state = .completed → db.final_outputs.length = 1
  rests : db.state.terminal → ∀ attempt ∈ db.attempts, ¬ attempt.Open ∧
    attempt.reservation.status ≠ .active

section

variable {c : RunConfig} {db db' : RunDb} {op : Op} {i : ℕ} {attempt : AttemptRow} {token : String}

/-! ### Cancelling and resuming -/

theorem cancel_commits {assumeFullCharge : Bool} (hpaused : db.state = .paused) :
    Commits (control c db .cancel assumeFullCharge) := by
  unfold control
  refine commits_bind.mpr ⟨(), refuse_eq_ok.mpr (by rw [hpaused]; decide), ?_⟩
  refine commits_bind.mpr ⟨(), refuse_eq_ok.mpr (fun h => nomatch h.1), ?_⟩
  refine commits_bind.mpr ⟨(), refuse_eq_ok.mpr (fun h => nomatch h.1), ?_⟩
  dsimp only
  split
  · obtain ⟨moved, hok⟩ := transitionRunState_commits (db.resolveAll .retained_ambiguous .assume)
      .cancelling (.inr (hpaused ▸ by decide))
    exact ⟨_, map_eq_ok.mpr ⟨_, hok, rfl⟩⟩
  · obtain ⟨moved, hok⟩ := transitionRunState_commits (db.resolveAll .retained_ambiguous .assume)
      .cancelled (.inr (hpaused ▸ by decide))
    exact commits_bind.mpr ⟨_, hok, commits_pure⟩

theorem retryTarget_isSome (h : ∃ turn ∈ db.turns, turn.Failed) :
    ∃ target t, db.retryTarget = some (target, t) := by
  obtain ⟨turn, hturn, hfailed⟩ := h
  obtain ⟨t, ht⟩ := List.mem_iff_getElem?.mp hturn
  have hsome : (db.retryTarget).isSome := by
    refine List.find?_isSome.mpr ⟨(turn, t), List.mem_reverse.mpr ?_, decide_eq_true hfailed⟩
    exact List.mk_mem_zipIdx_iff_getElem?.mpr ht
  obtain ⟨⟨target, t⟩, htarget⟩ := Option.isSome_iff_exists.mp hsome
  exact ⟨target, t, htarget⟩

/-- Only the budget refuses a resume. -/
theorem prepareResume_commits (hc : c.Ok) (hinv : Inv c db) (hclean : Clean db)
    (hpaused : db.state = .paused) : Commits (prepareResume c db true) ∨ prepareResume c db true =
      .error (.refused "debate_budget_exhausted_after_ambiguity_reconciliation") := by
  unfold prepareResume
  rw [show refuse (0 < db.retained ∧ true = false)
      (DebateError.refused "ambiguous_usage_reconciliation_required") = .ok () from
    refuse_eq_ok.mpr fun h => nomatch h.2]
  change Commits (if _ then _ else _) ∨ (if _ then _ else _) = _
  split
  · exact .inl commits_pure
  · rename_i hwaits
    have hidle : Idle db.attempts := by
      intro a ha hopen
      have hqueued := hopen.resolve_right (hclean.drained hpaused a ha)
      refine hwaits ?_
      rcases settleRetained_cases db with hsame | hresolved
      · rw [hsame]
        exact ⟨a, ha, hqueued⟩
      · rw [hresolved]
        exact ⟨_, List.mem_map_of_mem ha, hqueued⟩
    have hfailed := hclean.resumable hpaused hidle
    rw [← settleRetained_turns] at hfailed
    obtain ⟨target, t, htarget⟩ := retryTarget_isSome hfailed
    obtain ⟨hrow, -⟩ := retryTarget_some htarget
    rw [settleRetained_turns] at hrow
    obtain ⟨snapshot, hsnapshot, -, -, hcovers⟩ :=
      hc.snapshot target.actor (hinv.turns.actor target (List.mem_of_getElem? hrow))
    rw [htarget]
    dsimp only
    rw [hsnapshot]
    dsimp only
    rw [show refuse (target.actor.budget_limit_usd < snapshot.maximum_turn_charge_usd)
        (DebateError.refused "actor_budget_below_maximum_turn_charge") = .ok () from
      refuse_eq_ok.mpr (not_lt.mpr hcovers)]
    by_cases hbudget : c.debate.stopping_policy.max_total_cost_usd <
          db.settleRetained.committed + snapshot.maximum_turn_charge_usd ∨
        target.actor.budget_limit_usd <
          db.settleRetained.actorCommitted target.actor.id + snapshot.maximum_turn_charge_usd
    · right
      unfold refuse
      rw [if_pos hbudget]
      rfl
    · left
      unfold refuse
      rw [if_neg hbudget]
      exact commits_ok

theorem resume_commits (hc : c.Ok) (hinv : Inv c db) (hclean : Clean db) (hpaused : db.state = .paused) :
    Commits (control c db .resume true) ∨ control c db .resume true =
      .error (.refused "debate_budget_exhausted_after_ambiguity_reconciliation") := by
  unfold control
  rw [show refuse db.state.terminal (DebateError.refused "debate_run_terminal") = .ok () from
      refuse_eq_ok.mpr (by rw [hpaused]; decide),
    show refuse (ControlAction.resume = .resume ∧ db.state ≠ .paused)
      (DebateError.refused "debate_run_not_paused") = .ok () from
      refuse_eq_ok.mpr (fun h => h.2 hpaused),
    show refuse (ControlAction.resume = .pause ∧ db.state = .finalizing)
      (DebateError.refused "debate_run_is_finalizing") = .ok () from
      refuse_eq_ok.mpr (fun h => nomatch h.1)]
  change Commits (prepareResume c db true >>= _) ∨ (prepareResume c db true >>= _) = _
  rcases prepareResume_commits hc hinv hclean hpaused with ⟨db₁, hok⟩ | herror
  · left
    have hsame : db₁.state = .paused := by
      rcases prepareResume_ok hinv.turns hok with ⟨-, rfl⟩ | ⟨_, _, _, _, -, -, -, rfl⟩
      · exact settleRetained_state.trans hpaused
      · exact settleRetained_state.trans hpaused
    obtain ⟨moved, hmove⟩ := transitionRunState_commits db₁ .queued
      (.inr (hsame ▸ by decide))
    exact commits_bind.mpr ⟨db₁, hok, _, map_eq_ok.mpr ⟨_, hmove, rfl⟩⟩
  · right
    rw [herror]
    rfl

/-! ### What is left of a run -/

/-- The actors of a round that come from this one on. -/
def RunConfig.left (c : RunConfig) (actor : Actor) : ℕ :=
  (c.participants ++ c.judge.toList).length -
    (c.participants ++ c.judge.toList).findIdx fun other => other.id = actor.id

/-- The turns that can come from this one on, but for the synthesizer's. -/
def RunConfig.rank (c : RunConfig) (round_number : ℕ) (actor : Actor) : ℕ :=
  if actor.actor_kind = .synthesizer then 0
  else (c.debate.stopping_policy.max_rounds - round_number) *
    ((c.participants ++ c.judge.toList).length + 1) + c.left actor + 1

/-- No two actors of a round have one id. -/
theorem roundActors_nodup (c : RunConfig) : ((c.participants ++ c.judge.toList).map Actor.id).Nodup := by
  have hnodup := c.debate.ids_nodup
  rw [List.map_append, List.nodup_append]
  refine ⟨(List.filter_sublist.map _).nodup hnodup, ?_, fun id hid id' hid' hsame => ?_⟩
  · cases c.judge <;> simp
  · obtain ⟨a, ha, rfl⟩ := List.mem_map.mp hid
    obtain ⟨b, hb, rfl⟩ := List.mem_map.mp hid'
    obtain ⟨ha, hparticipant⟩ := List.mem_filter.mp ha
    have hfind := Option.mem_toList.mp hb
    have hjudge : b.actor_kind = .judge := of_decide_eq_true (List.find?_some hfind :)
    have hkind : a.actor_kind = .participant := of_decide_eq_true hparticipant
    rw [List.inj_on_of_nodup_map hnodup ha (List.mem_of_find?_eq_some hfind) hsame, hjudge] at hkind
    cases hkind

theorem RunConfig.left_le (c : RunConfig) (actor : Actor) :
    c.left actor ≤ (c.participants ++ c.judge.toList).length := Nat.sub_le _ _

/-- The next actor of the round has fewer turns to come. -/
theorem nextActor_left {actor next : Actor} (h : c.nextActor actor = some next) :
    c.left next < c.left actor := by
  unfold RunConfig.nextActor at h
  obtain ⟨k, hk, hnext⟩ := Option.bind_eq_some_iff.mp h
  have hnodup := roundActors_nodup c
  unfold RunConfig.left
  revert hk hnext hnodup
  generalize c.participants ++ c.judge.toList = actors
  intro hk hnext hnodup
  have hfind : actors.findIdx (fun other => other.id = actor.id) = k :=
    (List.findIdx?_eq_some_iff_findIdx_eq.mp hk).2
  obtain ⟨hlt, hget⟩ := List.getElem?_eq_some_iff.mp hnext
  have hindex : actors.findIdx (fun other => other.id = next.id) = k + 1 := by
    refine (List.findIdx_eq hlt).mpr ⟨by simp [hget], fun j hj => ?_⟩
    have hne : actors[j].id ≠ next.id := by
      intro hsame
      rw [← hget] at hsame
      have hlength : (actors.map Actor.id).length = actors.length := List.length_map _
      have hj' : j < (actors.map Actor.id).length := by omega
      have hk' : k + 1 < (actors.map Actor.id).length := by omega
      have hids : (actors.map Actor.id)[j] = (actors.map Actor.id)[k + 1] := by
        rw [List.getElem_map, List.getElem_map]
        exact hsame
      have := hnodup.getElem_inj_iff.mp hids
      omega
    simpa using hne
  omega

/-- **The turn that follows** is nearer to the end. -/
theorem Follows.rank_lt {actor next : Actor} {round_number next_round : ℕ}
    (h : Follows c actor round_number next next_round) (hkind : actor.actor_kind ≠ .synthesizer) :
    c.rank next_round next < c.rank round_number actor := by
  unfold RunConfig.rank
  rw [if_neg hkind]
  cases h with
  | next hnext =>
    rw [if_neg (nextActor_mem hnext).2]
    have hleft := nextActor_left hnext
    omega
  | synthesizer hsynthesizer =>
    rw [if_pos (of_decide_eq_true (List.find?_some hsynthesizer :))]
    omega
  | round hfirst more =>
    rw [if_neg (participants_head hfirst).2]
    have hleft := c.left_le next
    obtain ⟨m, hm⟩ : ∃ m, c.debate.stopping_policy.max_rounds - round_number = m + 1 :=
      ⟨_, (Nat.succ_pred_eq_of_pos (by omega)).symm⟩
    rw [show c.debate.stopping_policy.max_rounds - (round_number + 1) = m by omega, hm, Nat.succ_mul]
    omega

/-! ### Completing after a resume -/

/-- No reservation is active or ambiguous. -/
def Quiet (attempts : List AttemptRow) : Prop := ∀ a ∈ attempts,
  a.reservation.status ≠ .active ∧ a.reservation.status ≠ .retained_ambiguous

theorem Quiet.not_unresolved {attempts : List AttemptRow} (h : Quiet attempts) : ¬ Unresolved attempts := by
  rintro ⟨a, ha, hactive | hretained⟩
  · exact (h a ha).1 hactive
  · exact (h a ha).2 hretained

theorem completeRun_commits {round_number : ℕ} (hquiet : Quiet db.attempts) (hstate : db.state = .finalizing) :
    Commits (completeRun db round_number) := by
  obtain ⟨moved, hok⟩ := transitionRunState_commits db .completed (.inr (by rw [hstate]; decide))
  unfold completeRun
  rw [if_neg (show ¬ ∃ attempt ∈ db.attempts, _ from hquiet.not_unresolved)]
  exact commits_bind.mpr ⟨_, hok, commits_pure⟩

theorem finalizes_commits (db : RunDb) (hstate : db.state = .running ∨ db.state = .finalizing) :
    ∃ moved, transitionRunState db .finalizing = .ok (moved, { db with state := .finalizing }) :=
  transitionRunState_commits db .finalizing (finalizes_legal (hstate.imp_right .inr))

/-- A turn is queued, or the run ends for lack of budget. -/
theorem scheduleTurn_commits (hc : c.Ok) {claimRound roundNumber : ℕ} {actor : Actor} {createRound : Bool}
    (hactor : actor ∈ c.debate.actors) (hquiet : Quiet db.attempts) (hmessages : db.messages ≠ [])
    (hstate : db.state = .running ∨ db.state = .finalizing) :
    Commits (scheduleTurn c db claimRound actor roundNumber createRound) := by
  obtain ⟨snapshot, hsnapshot, -, -, hcovers⟩ := hc.snapshot actor hactor
  unfold scheduleTurn
  rw [hsnapshot]
  refine commits_bind.mpr ⟨(), refuse_eq_ok.mpr (not_lt.mpr hcovers), ?_⟩
  split
  · rcases hlast : db.messages.getLast? with _ | content
    · exact absurd (List.getLast?_eq_none_iff.mp hlast) hmessages
    · obtain ⟨moved, hok⟩ := finalizes_commits (db.offerFinalOutput content)
        (by rw [offerFinalOutput_state]; exact hstate)
      refine commits_bind.mpr ⟨_, hok, completeRun_commits ?_ rfl⟩
      rw [show ({ db.offerFinalOutput content with state := .finalizing } : RunDb).attempts = db.attempts from
        offerFinalOutput_attempts]
      exact hquiet
  · split
    · exact commits_pure
    · exact commits_pure

/-- **The run advances** after each turn. -/
theorem advance_commits (hc : c.Ok) {actor : Actor} {round_number : ℕ} {content : String} {now : ℤ}
    {stopAfter : StopAfter} (hquiet : Quiet db.attempts) (hmessages : db.messages ≠ [])
    (hstate : db.state = .running ∨ db.state = .finalizing)
    (hfinal : actor.actor_kind = .synthesizer → db.state = .finalizing)
    (houtputs : actor.actor_kind ≠ .synthesizer → db.final_outputs = []) :
    Commits (advance c db actor round_number content now stopAfter) := by
  unfold advance
  split
  · rename_i hkind
    exact completeRun_commits hquiet (hfinal hkind)
  · rename_i hkind
    split
    · rename_i next hnext
      have hnext : c.nextActor actor = some next := by
        split at hnext
        · cases hnext
        · exact hnext
      exact scheduleTurn_commits hc (nextActor_mem hnext).1 hquiet hmessages hstate
    · dsimp only
      split
      · obtain ⟨moved, hok⟩ := finalizes_commits (db.recordRound round_number
          (roundSignals c db round_number)) hstate
        refine commits_bind.mpr ⟨_, hok, ?_⟩
        dsimp only
        split
        · rename_i synthesizer hsynthesizer
          exact scheduleTurn_commits hc (List.mem_of_find?_eq_some hsynthesizer) hquiet hmessages (.inr rfl)
        · refine commits_bind.mpr ⟨_, if_neg ?_, completeRun_commits hquiet rfl⟩
          show ¬ ∃ output ∈ db.final_outputs, output.revision = false
          rw [houtputs hkind]
          simp
      · split
        · rename_i hnone
          exact absurd (List.head?_eq_none_iff.mp hnone) hc.participants
        · rename_i first hfirst
          exact scheduleTurn_commits hc (participants_head hfirst).1 hquiet hmessages hstate

/-- A turn waits to be claimed. -/
structure Waits (c : RunConfig) (db : RunDb) (i : ℕ) (attempt : AttemptRow) (round_number : ℕ) : Prop where
  inv : Inv c db
  clean : Clean db
  row : db.attempts[i]? = some attempt
  queued : attempt.job = .queued
  turn : ∃ turn, db.turns[attempt.turn]? = some turn ∧ turn.round_number = round_number
  state : db.state = .queued ∨ db.state = .running ∨ db.state = .finalizing

/-- A turn is held by a worker. -/
structure Held (c : RunConfig) (db : RunDb) (i : ℕ) (token : String) (attempt : AttemptRow)
    (round_number : ℕ) : Prop where
  inv : Inv c db
  clean : Clean db
  row : db.attempts[i]? = some attempt
  leased : attempt.leasedBy token
  turn : ∃ turn, db.turns[attempt.turn]? = some turn ∧ turn.round_number = round_number
  state : db.state = .running ∨ db.state = .finalizing

theorem Waits.claims {round_number : ℕ} (h : Waits c db i attempt round_number) (token : String) :
    ∃ db', claim db i token = .ok db' ∧ Held c db' i token
      { attempt with
        job := .leased
        lease_token := some token } round_number := by
  obtain ⟨turn, hturn, hround⟩ := h.turn
  have hclaim : ∃ db', claim db i token = .ok db' ∧ db' =
      { (db.setAttempt i { attempt with
          job := .leased
          lease_token := some token }).setDesignatedTurns i .running with
        state := if db.state = .queued then .running else db.state } := by
    unfold claim
    rw [h.row]
    dsimp only
    rw [if_pos ⟨h.queued, h.state⟩]
    split
    · rename_i hqueued
      obtain ⟨moved, hok⟩ := transitionRunState_commits
        ((db.setAttempt i { attempt with
          job := .leased
          lease_token := some token }).setDesignatedTurns i .running) .running
        (.inr (show canDebateRunTransition db.state .running from hqueued ▸ by decide))
      exact ⟨_, map_eq_ok.mpr ⟨_, hok, rfl⟩, rfl⟩
    · exact ⟨_, rfl, rfl⟩
  obtain ⟨db', hok, hdb'⟩ := hclaim
  have hmoved := claim_moved (c := c) hok
  refine ⟨db', hok, h.inv.moved hmoved, h.clean.moved h.inv hmoved trivial, ?_, ⟨rfl, rfl⟩, ?_, ?_⟩
  · rw [hdb']
    exact List.getElem?_set_self (List.getElem?_eq_some_iff.mp h.row).1
  · rw [hdb']
    refine ⟨_, (List.getElem?_map ..).trans (congrArg _ hturn), ?_⟩
    dsimp only
    split <;> exact hround
  · rw [hdb']
    dsimp only
    split
    · exact .inl rfl
    · rename_i hqueued
      exact h.state.resolve_left hqueued

/-- **A turn that is held is completed**, and the run is, or the next turn waits. -/
theorem Held.completes (hc : c.Frozen) {round_number : ℕ} (h : Held c db i token attempt round_number)
    (now : ℤ) : ∃ db', complete c db i token { content := "done" } ⟨0, 0⟩ now = .ok db' ∧
      (db'.state = .completed ∨ ∃ j next next_round, Waits c db' j next next_round ∧
        c.rank next_round next.actor < c.rank round_number attempt.actor) := by
  obtain ⟨turn, hturn, rfl⟩ := h.turn
  have hactor := (h.inv.row h.row).actor
  obtain ⟨snapshot, hsnapshot, -⟩ := hc.snapshot attempt.actor hactor
  have hcharge : 0 ≤ attempt.reservation.amount_usd := by
    rw [(h.inv.row h.row).amount snapshot hsnapshot]
    exact hc.charge attempt.actor hactor snapshot hsnapshot
  have hcost : snapshot.frozenCostUsd 0 0 = 0 := by simp [ActorExecutionSnapshot.frozenCostUsd]
  have hworking := h.inv.working h.row (.inr h.leased.1)
  have hlive : db.state ≠ .paused ∧ db.state ≠ .cancelling ∧ db.state ≠ .pausing := by
    rcases h.state with hstate | hstate <;> rw [hstate] <;> decide
  let stored := db.storeOutput i attempt turn.round_number { content := "done" } ⟨0, 0⟩
    (snapshot.frozenCostUsd 0 0)
  have hsettled : (attempt.reservation.settle (snapshot.frozenCostUsd 0 0)).status ≠ .active ∧
      (attempt.reservation.settle (snapshot.frozenCostUsd 0 0)).status ≠ .retained_ambiguous := by
    constructor <;> exact fun hstatus => nomatch hstatus
  have hquiet : Quiet stored.attempts := by
    intro a ha
    refine ⟨(h.inv.closed_rows hworking (close_not_open (by decide)) hsettled.1 a ha).2, ?_⟩
    exact not_retained_set (h.clean.not_retained hlive.1) hsettled.2 a ha
  have hfinal : attempt.actor.actor_kind = .synthesizer → stored.state = .finalizing := by
    intro hkind
    refine (h.clean.synthesizes attempt (List.mem_of_getElem? h.row) (.inr h.leased.1) hkind).resolve_right ?_
    exact fun hother => hother.elim hlive.2.1 hlive.1
  have houtputs : attempt.actor.actor_kind ≠ .synthesizer → stored.final_outputs = [] := by
    intro hkind
    exact (if_neg hkind).trans (h.clean.no_output h.inv h.row (.inr h.leased.1))
  obtain ⟨advanced, hadvance⟩ :
      Commits (advance c stored attempt.actor turn.round_number "done" now db.stop_after) :=
    advance_commits hc.toOk hquiet (List.append_ne_nil_of_right_ne_nil _ (List.cons_ne_nil _ _)) h.state
      hfinal houtputs
  have hok : complete c db i token { content := "done" } ⟨0, 0⟩ now = .ok advanced := by
    unfold complete
    rw [h.row]
    refine bind_eq_ok.mpr ⟨(), refuse_eq_ok.mpr (not_not.mpr h.leased), ?_⟩
    rw [hturn, hsnapshot]
    refine bind_eq_ok.mpr ⟨(), refuse_eq_ok.mpr (fun hcited => ?_), ?_⟩
    · obtain ⟨-, message, hmessage, -⟩ := hcited
      cases hmessage
    refine bind_eq_ok.mpr ⟨(), refuse_eq_ok.mpr ?_, ?_⟩
    · rw [hcost]
      linarith
    rw [if_neg hlive.2.1]
    refine bind_eq_ok.mpr ⟨advanced, hadvance, ?_⟩
    rw [if_neg fun hpausing => hlive.2.2 hpausing.1]
    rfl
  have hmoved := complete_moved h.inv hok
  refine ⟨advanced, hok, ?_⟩
  rcases advance_ok hadvance with ⟨hends, -⟩ | ⟨hstate, hkind, next, next_round, amount, hopens, hfollows, -⟩
  · exact .inl (hends.state.resolve_left fun hpaused => hquiet.not_unresolved hpaused.2)
  · refine .inr ⟨stored.attempts.length, { turn := stored.turns.length, attempt_number := 1, actor := next
                                           reservation := { amount_usd := amount } }, next_round,
      ⟨h.inv.moved hmoved, h.clean.moved h.inv hmoved trivial, ?_, rfl, ?_, ?_⟩, hfollows.rank_lt hkind⟩
    · rw [hopens.attempts]
      exact List.getElem?_concat_length
    · refine ⟨{ round_number := next_round, actor := next, designated_attempt := stored.attempts.length }, ?_,
        rfl⟩
      rw [hopens.turns]
      exact List.getElem?_concat_length
    · rcases hstate with hsame | ⟨hfinalizing, -⟩
      · rw [hsame]
        exact .inr h.state
      · exact .inr (.inr hfinalizing)

theorem Finishes.of_step (op : Op) {now : ℤ} (hworks : op.Works now) (hok : apply c db op = .ok db')
    (h : Finishes c now db') : Finishes c now db := by
  obtain ⟨ops, hops, hcommits, hend⟩ := h
  refine ⟨op :: ops, fun other hother => ?_, ⟨⟨db', hok⟩, ?_⟩, ?_⟩
  · rcases List.mem_cons.mp hother with rfl | hother
    · exact hworks
    · exact hops other hother
  · rw [step_of_ok hok]
    exact hcommits
  · rw [run_cons, step_of_ok hok]
    exact hend

theorem Finishes.of_completed {now : ℤ} (h : db.state = .completed) : Finishes c now db :=
  ⟨[], fun _ hop => absurd hop List.not_mem_nil, trivial, h⟩

/-- **A run whose turn waits** is completed, by induction on what is left of it. -/
theorem Waits.finishes (hc : c.Frozen) (now : ℤ) {round_number : ℕ} (h : Waits c db i attempt round_number) :
    Finishes c now db := by
  induction hrank : c.rank round_number attempt.actor using Nat.strong_induction_on
    generalizing db i attempt round_number with
  | h n ih =>
    obtain ⟨held, hclaim, hheld⟩ := h.claims ""
    obtain ⟨db', hcomplete, hnext⟩ := hheld.completes hc now
    refine .of_step (.claim i "") trivial hclaim (.of_step (.complete i "" _ _ now) rfl hcomplete ?_)
    rcases hnext with hcompleted | ⟨j, next, next_round, hwaits, hless⟩
    · exact .of_completed hcompleted
    · exact ih _ (hrank ▸ hless) hwaits rfl

/-- **A run that is not paused or cancelled** is completed. -/
theorem Clean.finishes (h : Clean db) (hc : c.Frozen) (hinv : Inv c db)
    (hstate : db.state = .queued ∨ db.state = .running ∨ db.state = .finalizing) (now : ℤ) :
    Finishes c now db := by
  have hlive : ¬ db.state.terminal ∧ db.state ≠ .paused := by
    rcases hstate with hstate | hstate | hstate <;> rw [hstate] <;> decide
  obtain ⟨i, attempt, hworking⟩ := (hinv.live_state hlive.1).resolve_left hlive.2
  obtain ⟨turn, hturn, -⟩ := hworking.turn
  rcases hworking.state with ⟨hqueued, -⟩ | ⟨hleased, hphase⟩
  · exact Waits.finishes hc now ⟨hinv, h, hworking.busy.row, hqueued, ⟨turn, hturn, rfl⟩, hstate⟩
  · obtain ⟨token, htoken⟩ := Option.ne_none_iff_exists'.mp ((hinv.row hworking.busy.row).token.mpr hleased)
    have hrunning : db.state = .running ∨ db.state = .finalizing := by
      refine hstate.resolve_left fun hqueued => ?_
      rw [hqueued] at hphase
      simp at hphase
    have hheld : Held c db i token attempt turn.round_number :=
      ⟨hinv, h, hworking.busy.row, ⟨hleased, htoken⟩, ⟨turn, hturn, rfl⟩, hrunning⟩
    obtain ⟨db', hcomplete, hnext⟩ := hheld.completes hc now
    refine .of_step (.complete i token _ _ now) rfl hcomplete ?_
    rcases hnext with hcompleted | ⟨j, next, next_round, hwaits, -⟩
    · exact .of_completed hcompleted
    · exact hwaits.finishes hc now

theorem resume_state {assumeFullCharge : Bool}
    (h : control c db .resume assumeFullCharge = .ok db') : db'.state = .queued := by
  unfold control at h
  obtain ⟨_, -, h⟩ := bind_eq_ok.mp h
  obtain ⟨_, -, h⟩ := bind_eq_ok.mp h
  obtain ⟨_, -, h⟩ := bind_eq_ok.mp h
  obtain ⟨db₁, -, h⟩ := bind_eq_ok.mp h
  obtain ⟨rfl, -⟩ := transition_ok h
  rfl

/-! ### Runs -/

theorem Clean.drivable (h : Clean db) (hc : c.Frozen) (hinv : Inv c db) : Drivable c db where
  busy hlive hpaused := by
    obtain ⟨i, attempt, hworking⟩ := (hinv.live_state hlive).resolve_left hpaused
    refine ⟨i, ⟨attempt, hworking.busy.row, hworking.busy.isOpen⟩, ?_⟩
    rintro j ⟨other, hother, hopen⟩
    exact hworking.busy.only j other hother hopen
  cancels hpaused _ := cancel_commits hpaused
  resumes hpaused := resume_commits hc.toOk hinv h hpaused
  completes assumeFullCharge db' hguard hok := by
    have hmoved := control_moved hinv hok
    exact (h.moved hinv hmoved hguard).finishes hc (hinv.moved hmoved) (.inl (resume_state hok))
  finishes := h.finishes hc hinv
  output := h.output
  rests hterminal := by
    have hidle : Idle db.attempts := by
      rcases hinv.phase with hrest | ⟨i, attempt, hworking⟩
      · exact hrest.idle
      · unfold RunState.terminal at hterminal
        rcases hworking.state with ⟨-, hstate⟩ | ⟨-, hstate⟩
        · rcases hterminal with heq | heq | heq <;> rw [heq] at hstate <;> simp at hstate
        · rcases hterminal with heq | heq | heq <;> rw [heq] at hstate <;> simp at hstate
    exact fun a ha => ⟨hidle a ha, fun hactive => hidle a ha ((hinv.rows a ha).active.mp hactive)⟩

/-- **A run whose steps satisfy `Guard`** asks for no illegal transition and stays drivable. -/
theorem run_stays_drivable (debate : Debate) (quote : Actor → PricingSnapshot × ℚ) (started_at : ℤ)
    (maxAttempts : ℕ) (sha256 : String → String) (db : RunDb)
    (hstart : start (.of debate quote started_at maxAttempts sha256) = .ok db)
    (hquote : ∀ actor ∈ debate.actors, 0 ≤ (quote actor).2) (ops : List Op)
    (hguard : Along (step (.of debate quote started_at maxAttempts sha256)) Guard db ops) :
    Along (step (.of debate quote started_at maxAttempts sha256))
        (fun db op => Legal (apply (.of debate quote started_at maxAttempts sha256) db op)) db ops ∧
      Drivable (.of debate quote started_at maxAttempts sha256)
        (run (step (.of debate quote started_at maxAttempts sha256)) db ops) := by
  have hc := start_frozen hstart hquote
  obtain ⟨first, amount, hstarted⟩ := start_started hc.toOk hstart
  have hstep : ∀ db op, Inv _ db ∧ Clean db → Guard db op →
      Inv _ (step (.of debate quote started_at maxAttempts sha256) db op) ∧
        Clean (step (.of debate quote started_at maxAttempts sha256) db op) :=
    fun db op h hg => ⟨h.1.step op, h.2.step h.1 hg⟩
  obtain ⟨hinv, hclean⟩ := run_induct hstep ⟨hstarted.inv, hstarted.clean⟩ hguard
  refine ⟨along_of_invariant hstep ?_ ⟨hstarted.inv, hstarted.clean⟩ hguard, hclean.drivable hc hinv⟩
  exact fun db op h hg => apply_legal h.1 h.2 hg

end

/-! ### Examples of runs -/

/-- Two participants and a synthesizer, one round. -/
def exampleDebate : Debate where
  actors := [⟨"a", .participant, 5, 1000, 500, 3⟩, ⟨"b", .participant, 5, 1000, 500, 3⟩,
    ⟨"s", .synthesizer, 5, 1000, 500, 3⟩]
  stopping_policy := ⟨some 1, 3, 3600, 100000, 100000, 10, true, none, none, 3⟩
  ids_nodup := by decide

def exampleRun : RunConfig := .of exampleDebate (fun _ => (⟨1, 1⟩, 1)) 0 3 id

/-- The first turn is queued. -/
def exampleDb : RunDb := RunDb.openTurn {
  state := .queued, rounds := [{ round_number := 1 }], turns := [], attempts := [] }
    ⟨"a", .participant, 5, 1000, 500, 3⟩ 1 1

theorem run_stays_drivable_three_turns : Drivable exampleRun (run (step exampleRun) exampleDb
    [.claim 0 "t", .control .pause false, .complete 0 "t" { content := "first" } ⟨10, 10⟩ 1,
      .control .resume false, .claim 1 "u", .complete 1 "u" { content := "second" } ⟨10, 10⟩ 2,
      .claim 2 "v", .complete 2 "v" { content := "answer" } ⟨10, 10⟩ 3]) :=
  (run_stays_drivable exampleDebate (fun _ => (⟨1, 1⟩, 1)) 0 3 id exampleDb (by decide +kernel)
    (fun _ _ => by decide +kernel) _ (by decide +kernel)).2

/-- **A run whose synthesizer was resumed is stuck.** A pause while the last participant's turn is
completed leaves the synthesizer's turn queued; a resume forgets that the run was finalizing, and the
synthesizer's output is then refused, since it completes a run that is running. -/
theorem resumed_synthesizer_stuck : start exampleRun = .ok exampleDb ∧
    apply exampleRun (run (step exampleRun) exampleDb
      [.claim 0 "t", .complete 0 "t" { content := "first" } ⟨10, 10⟩ 1, .claim 1 "u",
        .control .pause false, .complete 1 "u" { content := "second" } ⟨10, 10⟩ 2,
        .control .resume false, .claim 2 "v"])
      (.complete 2 "v" { content := "answer" } ⟨10, 10⟩ 3) =
    .error (.illegalTransition .running .completed) := by
  decide +kernel

end Norns.Debates
