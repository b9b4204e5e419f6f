import Norns.Debates.Service

/-! # What a step of a debate can do

* `Inv`: what holds in every state of every run: at most one job is queued or leased, its reservation
  is the active one, its turn designates it;
* `Moved`: what a step can do to such a state;
* `apply_moved`: every transaction that commits is one of these. -/

namespace Norns.Debates

open Norns.Lib Norns.Lib.Transaction

/-! ### Open attempts -/

/-- The job is queued or leased. -/
def AttemptRow.Open (attempt : AttemptRow) : Prop := attempt.job = .queued ∨ attempt.job = .leased

instance (attempt : AttemptRow) : Decidable attempt.Open := inferInstanceAs (Decidable (_ ∨ _))

def Idle (attempts : List AttemptRow) : Prop := ∀ attempt ∈ attempts, ¬ attempt.Open

/-- The attempt is the only open one. -/
structure Busy (attempts : List AttemptRow) (i : ℕ) (attempt : AttemptRow) : Prop where
  row : attempts[i]? = some attempt
  isOpen : attempt.Open
  only : ∀ j other, attempts[j]? = some other → other.Open → j = i

section

variable {attempts : List AttemptRow} {i : ℕ} {attempt attempt' : AttemptRow}

theorem Busy.set_closed (h : Busy attempts i attempt) (hclosed : ¬ attempt'.Open) :
    Idle (attempts.set i attempt') := by
  intro other hother hopen
  obtain ⟨j, hj⟩ := List.mem_iff_getElem?.mp hother
  rw [List.getElem?_set] at hj
  split at hj
  · split at hj
    · cases hj
      exact hclosed hopen
    · cases hj
  · rename_i hne
    exact hne (h.only j other hj hopen).symm

theorem Busy.set_open (h : Busy attempts i attempt) (hopen : attempt'.Open) :
    Busy (attempts.set i attempt') i attempt' := by
  have hlt : i < attempts.length := (List.getElem?_eq_some_iff.mp h.row).1
  refine ⟨by rw [List.getElem?_set_self hlt], hopen, fun j other hj hother => ?_⟩
  by_contra hne
  rw [List.getElem?_set_ne (Ne.symm hne)] at hj
  exact hne (h.only j other hj hother)

theorem Idle.append (h : Idle attempts) (hopen : attempt.Open) :
    Busy (attempts ++ [attempt]) attempts.length attempt := by
  refine ⟨List.getElem?_concat_length, hopen, fun j other hj hother => ?_⟩
  rcases lt_trichotomy j attempts.length with hlt | heq | hgt
  · rw [List.getElem?_append_left hlt] at hj
    exact absurd hother (h other (List.mem_of_getElem? hj))
  · exact heq
  · rw [List.getElem?_eq_none (by simp; omega)] at hj
    cases hj

theorem Idle.map {f : AttemptRow → AttemptRow} (h : Idle attempts)
    (hf : ∀ a ∈ attempts, (f a).Open → a.Open) : Idle (attempts.map f) := by
  intro other hother hopen
  obtain ⟨a, ha, rfl⟩ := List.mem_map.mp hother
  exact h a ha (hf a ha hopen)

theorem Busy.map {f : AttemptRow → AttemptRow} (h : Busy attempts i attempt)
    (hf : ∀ a, (f a).job = a.job) : Busy (attempts.map f) i (f attempt) := by
  have hopen : ∀ a, (f a).Open ↔ a.Open := by
    intro a
    unfold AttemptRow.Open
    rw [hf]
  refine ⟨by rw [List.getElem?_map, h.row]; rfl, (hopen _).mpr h.isOpen, fun j other hj hother => ?_⟩
  rw [List.getElem?_map] at hj
  obtain ⟨a, ha, rfl⟩ := Option.map_eq_some_iff.mp hj
  exact h.only j a ha ((hopen a).mp hother)

theorem Busy.mem (h : Busy attempts i attempt) : attempt ∈ attempts := List.mem_of_getElem? h.row

theorem Busy.lt (h : Busy attempts i attempt) : i < attempts.length :=
  (List.getElem?_eq_some_iff.mp h.row).1

end

/-! ### The invariant -/

/-- The constants of a run that started. -/
structure RunConfig.Ok (c : RunConfig) : Prop where
  participants : c.participants ≠ []
  snapshot : ∀ actor ∈ c.debate.actors, ∃ snapshot, c.snapshot actor = some snapshot ∧
    snapshot ∈ c.actor_execution_snapshots ∧ snapshot.budget_limit_usd = actor.budget_limit_usd ∧
    snapshot.maximum_turn_charge_usd ≤ actor.budget_limit_usd

/-- The constants whose amounts are not negative, as the schema of a snapshot wants it. -/
structure RunConfig.Frozen (c : RunConfig) : Prop extends c.Ok where
  charge : ∀ actor ∈ c.debate.actors, ∀ snapshot ∈ c.snapshot actor,
    0 ≤ snapshot.maximum_turn_charge_usd

structure RowOk (c : RunConfig) (attempt : AttemptRow) : Prop where
  actor : attempt.actor ∈ c.debate.actors
  amount : ∀ snapshot ∈ c.snapshot attempt.actor,
    attempt.reservation.amount_usd = snapshot.maximum_turn_charge_usd
  active : attempt.reservation.status = .active ↔ attempt.Open
  token : attempt.lease_token ≠ none ↔ attempt.job = .leased

/-- A turn that a resume can retry. -/
def TurnRow.Failed (turn : TurnRow) : Prop := turn.state = .failed ∨ turn.state = .expired

instance (turn : TurnRow) : Decidable turn.Failed := inferInstanceAs (Decidable (_ ∨ _))

/-- One job is queued or leased. -/
structure Working (db : RunDb) (i : ℕ) (attempt : AttemptRow) : Prop where
  busy : Busy db.attempts i attempt
  turn : ∃ turn, db.turns[attempt.turn]? = some turn ∧ turn.designated_attempt = i
  live : ∀ turn ∈ db.turns, ¬ turn.Failed
  outputs : ∀ output ∈ db.final_outputs, output.revision = true
  state : (attempt.job = .queued ∧ (db.state = .queued ∨ db.state = .running ∨ db.state = .pausing ∨
      db.state = .paused ∨ db.state = .finalizing)) ∨
    (attempt.job = .leased ∧ (db.state = .running ∨ db.state = .pausing ∨ db.state = .paused ∨
      db.state = .finalizing ∨ db.state = .cancelling))

/-- No job is. -/
structure Resting (db : RunDb) : Prop where
  idle : Idle db.attempts
  state : db.state = .paused ∨ db.state = .completed ∨ db.state = .cancelled
  outputs : (∃ turn ∈ db.turns, turn.Failed) → ∀ output ∈ db.final_outputs, output.revision = true
  failed : ∀ (t t' : ℕ) (turn turn' : TurnRow), db.turns[t]? = some turn → db.turns[t']? = some turn' →
    turn.Failed → turn'.Failed → t = t'

structure TurnsOk (c : RunConfig) (db : RunDb) : Prop where
  actor : ∀ turn ∈ db.turns, turn.actor ∈ c.debate.actors
  designated : ∀ turn ∈ db.turns, turn.designated_attempt < db.attempts.length
  distinct : ∀ (t t' : ℕ) (turn turn' : TurnRow), db.turns[t]? = some turn → db.turns[t']? = some turn' →
    turn.designated_attempt = turn'.designated_attempt → t = t'

/-- **The invariant** of every run. -/
structure Inv (c : RunConfig) (db : RunDb) : Prop where
  rows : ∀ attempt ∈ db.attempts, RowOk c attempt
  turns : TurnsOk c db
  phase : Resting db ∨ ∃ i attempt, Working db i attempt

/-! ### Guards -/

/-- The cost of the call is at most its frozen maximum charge. -/
def Priced (c : RunConfig) (db : RunDb) : Op → Prop
  | .complete i _ _ usage _ => ∀ attempt ∈ db.attempts[i]?, ∀ snapshot ∈ c.snapshot attempt.actor,
      snapshot.frozenCostUsd usage.input_tokens usage.output_tokens ≤ snapshot.maximum_turn_charge_usd
  | .fail i _ failure _ => ∀ attempt ∈ db.attempts[i]?, ∀ snapshot ∈ c.snapshot attempt.actor,
      ∀ usage ∈ failure.usage, snapshot.frozenCostUsd usage.input_tokens usage.output_tokens ≤
        snapshot.maximum_turn_charge_usd
  | _ => True

/-- A turn of the synthesizer waits, or can be retried. -/
def RunDb.SynthesizerOutstanding (db : RunDb) : Prop :=
  (∃ attempt ∈ db.attempts, attempt.job = .queued ∧ attempt.actor.actor_kind = .synthesizer) ∨
    ∃ turn ∈ db.turns, turn.Failed ∧ turn.actor.actor_kind = .synthesizer

instance (db : RunDb) : Decidable db.SynthesizerOutstanding :=
  inferInstanceAs (Decidable ((∃ attempt ∈ db.attempts, _) ∨ ∃ turn ∈ db.turns, _))

/-- **The condition for a drivable run.** A pause is not repeated over a job that is leased, and is
not asked for while the run is cancelled; no resume is asked for while the synthesizer's turn is
outstanding; a claim whose preparation fails was not cancelled; the deadline does not stop a run that is
pausing or has no message; and no reservation of amount zero becomes ambiguous. -/
def Guard (db : RunDb) : Op → Prop
  | .control .pause _ => db.state ≠ .cancelling ∧
      (db.state = .pausing → ∀ attempt ∈ db.attempts, attempt.job ≠ .leased)
  | .control .resume _ => ¬ db.SynthesizerOutstanding
  | .failClaimPreparation i token => ∀ attempt ∈ db.attempts[i]?,
      attempt.lease_token = some token → db.state ≠ .cancelling
  | .stopAtDeadline i token => ∀ attempt ∈ db.attempts[i]?, attempt.leasedBy token →
      db.state ≠ .pausing ∧ (db.state ≠ .cancelling → db.messages ≠ [])
  | .expire i => ∀ attempt ∈ db.attempts[i]?, attempt.job = .leased → db.state ≠ .cancelling →
      0 < attempt.reservation.amount_usd
  | .fail i token failure externalExecutionStarted => ∀ attempt ∈ db.attempts[i]?,
      attempt.lease_token = some token → db.state ≠ .cancelling →
      failure.ambiguous externalExecutionStarted → 0 < attempt.reservation.amount_usd
  | _ => True

instance (db : RunDb) : (op : Op) → Decidable (Guard db op)
  | .control .pause _ => inferInstanceAs (Decidable (_ ∧ (_ → ∀ attempt ∈ db.attempts, _)))
  | .control .resume _ => inferInstanceAs (Decidable (¬ db.SynthesizerOutstanding))
  | .control .cancel _ | .control .stop_after_turn _ | .control .stop_after_round _ | .claim _ _
  | .complete _ _ _ _ _ | .intervene _ => isTrue trivial
  | .failClaimPreparation i _ => inferInstanceAs (Decidable (∀ attempt ∈ db.attempts[i]?, _ → _))
  | .stopAtDeadline i _ => inferInstanceAs (Decidable (∀ attempt ∈ db.attempts[i]?, _ → _ ∧ (_ → _)))
  | .expire i => inferInstanceAs (Decidable (∀ attempt ∈ db.attempts[i]?, _ → _ → _))
  | .fail i _ _ _ => inferInstanceAs (Decidable (∀ attempt ∈ db.attempts[i]?, _ → _ → _ → _))

/-! ### Moves -/

/-- How an active reservation is resolved; `P` bounds a settled cost. -/
inductive ReservationRow.Resolved (P : Prop) (row : ReservationRow) : ReservationRow → Prop
  | settled (cost : ℚ) (quoted : P → cost ≤ row.amount_usd) : Resolved P row (row.settle cost)
  | released : Resolved P row row.release
  | retained : Resolved P row row.retain
  | assumed : Resolved P row row.assume

/-- Some reservation is active or retained. -/
def Unresolved (attempts : List AttemptRow) : Prop :=
  ∃ attempt ∈ attempts, attempt.reservation.status = .active ∨
    attempt.reservation.status = .retained_ambiguous

/-- The budgets have room for one more turn of the actor. -/
structure Affordable (c : RunConfig) (attempts : List AttemptRow) (actor : Actor) (amount : ℚ) :
    Prop where
  mem : actor ∈ c.debate.actors
  snapshot : ∀ snapshot ∈ c.snapshot actor, amount = snapshot.maximum_turn_charge_usd
  run : (attempts.map fun attempt => attempt.reservation.committed).sum + amount ≤
    c.debate.stopping_policy.max_total_cost_usd
  own : ((attempts.filter fun attempt => attempt.actor.id = actor.id).map
    fun attempt => attempt.reservation.committed).sum + amount ≤ actor.budget_limit_usd

/-- **What a step can do.** -/
inductive Moved (c : RunConfig) (db : RunDb) (op : Op) (db' : RunDb) : Prop
  /-- Nothing but the state of the run, its messages and its stop condition change. -/
  | frame (attempts : db'.attempts = db.attempts) (turns : db'.turns = db.turns)
      (usage : db'.usage = db.usage) (outputs : db'.final_outputs = db.final_outputs)
      (state : db'.state = db.state ∨ (db.state = .queued ∧ db'.state = .paused) ∨
        (db.state = .running ∧ db'.state = .pausing) ∨
        (db.state = .pausing ∧ db'.state = .paused ∧
          (Guard db op → ∀ attempt ∈ db.attempts, attempt.job ≠ .leased)))
  | leased (i : ℕ) (attempt : AttemptRow) (token : String)
      (row : db.attempts[i]? = some attempt) (queued : attempt.job = .queued)
      (attempts : db'.attempts = db.attempts.set i
        { attempt with job := .leased, lease_token := some token })
      (turns : db'.turns = (db.setDesignatedTurns i .running).turns)
      (usage : db'.usage = db.usage) (outputs : db'.final_outputs = db.final_outputs)
      (state : (db.state = .queued ∧ db'.state = .running) ∨
        ((db.state = .running ∨ db.state = .finalizing) ∧ db'.state = db.state))
  /-- The leased job ends, and the run rests. -/
  | closed (i : ℕ) (attempt : AttemptRow) (job : JobState) (reservation : ReservationRow)
      (st : TurnState) (row : db.attempts[i]? = some attempt) (leased : attempt.job = .leased)
      (ends : job ≠ .queued ∧ job ≠ .leased)
      (resolved : attempt.reservation.Resolved (Priced c db op) reservation)
      (attempts : db'.attempts = db.attempts.set i (attempt.close job reservation))
      (turns : db'.turns = (db.setTurn attempt.turn st).turns)
      (usage : db'.usage = db.usage ∨ ∃ event, db'.usage = db.usage ++ [event] ∧
        event.turn_attempt = i ∧ reservation = attempt.reservation.settle event.cost_usd)
      (state : db'.state = .paused ∨ db'.state = .completed ∨ db'.state = .cancelled)
      (retains : reservation.status = .retained_ambiguous →
        db'.state = .paused ∧ (st = .failed ∨ st = .expired) ∧
          (Guard db op → 0 < attempt.reservation.amount_usd))
      (keeps : st = .failed ∨ st = .expired → db'.final_outputs = db.final_outputs)
      (pauses : db'.state = .paused → Guard db op → Unresolved db'.attempts ∨
        st = .failed ∨ st = .expired)
      (completes : db'.state = .completed → Guard db op → db.final_outputs = [] →
        db'.final_outputs.length = 1)
  /-- The leased job ends with its turn, and the next turn is queued. -/
  | advanced (i : ℕ) (attempt : AttemptRow) (event : UsageEventRow) (actor : Actor)
      (round_number : ℕ) (amount : ℚ)
      (row : db.attempts[i]? = some attempt) (leased : attempt.job = .leased)
      (recorded : event.turn_attempt = i)
      (quoted : Priced c db op → event.cost_usd ≤ attempt.reservation.amount_usd)
      (attempts : db'.attempts = db.attempts.set i
          (attempt.close .succeeded (attempt.reservation.settle event.cost_usd)) ++
        [{ turn := db.turns.length, attempt_number := 1, actor
           reservation := { amount_usd := amount } }])
      (affordable : Affordable c (db.attempts.set i
        (attempt.close .succeeded (attempt.reservation.settle event.cost_usd))) actor amount)
      (turns : db'.turns = (db.setTurn attempt.turn .completed).turns ++
        [{ round_number, actor, designated_attempt := db.attempts.length }])
      (usage : db'.usage = db.usage ++ [event]) (outputs : db'.final_outputs = db.final_outputs)
      (state : (db.state = .pausing ∧ db'.state = .paused) ∨
        (db.state = .running ∧ (db'.state = .running ∨ db'.state = .finalizing)) ∨
        ((db.state = .finalizing ∨ db.state = .paused) ∧ db'.state = db.state))
      (synthesizes : actor.actor_kind = .synthesizer → db'.state = .finalizing ∨ db'.state = .paused)
  /-- The leased job ends, and the next attempt of its turn is queued. -/
  | replaced (i : ℕ) (attempt : AttemptRow)
      (row : db.attempts[i]? = some attempt) (leased : attempt.job = .leased)
      (attempts : db'.attempts = db.attempts.set i
          (attempt.close .failed attempt.reservation.release) ++
        [{ turn := attempt.turn, attempt_number := attempt.attempt_number + 1
           actor := attempt.actor, reservation := { amount_usd := attempt.reservation.amount_usd } }])
      (turns : db'.turns = db.turns.modify attempt.turn fun turn =>
        { turn with state := .queued, designated_attempt := db.attempts.length })
      (usage : db'.usage = db.usage) (outputs : db'.final_outputs = db.final_outputs)
      (state : db'.state = db.state ∧ db.state ≠ .cancelling ∧ db.state ≠ .pausing)
  /-- A job waits, and the run is queued again. -/
  | resumed (waits : ∃ attempt ∈ db.attempts, attempt.job = .queued)
      (attempts : db'.attempts = db.settleRetained.attempts) (turns : db'.turns = db.turns)
      (usage : db'.usage = db.usage) (outputs : db'.final_outputs = db.final_outputs)
      (state : db.state = .paused ∧ db'.state = .queued)
      (guarded : Guard db op → ¬ db.SynthesizerOutstanding)
  /-- A turn that failed is queued again. -/
  | retried (t : ℕ) (target : TurnRow) (attempt_number : ℕ) (amount : ℚ)
      (row : db.turns[t]? = some target) (failed : target.Failed)
      (attempts : db'.attempts = db.settleRetained.attempts ++
        [{ turn := t, attempt_number, actor := target.actor
           reservation := { amount_usd := amount } }])
      (affordable : Affordable c db.settleRetained.attempts target.actor amount)
      (turns : db'.turns = db.turns.modify t fun turn =>
        { turn with state := .queued, designated_attempt := db.attempts.length })
      (usage : db'.usage = db.usage) (outputs : db'.final_outputs = db.final_outputs)
      (state : db.state = .paused ∧ db'.state = .queued)
      (guarded : Guard db op → ¬ db.SynthesizerOutstanding)
  /-- The run is to be cancelled when the leased job ends. -/
  | cancelling (leased : ∃ attempt ∈ db.attempts, attempt.job = .leased)
      (attempts : db'.attempts = (db.resolveAll .retained_ambiguous .assume).attempts)
      (turns : db'.turns = db.turns)
      (usage : db'.usage = db.usage) (outputs : db'.final_outputs = db.final_outputs)
      (state : db'.state = .cancelling)
  | cancelled (free : ∀ attempt ∈ db.attempts, attempt.job ≠ .leased)
      (attempts : db'.attempts = (db.resolveAll .retained_ambiguous .assume).cancelQueued.attempts)
      (turns : db'.turns = db.cancelTurns.turns)
      (usage : db'.usage = db.usage) (outputs : db'.final_outputs = db.final_outputs)
      (state : db'.state = .cancelled)

/-! ### Transactions -/

section

variable {c : RunConfig} {db db' : RunDb} {i : ℕ} {attempt : AttemptRow} {token : String}

theorem transitionRunState_ok {to_ : RunState} {moved : Bool}
    (h : transitionRunState db to_ = .ok (moved, db')) :
    db' = { db with state := to_ } ∧ (db.state = to_ ∨ canDebateRunTransition db.state to_) := by
  unfold transitionRunState at h
  split at h
  · rename_i heq
    cases h
    exact ⟨by rw [← heq], .inl heq⟩
  · split at h
    · rename_i hcan
      cases h
      exact ⟨rfl, .inr hcan⟩
    · cases h

theorem transition_ok {to_ : RunState} (h : Prod.snd <$> transitionRunState db to_ = .ok db') :
    db' = { db with state := to_ } ∧ (db.state = to_ ∨ canDebateRunTransition db.state to_) := by
  obtain ⟨⟨moved, db''⟩, hok, rfl⟩ := map_eq_ok.mp h
  exact transitionRunState_ok hok

/-- The job that is leased is the open one. -/
theorem Inv.working (h : Inv c db) (hrow : db.attempts[i]? = some attempt) (hopen : attempt.Open) :
    Working db i attempt := by
  rcases h.phase with hrest | ⟨j, other, hworking⟩
  · exact absurd hopen (hrest.idle attempt (List.mem_of_getElem? hrow))
  · cases hworking.busy.only i attempt hrow hopen
    cases hworking.busy.row.symm.trans hrow
    exact hworking

theorem Inv.row (h : Inv c db) (hrow : db.attempts[i]? = some attempt) : RowOk c attempt :=
  h.rows attempt (List.mem_of_getElem? hrow)

theorem Inv.active (h : Inv c db) (hrow : db.attempts[i]? = some attempt)
    (hleased : attempt.job = .leased) : attempt.reservation.status = .active :=
  (h.row hrow).active.mpr (.inr hleased)

theorem updateIf_of_status {row : ReservationRow} {from_ : ReservationStatus}
    {update : ReservationRow → ReservationRow} (h : row.status = from_) :
    row.updateIf from_ update = update row := if_pos h

theorem updateIf_of_ne {row : ReservationRow} {from_ : ReservationStatus}
    {update : ReservationRow → ReservationRow} (h : row.status ≠ from_) :
    row.updateIf from_ update = row := if_neg h

/-- The open attempt is the one that its turn designates. -/
theorem Working.setDesignatedTurns (h : Working db i attempt) (hturns : TurnsOk c db) (st : TurnState) :
    (db.setDesignatedTurns i st).turns = (db.setTurn attempt.turn st).turns := by
  obtain ⟨turn, hturn, hdesignated⟩ := h.turn
  refine List.ext_getElem? fun t => ?_
  show (db.turns.map _)[t]? = (db.turns.modify attempt.turn _)[t]?
  rw [List.getElem?_map, List.getElem?_modify]
  rcases ht : db.turns[t]? with _ | other
  · rfl
  · by_cases heq : attempt.turn = t
    · subst heq
      cases hturn.symm.trans ht
      simp [hdesignated]
    · have hne : other.designated_attempt ≠ i := by
        intro hsame
        exact heq (hturns.distinct _ _ turn other hturn ht (hdesignated.trans hsame.symm))
      simp [hne, heq]

theorem claim_moved (h : claim db i token = .ok db') : Moved c db (.claim i token) db' := by
  have hsame : Moved c db (.claim i token) db := .frame rfl rfl rfl rfl (.inl rfl)
  unfold claim at h
  split at h
  · cases h
    exact hsame
  · rename_i attempt hrow
    split at h
    · rename_i hqueued
      split at h
      · rename_i hstate
        obtain ⟨rfl, -⟩ := transition_ok h
        exact .leased i attempt token hrow hqueued.1 rfl rfl rfl rfl (.inl ⟨hstate, rfl⟩)
      · rename_i hstate
        cases h
        refine .leased i attempt token hrow hqueued.1 rfl rfl rfl rfl (.inr ⟨?_, rfl⟩)
        exact hqueued.2.resolve_left hstate
    · cases h
      exact hsame

theorem expire_moved (hinv : Inv c db) (h : expire db i = .ok db') : Moved c db (.expire i) db' := by
  unfold expire at h
  split at h
  · cases h
    exact .frame rfl rfl rfl rfl (.inl rfl)
  · rename_i attempt hrow
    split at h
    · rename_i hleased
      have hactive := hinv.active hrow hleased
      have hworking := hinv.working hrow (.inr hleased)
      rw [updateIf_of_status hactive, updateIf_of_status hactive] at h
      split at h
      · obtain ⟨rfl, -⟩ := transition_ok h
        exact .closed i attempt .dead_letter _ .cancelled hrow hleased (by decide) .assumed rfl
          (hworking.setDesignatedTurns hinv.turns _) (.inl rfl) (.inr (.inr rfl))
          (fun hretained => nomatch hretained) (fun _ => rfl) (fun hpaused => nomatch hpaused)
          (fun hcompleted => nomatch hcompleted)
      · rename_i hstate
        obtain ⟨rfl, -⟩ := transition_ok h
        refine .closed i attempt .dead_letter _ .expired hrow hleased (by decide) .retained rfl
          (hworking.setDesignatedTurns hinv.turns _) (.inl rfl) (.inl rfl) (fun _ => ⟨rfl, .inr rfl, ?_⟩)
          (fun _ => rfl) (fun _ _ => .inr (.inr rfl)) (fun hcompleted => nomatch hcompleted)
        exact fun hguard => hguard attempt hrow hleased hstate
    · cases h
      exact .frame rfl rfl rfl rfl (.inl rfl)

theorem failClaimPreparation_moved (hinv : Inv c db) (h : failClaimPreparation db i token = .ok db') :
    Moved c db (.failClaimPreparation i token) db' := by
  unfold failClaimPreparation at h
  split at h
  · cases h
    exact .frame rfl rfl rfl rfl (.inl rfl)
  · rename_i attempt hrow
    split at h
    · rename_i htoken
      have hleased := (hinv.row hrow).token.mp (by rw [htoken]; simp)
      have hworking := hinv.working hrow (.inr hleased)
      rw [updateIf_of_status (hinv.active hrow hleased)] at h
      obtain ⟨rfl, -⟩ := transition_ok h
      exact .closed i attempt .dead_letter _ .failed hrow hleased (by decide) .released rfl
        (hworking.setDesignatedTurns hinv.turns _) (.inl rfl) (.inl rfl)
        (fun hretained => nomatch hretained) (fun _ => rfl) (fun _ _ => .inr (.inl rfl))
        (fun hcompleted => nomatch hcompleted)
    · cases h
      exact .frame rfl rfl rfl rfl (.inl rfl)

/-- From none there is one final output afterwards. -/
theorem offerFinalOutput_length {content : String} (h : db.final_outputs = []) :
    (db.offerFinalOutput content).final_outputs.length = 1 := by
  unfold RunDb.offerFinalOutput RunDb.insertFinalOutput
  rw [if_neg (by simp [h])]
  show (db.final_outputs ++ _).length = 1
  rw [h]
  rfl

@[simp] theorem offerFinalOutput_attempts {content : String} :
    (db.offerFinalOutput content).attempts = db.attempts := by
  unfold RunDb.offerFinalOutput RunDb.insertFinalOutput
  split <;> rfl

@[simp] theorem offerFinalOutput_turns {content : String} :
    (db.offerFinalOutput content).turns = db.turns := by
  unfold RunDb.offerFinalOutput RunDb.insertFinalOutput
  split <;> rfl

@[simp] theorem offerFinalOutput_usage {content : String} :
    (db.offerFinalOutput content).usage = db.usage := by
  unfold RunDb.offerFinalOutput RunDb.insertFinalOutput
  split <;> rfl

@[simp] theorem offerFinalOutput_state {content : String} :
    (db.offerFinalOutput content).state = db.state := by
  unfold RunDb.offerFinalOutput RunDb.insertFinalOutput
  split <;> rfl

theorem offerLastMessage_length (h : db.final_outputs = []) (hmessages : db.messages ≠ []) :
    db.offerLastMessage.final_outputs.length = 1 := by
  unfold RunDb.offerLastMessage
  rcases hlast : db.messages.getLast? with _ | content
  · exact absurd (List.getLast?_eq_none_iff.mp hlast) hmessages
  · exact offerFinalOutput_length h

@[simp] theorem offerLastMessage_attempts : db.offerLastMessage.attempts = db.attempts := by
  unfold RunDb.offerLastMessage
  split <;> simp

@[simp] theorem offerLastMessage_turns : db.offerLastMessage.turns = db.turns := by
  unfold RunDb.offerLastMessage
  split <;> simp

@[simp] theorem offerLastMessage_usage : db.offerLastMessage.usage = db.usage := by
  unfold RunDb.offerLastMessage
  split <;> simp

theorem stopAtDeadline_moved (hinv : Inv c db) (h : stopAtDeadline db i token = .ok db') :
    Moved c db (.stopAtDeadline i token) db' := by
  unfold stopAtDeadline at h
  split at h
  · cases h
    exact .frame rfl rfl rfl rfl (.inl rfl)
  · rename_i attempt hrow
    split at h
    · rename_i hleased
      rw [updateIf_of_status (hinv.active hrow hleased.1)] at h
      dsimp only at h
      split at h
      · obtain ⟨⟨moved, db₁⟩, hmove, h⟩ := bind_eq_ok.mp h
        obtain ⟨rfl, -⟩ := transitionRunState_ok hmove
        cases h
        exact .closed i attempt .cancelled _ .cancelled hrow hleased.1 (by decide) .released rfl rfl
          (.inl rfl) (.inr (.inr rfl)) (fun hretained => nomatch hretained) (fun _ => rfl)
          (fun hpaused => nomatch hpaused) (fun hcompleted => nomatch hcompleted)
      · rename_i hcancelling
        split at h
        · rename_i hpausing
          obtain ⟨rfl, -⟩ := transition_ok h
          refine .closed i attempt .cancelled _ .cancelled hrow hleased.1 (by decide) .released rfl rfl
            (.inl rfl) (.inl rfl) (fun hretained => nomatch hretained) (fun _ => rfl) (fun _ hguard => ?_)
            (fun hcompleted => nomatch hcompleted)
          exact absurd hpausing (hguard attempt hrow hleased).1
        · obtain ⟨⟨moved, db₁⟩, hmove, h⟩ := bind_eq_ok.mp h
          obtain ⟨rfl, -⟩ := transitionRunState_ok hmove
          obtain ⟨⟨moved, db₂⟩, hmove, h⟩ := bind_eq_ok.mp h
          obtain ⟨rfl, -⟩ := transitionRunState_ok hmove
          cases h
          refine .closed i attempt .cancelled _ .cancelled hrow hleased.1 (by decide) .released
            offerLastMessage_attempts offerLastMessage_turns (.inl offerLastMessage_usage)
            (.inr (.inl rfl)) (fun hretained => nomatch hretained)
            (fun hfailed => nomatch hfailed) (fun hpaused => nomatch hpaused)
            (fun _ hguard hnone => offerLastMessage_length hnone ?_)
          exact (hguard attempt hrow hleased).2 hcancelling
    · cases h
      exact .frame rfl rfl rfl rfl (.inl rfl)

/-! ### Advancing -/

/-- The run rests after its last turn. -/
structure RunEnds (db db' : RunDb) : Prop where
  attempts : db'.attempts = db.attempts
  turns : db'.turns = db.turns
  usage : db'.usage = db.usage
  state : (db'.state = .paused ∧ Unresolved db.attempts) ∨ db'.state = .completed

/-- A first attempt of a new turn is queued. -/
structure TurnOpens (c : RunConfig) (db db' : RunDb) (actor : Actor) (round_number : ℕ) (amount : ℚ) :
    Prop where
  affordable : Affordable c db.attempts actor amount
  attempts : db'.attempts = db.attempts ++ [{
    turn := db.turns.length, attempt_number := 1, actor, reservation := { amount_usd := amount } }]
  turns : db'.turns = db.turns ++ [{ round_number, actor, designated_attempt := db.attempts.length }]
  usage : db'.usage = db.usage
  outputs : db'.final_outputs = db.final_outputs

theorem completeRun_ok {round_number : ℕ} (h : completeRun db round_number = .ok db') :
    RunEnds db db' ∧ db'.final_outputs = db.final_outputs := by
  unfold completeRun at h
  split at h
  · rename_i hunresolved
    obtain ⟨rfl, -⟩ := transition_ok h
    exact ⟨⟨rfl, rfl, rfl, .inl ⟨rfl, hunresolved⟩⟩, rfl⟩
  · obtain ⟨⟨moved, db₁⟩, hmove, h⟩ := bind_eq_ok.mp h
    obtain ⟨rfl, -⟩ := transitionRunState_ok hmove
    cases h
    exact ⟨⟨rfl, rfl, rfl, .inr rfl⟩, rfl⟩

theorem scheduleTurn_ok {claimRound roundNumber : ℕ} {actor : Actor} {createRound : Bool}
    (hactor : actor ∈ c.debate.actors)
    (h : scheduleTurn c db claimRound actor roundNumber createRound = .ok db') :
    (RunEnds db db' ∧ (db.final_outputs = [] → db'.final_outputs.length = 1)) ∨
      (db'.state = db.state ∧ ∃ amount, TurnOpens c db db' actor
        (if createRound = true ∧ roundNumber ≠ claimRound then roundNumber else claimRound) amount) := by
  unfold scheduleTurn at h
  split at h
  · cases h
  · rename_i snapshot hsnapshot
    obtain ⟨_, -, h⟩ := bind_eq_ok.mp h
    split at h
    · split at h
      · cases h
      · rename_i content hlast
        obtain ⟨⟨moved, db₁⟩, hmove, h⟩ := bind_eq_ok.mp h
        obtain ⟨rfl, -⟩ := transitionRunState_ok hmove
        obtain ⟨hends, houtputs⟩ := completeRun_ok h
        refine .inl ⟨⟨?_, ?_, ?_, ?_⟩, fun hnone => ?_⟩
        · exact hends.attempts.trans offerFinalOutput_attempts
        · exact hends.turns.trans offerFinalOutput_turns
        · exact hends.usage.trans offerFinalOutput_usage
        · have hstate := hends.state
          simp only [offerFinalOutput_attempts] at hstate
          exact hstate
        · rw [houtputs]
          exact offerFinalOutput_length hnone
    · rename_i hbudget
      unfold runBudgetExceeded actorLimitExceeded at hbudget
      push Not at hbudget
      have haffordable : Affordable c db.attempts actor snapshot.maximum_turn_charge_usd := by
        refine ⟨hactor, fun other hother => ?_, hbudget.1.1, hbudget.2.1⟩
        cases hsnapshot.symm.trans hother
        rfl
      split at h
      · rename_i hcreates
        cases h
        refine .inr ⟨rfl, snapshot.maximum_turn_charge_usd, ?_⟩
        rw [if_pos hcreates]
        exact ⟨haffordable, rfl, rfl, rfl, rfl⟩
      · rename_i hcreates
        cases h
        refine .inr ⟨rfl, snapshot.maximum_turn_charge_usd, ?_⟩
        rw [if_neg hcreates]
        exact ⟨haffordable, rfl, rfl, rfl, rfl⟩

/-- The actors of a round are participants and a judge. -/
theorem nextActor_mem {actor next : Actor} (h : c.nextActor actor = some next) :
    next ∈ c.debate.actors ∧ next.actor_kind ≠ .synthesizer := by
  unfold RunConfig.nextActor at h
  obtain ⟨k, -, hk⟩ := Option.bind_eq_some_iff.mp h
  rcases List.mem_append.mp (List.mem_of_getElem? hk) with hmem | hmem
  · obtain ⟨hactor, hkind⟩ := List.mem_filter.mp hmem
    exact ⟨hactor, by rw [of_decide_eq_true hkind]; decide⟩
  · have hfind := Option.mem_toList.mp hmem
    have hkind : next.actor_kind = .judge := of_decide_eq_true (List.find?_some hfind :)
    exact ⟨List.mem_of_find?_eq_some hfind, by rw [hkind]; decide⟩

theorem participants_head {first : Actor} (h : c.participants.head? = some first) :
    first ∈ c.debate.actors ∧ first.actor_kind ≠ .synthesizer := by
  obtain ⟨hactor, hkind⟩ := List.mem_filter.mp (List.mem_of_head? h)
  exact ⟨hactor, by rw [of_decide_eq_true hkind]; decide⟩

/-- The turn that comes after one of the actor: that of the next actor of the round, of the synthesizer,
or of the first participant in the next round. -/
inductive Follows (c : RunConfig) (actor : Actor) (round_number : ℕ) : Actor → ℕ → Prop
  | next {next : Actor} (h : c.nextActor actor = some next) : Follows c actor round_number next round_number
  | synthesizer {synthesizer : Actor} (h : c.synthesizer = some synthesizer) :
    Follows c actor round_number synthesizer round_number
  | round {first : Actor} (h : c.participants.head? = some first)
    (more : round_number < c.debate.stopping_policy.max_rounds) :
    Follows c actor round_number first (round_number + 1)

/-- A run that is not stopped has rounds left. -/
theorem evaluateDebateStopping_none {policy : StoppingPolicy} {observation : StoppingObservation}
    (h : evaluateDebateStopping policy observation = none) :
    observation.completed_rounds < policy.max_rounds := by
  by_contra hnot
  unfold evaluateDebateStopping at h
  rw [if_pos (show policy.max_rounds ≤ observation.completed_rounds by omega)] at h
  split at h
  · cases h
  · split at h
    · cases h
    · cases h

/-- **Advancing** ends the run or opens a turn. -/
theorem advance_ok {actor : Actor} {round_number : ℕ} {content : String} {now : ℤ}
    {stopAfter : StopAfter}
    (h : advance c db actor round_number content now stopAfter = .ok db') :
    (RunEnds db db' ∧ ((actor.actor_kind = .synthesizer ∧ db'.final_outputs = db.final_outputs) ∨
      (actor.actor_kind ≠ .synthesizer ∧
        (db.final_outputs = [] → db'.final_outputs.length = 1)))) ∨
    ((db'.state = db.state ∨ (db'.state = .finalizing ∧ (db.state = .finalizing ∨
        canDebateRunTransition db.state .finalizing))) ∧
      actor.actor_kind ≠ .synthesizer ∧
      ∃ next next_round amount, TurnOpens c db db' next next_round amount ∧
        Follows c actor round_number next next_round ∧
        (next.actor_kind = .synthesizer → db'.state = .finalizing)) := by
  unfold advance at h
  split at h
  · rename_i hkind
    obtain ⟨hends, houtputs⟩ := completeRun_ok h
    exact .inl ⟨hends, .inl ⟨hkind, houtputs⟩⟩
  · rename_i hkind
    split at h
    · rename_i next hnext
      have hnext : c.nextActor actor = some next := by
        split at hnext
        · cases hnext
        · exact hnext
      obtain ⟨hmem, hkind'⟩ := nextActor_mem hnext
      rcases scheduleTurn_ok hmem h with ⟨hends, hone⟩ | ⟨hstate, amount, hopens⟩
      · exact .inl ⟨hends, .inr ⟨hkind, hone⟩⟩
      · rw [ite_self] at hopens
        exact .inr ⟨.inl hstate, hkind, next, _, amount, hopens, .next hnext,
          fun hsynthesizer => absurd hsynthesizer hkind'⟩
    · dsimp only at h
      split at h
      · obtain ⟨⟨moved, db₁⟩, hmove, h⟩ := bind_eq_ok.mp h
        obtain ⟨rfl, hcan⟩ := transitionRunState_ok hmove
        dsimp only at h
        split at h
        · rename_i synthesizer hsynthesizer
          have hmem := List.mem_of_find?_eq_some hsynthesizer
          rcases scheduleTurn_ok hmem h with ⟨hends, hone⟩ | ⟨hstate, amount, hopens⟩
          · exact .inl ⟨⟨hends.attempts, hends.turns, hends.usage, hends.state⟩, .inr ⟨hkind, hone⟩⟩
          · rw [if_neg (fun hnew => hnew.2 rfl)] at hopens
            exact .inr ⟨.inr ⟨hstate, hcan⟩, hkind, synthesizer, round_number, amount,
              ⟨hopens.affordable, hopens.attempts, hopens.turns, hopens.usage, hopens.outputs⟩,
              .synthesizer hsynthesizer, fun _ => hstate⟩
        · obtain ⟨db₂, hinsert, h⟩ := bind_eq_ok.mp h
          unfold RunDb.insertFinalOutput at hinsert
          split at hinsert
          · cases hinsert
          · cases hinsert
            obtain ⟨hends, houtputs⟩ := completeRun_ok h
            refine .inl ⟨⟨hends.attempts, hends.turns, hends.usage, hends.state⟩,
              .inr ⟨hkind, fun hnone => ?_⟩⟩
            rw [houtputs]
            show (db.final_outputs ++ _).length = 1
            rw [hnone]
            rfl
      · rename_i hgoes
        split at h
        · cases h
        · rename_i first hfirst
          obtain ⟨hmem, hkind'⟩ := participants_head hfirst
          rcases scheduleTurn_ok hmem h with ⟨hends, hone⟩ | ⟨hstate, amount, hopens⟩
          · exact .inl ⟨⟨hends.attempts, hends.turns, hends.usage, hends.state⟩, .inr ⟨hkind, hone⟩⟩
          · rw [if_pos ⟨rfl, Nat.succ_ne_self _⟩] at hopens
            exact .inr ⟨.inl hstate, hkind, first, round_number + 1, amount,
              ⟨hopens.affordable, hopens.attempts, hopens.turns, hopens.usage, hopens.outputs⟩,
              .round hfirst (evaluateDebateStopping_none hgoes),
              fun hsynthesizer => absurd hsynthesizer hkind'⟩

/-! ### Completing, failing, controls -/

/-- Where no row is open or active, nothing is left to cancel. -/
theorem cancelQueued_attempts (h : ∀ attempt ∈ db.attempts, ¬ attempt.Open ∧
    attempt.reservation.status ≠ .active) : db.cancelQueued.attempts = db.attempts := by
  refine (List.map_congr_left fun attempt hattempt => ?_).trans (List.map_id _)
  obtain ⟨hclosed, hactive⟩ := h attempt hattempt
  have hqueued : attempt.job ≠ .queued := fun hqueued => hclosed (.inl hqueued)
  rw [updateIf_of_ne hactive, if_neg hqueued]
  rfl

theorem close_not_open {job : JobState} {reservation : ReservationRow}
    (h : job ≠ .queued ∧ job ≠ .leased) : ¬ (attempt.close job reservation).Open :=
  fun hopen => hopen.elim h.1 h.2

/-- Once the open row is closed, none is open or active. -/
theorem Inv.closed_rows {attempt' : AttemptRow} (h : Inv c db)
    (hworking : Working db i attempt) (hclosed : ¬ attempt'.Open)
    (hactive : attempt'.reservation.status ≠ .active) :
    ∀ a ∈ db.attempts.set i attempt', ¬ a.Open ∧ a.reservation.status ≠ .active := by
  intro a ha
  have hopen := hworking.busy.set_closed hclosed a ha
  refine ⟨hopen, ?_⟩
  rcases List.mem_or_eq_of_mem_set ha with hold | rfl
  · exact fun hstatus => hopen ((h.rows a hold).active.mp hstatus)
  · exact hactive

/-- The states of a run whose job is leased. -/
theorem Inv.leased_state (h : Inv c db) (hrow : db.attempts[i]? = some attempt)
    (hleased : attempt.job = .leased) : db.state = .running ∨ db.state = .pausing ∨
      db.state = .paused ∨ db.state = .finalizing ∨ db.state = .cancelling := by
  rcases (h.working hrow (.inr hleased)).state with ⟨hqueued, -⟩ | ⟨-, hstate⟩
  · exact nomatch hqueued.symm.trans hleased
  · exact hstate

/-- Those in which it can be paused. -/
theorem pausable {state : RunState} (hphase : state = .running ∨ state = .pausing ∨ state = .paused ∨
    state = .finalizing ∨ state = .cancelling) (hne : state ≠ .cancelling) :
    state = .running ∨ state = .pausing ∨ state = .paused ∨ state = .finalizing := by
  rcases hphase with h | h | h | h | h
  · exact .inl h
  · exact .inr (.inl h)
  · exact .inr (.inr (.inl h))
  · exact .inr (.inr (.inr h))
  · exact absurd h hne

/-- What a run does once its turn is completed: one that is pausing rests, unless the step ended it. -/
def Rests (old advanced new : RunState) : Prop :=
  (old = .pausing ∧ ¬ advanced.terminal ∧ new = .paused) ∨
    (¬ (old = .pausing ∧ ¬ advanced.terminal) ∧ new = advanced)

theorem rests_ok {old : RunState} {advanced : RunDb}
    (h : (if old = .pausing ∧ ¬ advanced.state.terminal then
      Prod.snd <$> transitionRunState advanced .paused else pure advanced) = .ok db') :
    db' = { advanced with state := db'.state } ∧ Rests old advanced.state db'.state := by
  split at h
  · rename_i hpausing
    obtain ⟨rfl, -⟩ := transition_ok h
    exact ⟨rfl, .inl ⟨hpausing.1, hpausing.2, rfl⟩⟩
  · rename_i hpausing
    cases h
    exact ⟨rfl, .inr ⟨hpausing, rfl⟩⟩

theorem Rests.of_ne {old advanced new : RunState} (h : Rests old advanced new)
    (hne : old ≠ .pausing) : new = advanced := by
  rcases h with ⟨hpausing, -⟩ | ⟨-, hsame⟩
  · exact absurd hpausing hne
  · exact hsame

/-- A run that the step ended stays as it was ended. -/
theorem Rests.ends {old advanced new : RunState} {P : Prop} (h : Rests old advanced new)
    (hends : (advanced = .paused ∧ P) ∨ advanced = .completed) :
    (new = .paused ∧ P) ∨ new = .completed := by
  rcases hends with ⟨hpaused, hp⟩ | hcompleted
  · left
    rcases h with ⟨-, -, hstate⟩ | ⟨-, hstate⟩
    · exact ⟨hstate, hp⟩
    · exact ⟨hstate.trans hpaused, hp⟩
  · right
    rcases h with ⟨-, hlive, -⟩ | ⟨-, hstate⟩
    · exact absurd (.inl hcompleted) hlive
    · exact hstate.trans hcompleted

/-- A run that goes on runs on or finalizes, and one that was to pause is paused. -/
theorem Rests.goes {old advanced new : RunState} (h : Rests old advanced new)
    (hphase : old = .running ∨ old = .pausing ∨ old = .paused ∨ old = .finalizing)
    (hmoves : advanced = old ∨ (advanced = .finalizing ∧
      (old = .finalizing ∨ canDebateRunTransition old .finalizing))) :
    (old = .pausing ∧ new = .paused) ∨
      (old = .running ∧ (new = .running ∨ new = .finalizing)) ∨
      ((old = .finalizing ∨ old = .paused) ∧ new = old) := by
  rcases hphase with rfl | rfl | rfl | rfl
  · right; left
    rw [h.of_ne (by decide)]
    exact ⟨rfl, hmoves.imp id And.left⟩
  · left
    refine ⟨rfl, ?_⟩
    rcases h with ⟨-, -, hpaused⟩ | ⟨hnot, -⟩
    · exact hpaused
    · refine absurd ⟨rfl, ?_⟩ hnot
      rcases hmoves with rfl | ⟨rfl, -⟩ <;> decide
  · right; right
    rw [h.of_ne (by decide)]
    rcases hmoves with hsame | ⟨-, hfinalizing | hcan⟩
    · exact ⟨.inr rfl, hsame⟩
    · exact nomatch hfinalizing
    · exact absurd hcan (by decide)
  · right; right
    rw [h.of_ne (by decide)]
    exact ⟨.inl rfl, hmoves.elim id And.left⟩

theorem complete_moved {output : TurnOutput} {usage : TurnUsage} {now : ℤ} (hinv : Inv c db)
    (h : complete c db i token output usage now = .ok db') :
    Moved c db (.complete i token output usage now) db' := by
  unfold complete at h
  split at h
  · cases h
  · rename_i attempt hrow
    obtain ⟨_, hleased, h⟩ := bind_eq_ok.mp h
    rw [refuse_eq_ok, not_not] at hleased
    split at h
    · rename_i turn snapshot hturn hsnapshot
      dsimp only at h
      obtain ⟨_, -, h⟩ := bind_eq_ok.mp h
      obtain ⟨_, -, h⟩ := bind_eq_ok.mp h
      have hquoted : Priced c db (.complete i token output usage now) →
          snapshot.frozenCostUsd usage.input_tokens usage.output_tokens ≤
            attempt.reservation.amount_usd := by
        intro hpriced
        rw [(hinv.row hrow).amount snapshot hsnapshot]
        exact hpriced attempt hrow snapshot hsnapshot
      have hworking := hinv.working hrow (.inr hleased.1)
      split at h
      · obtain ⟨rfl, -⟩ := transition_ok h
        refine .closed i attempt .succeeded _ .completed hrow hleased.1 (by decide) (.settled _ hquoted)
          ?_ rfl (.inr ⟨_, rfl, rfl, rfl⟩) (.inr (.inr rfl)) (fun hretained => nomatch hretained)
          (fun hfailed => nomatch hfailed) (fun hpaused => nomatch hpaused) (fun hcompleted => nomatch hcompleted)
        exact cancelQueued_attempts (hinv.closed_rows hworking (close_not_open (by decide))
          (fun hactive => nomatch hactive))
      · rename_i hcancelling
        obtain ⟨advanced, hadvance, h⟩ := bind_eq_ok.mp h
        have hstate := rests_ok h
        have hattempts : db'.attempts = advanced.attempts := (congrArg RunDb.attempts hstate.1 :)
        have hturns : db'.turns = advanced.turns := (congrArg RunDb.turns hstate.1 :)
        have husage : db'.usage = advanced.usage := (congrArg RunDb.usage hstate.1 :)
        have houtputs : db'.final_outputs = advanced.final_outputs :=
          (congrArg RunDb.final_outputs hstate.1 :)
        have hphase := pausable (hinv.leased_state hrow hleased.1) hcancelling
        rcases advance_ok hadvance with ⟨hends, hone⟩ | ⟨hmoves, hkind, next, round, amount, hopens, -, hfinalizes⟩
        · have hfinal : (db'.state = .paused ∧ Unresolved db'.attempts) ∨ db'.state = .completed := by
            rw [hattempts, hends.attempts]
            exact hstate.2.ends hends.state
          refine .closed i attempt .succeeded _ .completed hrow hleased.1 (by decide)
            (.settled _ hquoted) (hattempts.trans hends.attempts) (hturns.trans hends.turns)
            (.inr ⟨_, husage.trans hends.usage, rfl, rfl⟩) ?_ (fun hretained => nomatch hretained)
            (fun hfailed => nomatch hfailed) (fun hpaused _ => .inl ?_) (fun hcompleted _ hnone => ?_)
          · exact hfinal.elim (fun hpaused => .inl hpaused.1) fun hcompleted => .inr (.inl hcompleted)
          · rcases hfinal with ⟨-, hunresolved⟩ | hcompleted
            · exact hunresolved
            · exact nomatch hpaused.symm.trans hcompleted
          · rw [houtputs]
            rcases hone with ⟨hkind, hsame⟩ | ⟨hkind, hone⟩
            · rw [hsame]
              show (if _ then _ else _ : List FinalOutputRow).length = 1
              rw [if_pos hkind, hnone]
              rfl
            · exact hone ((if_neg hkind).trans hnone)
        · have hkeep : (db.storeOutput i attempt turn.round_number output usage
              (snapshot.frozenCostUsd usage.input_tokens usage.output_tokens)).final_outputs =
                db.final_outputs := if_neg hkind
          have hlength : (db.storeOutput i attempt turn.round_number output usage
              (snapshot.frozenCostUsd usage.input_tokens usage.output_tokens)).attempts.length =
                db.attempts.length := List.length_set
          have hlength' : (db.storeOutput i attempt turn.round_number output usage
              (snapshot.frozenCostUsd usage.input_tokens usage.output_tokens)).turns.length =
                db.turns.length := List.length_modify _ _ _
          have hopened := hopens.attempts
          have hturned := hopens.turns
          rw [hlength'] at hopened
          rw [hlength] at hturned
          refine .advanced i attempt ⟨i, usage.input_tokens, usage.output_tokens,
            snapshot.frozenCostUsd usage.input_tokens usage.output_tokens⟩ next round amount hrow
            hleased.1 rfl hquoted (hattempts.trans hopened) hopens.affordable (hturns.trans hturned)
            (husage.trans hopens.usage) ((houtputs.trans hopens.outputs).trans hkeep) ?_ fun hsynthesizer => ?_
          rotate_left
          · rcases hstate.2 with ⟨-, -, hpaused⟩ | ⟨-, hsame⟩
            · exact .inr hpaused
            · exact .inl (hsame.trans (hfinalizes hsynthesizer))
          exact hstate.2.goes hphase hmoves
    · cases h

/-- What is known of a failure: nothing, or the usage, which settles the reservation. -/
theorem recordKnownFailureUsage_ok {failure : Failure} {known : Option ℚ} {row : ReservationRow}
    (hactive : attempt.reservation.status = .active)
    (h : recordKnownFailureUsage c db i attempt failure = .ok (known, row, db')) :
    (failure.usage = none ∧ known = none ∧ row = attempt.reservation ∧ db' = db) ∨
      ∃ usage snapshot, failure.usage = some usage ∧ c.snapshot attempt.actor = some snapshot ∧
        known = some (snapshot.frozenCostUsd usage.input_tokens usage.output_tokens) ∧
        row = attempt.reservation.settle
          (snapshot.frozenCostUsd usage.input_tokens usage.output_tokens) ∧
        db' = { db with usage := db.usage ++ [⟨i, usage.input_tokens, usage.output_tokens,
          snapshot.frozenCostUsd usage.input_tokens usage.output_tokens⟩] } := by
  unfold recordKnownFailureUsage at h
  split at h
  · rename_i hnone
    cases h
    exact .inl ⟨hnone, rfl, rfl, rfl⟩
  · rename_i usage husage
    split at h
    · cases h
    · rename_i snapshot hsnapshot
      obtain ⟨_, -, h⟩ := bind_eq_ok.mp h
      rw [updateIf_of_status hactive] at h
      cases h
      exact .inr ⟨usage, snapshot, husage, hsnapshot, rfl, rfl, rfl⟩

/-- The reservation after a failure that is not retried. -/
theorem afterFailure_cases {P : Prop} {failure : Failure} {known : Option ℚ} {row : ReservationRow}
    (ambiguous : Bool) (whenAmbiguous : ReservationRow → ReservationRow)
    (hactive : attempt.reservation.status = .active)
    (hwhen : attempt.reservation.Resolved P (whenAmbiguous attempt.reservation))
    (h : recordKnownFailureUsage c db i attempt failure = .ok (known, row, db'))
    (hquoted : ∀ snapshot ∈ c.snapshot attempt.actor, ∀ usage ∈ failure.usage, P →
      snapshot.frozenCostUsd usage.input_tokens usage.output_tokens ≤
        attempt.reservation.amount_usd) :
    attempt.reservation.Resolved P (row.afterFailure known ambiguous whenAmbiguous) ∧
      ((row.afterFailure known ambiguous whenAmbiguous).status = .retained_ambiguous →
        ambiguous = true ∧ row.afterFailure known ambiguous whenAmbiguous =
          whenAmbiguous attempt.reservation) ∧
      (db'.usage = db.usage ∨ ∃ event, db'.usage = db.usage ++ [event] ∧ event.turn_attempt = i ∧
        row.afterFailure known ambiguous whenAmbiguous =
          attempt.reservation.settle event.cost_usd) := by
  unfold ReservationRow.afterFailure
  rcases recordKnownFailureUsage_ok hactive h with ⟨-, rfl, rfl, rfl⟩ |
    ⟨usage, snapshot, husage, hsnapshot, rfl, rfl, rfl⟩
  · rw [if_neg (not_not.mpr rfl), updateIf_of_status hactive, updateIf_of_status hactive]
    split
    · rename_i hambiguous
      exact ⟨hwhen, fun _ => ⟨hambiguous, rfl⟩, .inl rfl⟩
    · exact ⟨.released, (fun hretained => nomatch hretained), .inl rfl⟩
  · rw [if_pos (Option.some_ne_none _)]
    exact ⟨.settled _ (hquoted snapshot hsnapshot usage husage),
      (fun hretained => nomatch hretained), .inr ⟨_, rfl, rfl, rfl⟩⟩

theorem fail_moved {failure : Failure} {externalExecutionStarted : Bool} (hinv : Inv c db)
    (h : fail c db i token failure externalExecutionStarted = .ok db') :
    Moved c db (.fail i token failure externalExecutionStarted) db' := by
  unfold fail at h
  split at h
  · cases h
    exact .frame rfl rfl rfl rfl (.inl rfl)
  · rename_i attempt hrow
    split at h
    · rename_i htoken
      have hleased := (hinv.row hrow).token.mp (by rw [htoken]; simp)
      have hactive := hinv.active hrow hleased
      obtain ⟨⟨known, row, db₁⟩, hknown, h⟩ := bind_eq_ok.mp h
      have hquoted : ∀ snapshot ∈ c.snapshot attempt.actor, ∀ usage ∈ failure.usage,
          Priced c db (.fail i token failure externalExecutionStarted) →
          snapshot.frozenCostUsd usage.input_tokens usage.output_tokens ≤
            attempt.reservation.amount_usd := by
        intro snapshot hsnapshot usage husage hpriced
        rw [(hinv.row hrow).amount snapshot hsnapshot]
        exact hpriced attempt hrow snapshot hsnapshot usage husage
      have hsame : db₁.attempts = db.attempts ∧ db₁.turns = db.turns ∧ db₁.state = db.state ∧
          db₁.final_outputs = db.final_outputs := by
        rcases recordKnownFailureUsage_ok hactive hknown with ⟨-, -, -, rfl⟩ | ⟨_, _, -, -, -, -, rfl⟩
        · exact ⟨rfl, rfl, rfl, rfl⟩
        · exact ⟨rfl, rfl, rfl, rfl⟩
      obtain ⟨hattempts, hturns, hstate, houtputs⟩ := hsame
      dsimp only at h
      rw [hstate] at h
      split at h
      · obtain ⟨hresolved, hretains, husage⟩ := afterFailure_cases
          (decide (failure.ambiguous externalExecutionStarted)) .assume hactive .assumed hknown hquoted
        obtain ⟨rfl, -⟩ := transition_ok h
        refine .closed i attempt .cancelled _ .cancelled hrow hleased (by decide) hresolved ?_ ?_ husage
          (.inr (.inr rfl)) (fun hretained => ?_) (fun _ => houtputs) (fun hpaused => nomatch hpaused)
          (fun hcompleted => nomatch hcompleted)
        · show db₁.attempts.set i _ = _
          rw [hattempts]
        · show db₁.turns.modify _ _ = _
          rw [hturns]
          rfl
        · rw [(hretains hretained).2] at hretained
          exact nomatch hretained
      · rename_i hcancelling
        split at h
        · rename_i hretry
          cases h
          rcases recordKnownFailureUsage_ok hactive hknown with ⟨-, -, -, rfl⟩ |
            ⟨_, _, -, -, hsome, -, -⟩
          · refine .replaced i attempt hrow hleased ?_ ?_ rfl rfl ⟨rfl, hcancelling, hretry.1⟩
            · unfold queueReplacementAttempt
              rw [updateIf_of_status hactive]
              rfl
            · show List.modify _ _ _ = _
              rw [show (db₁.setAttempt i _).attempts.length = db₁.attempts.length from List.length_set]
              rfl
          · exact nomatch hsome.symm.trans hretry.2.2.1
        · obtain ⟨hresolved, hretains, husage⟩ := afterFailure_cases
            (decide (failure.ambiguous externalExecutionStarted)) .retain hactive .retained hknown
            hquoted
          obtain ⟨rfl, -⟩ := transition_ok h
          refine .closed i attempt .dead_letter _ .failed hrow hleased (by decide) hresolved ?_ ?_ husage
            (.inl rfl) (fun hretained => ⟨rfl, .inl rfl, fun hguard => ?_⟩) (fun _ => houtputs)
            (fun _ _ => .inr (.inl rfl)) (fun hcompleted => nomatch hcompleted)
          · show db₁.attempts.set i _ = _
            rw [hattempts]
          · show db₁.turns.modify _ _ = _
            rw [hturns]
            rfl
          · exact hguard attempt hrow htoken hcancelling (of_decide_eq_true (hretains hretained).1)
    · cases h
      exact .frame rfl rfl rfl rfl (.inl rfl)

theorem retryTarget_some {target : TurnRow} {t : ℕ} (h : db.retryTarget = some (target, t)) :
    db.turns[t]? = some target ∧ target.Failed := by
  unfold RunDb.retryTarget at h
  refine ⟨?_, of_decide_eq_true (List.find?_some h :)⟩
  have hmem := List.mem_reverse.mp (List.mem_of_find?_eq_some h)
  exact List.mk_mem_zipIdx_iff_getElem?.mp hmem

theorem settleRetained_cases (db : RunDb) : db.settleRetained = db ∨
    db.settleRetained = db.resolveAll .retained_ambiguous .assume := by
  unfold RunDb.settleRetained
  split
  · exact .inr rfl
  · exact .inl rfl

@[simp] theorem settleRetained_turns : db.settleRetained.turns = db.turns := by
  rcases settleRetained_cases db with h | h <;> rw [h]; rfl

@[simp] theorem settleRetained_usage : db.settleRetained.usage = db.usage := by
  rcases settleRetained_cases db with h | h <;> rw [h]; rfl

@[simp] theorem settleRetained_outputs : db.settleRetained.final_outputs = db.final_outputs := by
  rcases settleRetained_cases db with h | h <;> rw [h]; rfl

@[simp] theorem settleRetained_state : db.settleRetained.state = db.state := by
  rcases settleRetained_cases db with h | h <;> rw [h]; rfl

@[simp] theorem settleRetained_length : db.settleRetained.attempts.length = db.attempts.length := by
  rcases settleRetained_cases db with h | h
  · rw [h]
  · rw [h]
    exact List.length_map _

theorem prepareResume_ok {assumeFullCharge : Bool} (hturns : TurnsOk c db)
    (h : prepareResume c db assumeFullCharge = .ok db') :
    ((∃ attempt ∈ db.settleRetained.attempts, attempt.job = .queued) ∧ db' = db.settleRetained) ∨
      ∃ t target attempt_number amount, db.turns[t]? = some target ∧ target.Failed ∧
        Affordable c db.settleRetained.attempts target.actor amount ∧
        db' = db.settleRetained.openAttempt t attempt_number target.actor amount := by
  unfold prepareResume at h
  obtain ⟨_, -, h⟩ := bind_eq_ok.mp h
  dsimp only at h
  split at h
  · rename_i hwaits
    cases h
    exact .inl ⟨hwaits, rfl⟩
  · split at h
    · cases h
    · rename_i target t htarget
      obtain ⟨hrow, hfailed⟩ := retryTarget_some htarget
      rw [settleRetained_turns] at hrow
      split at h
      · cases h
      · rename_i snapshot hsnapshot
        obtain ⟨_, -, h⟩ := bind_eq_ok.mp h
        obtain ⟨_, hbudget, h⟩ := bind_eq_ok.mp h
        rw [refuse_eq_ok] at hbudget
        push Not at hbudget
        cases h
        refine .inr ⟨t, target, _, _, hrow, hfailed, ⟨?_, fun other hother => ?_, hbudget.1, hbudget.2⟩,
          rfl⟩
        · exact hturns.actor target (List.mem_of_getElem? hrow)
        · cases hsnapshot.symm.trans hother
          rfl

theorem control_moved {action : ControlAction} {assumeFullCharge : Bool} (hinv : Inv c db)
    (h : control c db action assumeFullCharge = .ok db') :
    Moved c db (.control action assumeFullCharge) db' := by
  unfold control at h
  obtain ⟨_, hlive, h⟩ := bind_eq_ok.mp h
  obtain ⟨_, hpaused, h⟩ := bind_eq_ok.mp h
  obtain ⟨_, hfinalizing, h⟩ := bind_eq_ok.mp h
  rw [refuse_eq_ok] at hlive hpaused hfinalizing
  rcases action
  · obtain ⟨rfl, hcan⟩ := transition_ok h
    by_cases hrunning : db.state = .running
    · rw [if_pos hrunning]
      exact .frame rfl rfl rfl rfl (.inr (.inr (.inl ⟨hrunning, rfl⟩)))
    · rw [if_neg hrunning] at hcan ⊢
      refine .frame rfl rfl rfl rfl ?_
      rcases hstate : db.state
      all_goals rw [hstate] at hcan hlive hfinalizing hrunning
      all_goals first
        | exact absurd hcan (by decide)
        | exact absurd rfl hrunning
        | exact absurd ⟨rfl, rfl⟩ hfinalizing
        | skip
      · exact .inr (.inl ⟨rfl, rfl⟩)
      · exact .inr (.inr (.inr ⟨rfl, rfl, fun hguard => hguard.2 hstate⟩))
      · exact .inl rfl
  · have hstate : db.state = .paused := by
      by_contra hne
      exact hpaused ⟨rfl, hne⟩
    obtain ⟨db₁, hprepare, h⟩ := bind_eq_ok.mp h
    obtain ⟨rfl, -⟩ := transition_ok h
    rcases prepareResume_ok hinv.turns hprepare with ⟨⟨attempt, hmem, hqueued⟩, rfl⟩ |
      ⟨t, target, attempt_number, amount, hrow, hfailed, haffordable, rfl⟩
    · refine .resumed ?_ rfl settleRetained_turns settleRetained_usage settleRetained_outputs
        ⟨hstate, rfl⟩ id
      rcases settleRetained_cases db with hsame | hresolved
      · rw [hsame] at hmem
        exact ⟨attempt, hmem, hqueued⟩
      · rw [hresolved] at hmem
        obtain ⟨old, hold, rfl⟩ := List.mem_map.mp hmem
        exact ⟨old, hold, hqueued⟩
    · refine .retried t target attempt_number amount hrow hfailed rfl haffordable ?_
        settleRetained_usage settleRetained_outputs ⟨hstate, rfl⟩ id
      show List.modify _ _ _ = _
      rw [settleRetained_turns, settleRetained_length]
  · dsimp only at h
    split at h
    · rename_i hleased
      obtain ⟨rfl, -⟩ := transition_ok h
      exact .cancelling hleased rfl rfl rfl rfl rfl
    · rename_i hleased
      obtain ⟨⟨moved, db₁⟩, hmove, h⟩ := bind_eq_ok.mp h
      obtain ⟨rfl, -⟩ := transitionRunState_ok hmove
      cases h
      refine .cancelled ?_ rfl rfl rfl rfl rfl
      exact fun attempt hattempt hjob => hleased ⟨attempt, hattempt, hjob⟩
  · cases h
    exact .frame rfl rfl rfl rfl (.inl rfl)
  · cases h
    exact .frame rfl rfl rfl rfl (.inl rfl)

theorem intervene_moved {text : String} (h : intervene db text = .ok db') :
    Moved c db (.intervene text) db' := by
  unfold intervene at h
  obtain ⟨_, -, h⟩ := bind_eq_ok.mp h
  cases h
  exact .frame rfl rfl rfl rfl (.inl rfl)

/-- **Every transaction that commits** is a move. -/
theorem apply_moved {op : Op} (hinv : Inv c db) (h : apply c db op = .ok db') : Moved c db op db' := by
  rcases op with ⟨i, token⟩ | i | ⟨i, token⟩ | ⟨i, token⟩ | ⟨i, token, output, usage, now⟩ |
    ⟨i, token, failure, started⟩ | ⟨action, assumeFullCharge⟩ | text
  · exact claim_moved h
  · exact expire_moved hinv h
  · exact failClaimPreparation_moved hinv h
  · exact stopAtDeadline_moved hinv h
  · exact complete_moved hinv h
  · exact fail_moved hinv h
  · exact control_moved hinv h
  · exact intervene_moved h

end

end Norns.Debates
