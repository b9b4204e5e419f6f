import Norns.Debates.Worker
import Norns.Lib.Run

/-! # The debate service

`start`, `control` and `intervene` of `debates/service.ts`, and the runs of a debate: any sequence of
worker steps, human controls and interventions. A refused command changes nothing; a command with a
stale version is refused before anything else.

* `RunConfig.of`, `start`: a run of a ready debate;
* `control`: pause, resume, cancel, stop after the turn or the round;
* `Op`, `apply`, `step`: the system. -/

namespace Norns.Debates

open Norns.Lib Norns.Lib.Transaction

/-! ### Start -/

/-- The constants of a run: every actor is frozen with its price and its maximum charge. -/
def RunConfig.of (debate : Debate) (quote : Actor → PricingSnapshot × ℚ) (started_at : ℤ)
    (maxAttempts : ℕ) (sha256 : String → String) : RunConfig where
  debate
  actor_execution_snapshots := debate.actors.map fun actor => {
    actor_id := actor.id, budget_limit_usd := actor.budget_limit_usd
    pricing := (quote actor).1, maximum_turn_charge_usd := (quote actor).2 }
  started_at
  maxAttempts
  sha256

def start (c : RunConfig) : Except DebateError RunDb := do
  refuse (c.participants.length < 2) .noParticipant
  refuse (∃ snapshot ∈ c.actor_execution_snapshots,
    snapshot.budget_limit_usd < snapshot.maximum_turn_charge_usd)
    (.refused "actor_budget_below_maximum_turn_charge")
  match c.participants.head? with
  | none => .error .noParticipant
  | some first =>
    match c.snapshot first with
    | none => .error .missingSnapshot
    | some snapshot => do
      let policy := c.debate.stopping_policy
      refuse (policy.max_total_cost_usd < snapshot.maximum_turn_charge_usd ∨
        policy.max_total_input_tokens < first.max_input_tokens ∨
        policy.max_total_output_tokens < first.max_output_tokens)
        (.refused "debate_budget_cannot_cover_first_turn")
      return RunDb.openTurn {
        state := .queued, rounds := [{ round_number := 1 }], turns := [], attempts := [] } first 1
        snapshot.maximum_turn_charge_usd

/-! ### Controls -/

inductive ControlAction
  | pause | resume | cancel | stop_after_turn | stop_after_round
  deriving DecidableEq, Repr

/-- The reservations of one status are resolved. -/
def RunDb.resolveAll (db : RunDb) (from_ : ReservationStatus)
    (update : ReservationRow → ReservationRow) : RunDb :=
  { db with attempts := db.attempts.map fun attempt =>
      { attempt with reservation := attempt.reservation.updateIf from_ update } }

/-- The last turn that failed or expired, with its place. -/
def RunDb.retryTarget (db : RunDb) : Option (TurnRow × ℕ) :=
  db.turns.zipIdx.reverse.find? fun e => e.1.state = .failed ∨ e.1.state = .expired

def RunDb.nextAttemptNumber (db : RunDb) (t : ℕ) : ℕ :=
  ((db.attempts.filter fun attempt => attempt.turn = t).map AttemptRow.attempt_number).foldr max 0 + 1

def RunDb.retained (db : RunDb) : ℚ :=
  ((db.attempts.filter fun attempt => attempt.reservation.status = .retained_ambiguous).map
    fun attempt => attempt.reservation.retained_usd).sum

def RunDb.settleRetained (db : RunDb) : RunDb :=
  if 0 < db.retained then db.resolveAll .retained_ambiguous .assume else db

/-- The retained reservations are settled, and a turn is queued if none is. -/
def prepareResume (c : RunConfig) (db : RunDb) (assumeFullCharge : Bool) : Except DebateError RunDb := do
  refuse (0 < db.retained ∧ assumeFullCharge = false)
    (.refused "ambiguous_usage_reconciliation_required")
  let db := db.settleRetained
  if ∃ attempt ∈ db.attempts, attempt.job = .queued then return db
  else match db.retryTarget with
    | none => .error (.refused "debate_run_has_no_resumable_turn")
    | some (target, t) =>
      match c.snapshot target.actor with
      | none => .error .missingSnapshot
      | some snapshot => do
        let maximumCharge := snapshot.maximum_turn_charge_usd
        refuse (target.actor.budget_limit_usd < maximumCharge)
          (.refused "actor_budget_below_maximum_turn_charge")
        refuse (c.debate.stopping_policy.max_total_cost_usd < db.committed + maximumCharge ∨
          target.actor.budget_limit_usd < db.actorCommitted target.actor.id + maximumCharge)
          (.refused "debate_budget_exhausted_after_ambiguity_reconciliation")
        return db.openAttempt t (db.nextAttemptNumber t) target.actor maximumCharge

/-- The turns that wait are cancelled. -/
def RunDb.cancelTurns (db : RunDb) : RunDb :=
  { db with turns := db.turns.map fun turn =>
      if turn.state = .queued then { turn with state := .cancelled } else turn }

def control (c : RunConfig) (db : RunDb) (action : ControlAction) (assumeFullCharge : Bool) :
    Except DebateError RunDb := do
  refuse db.state.terminal (.refused "debate_run_terminal")
  refuse (action = .resume ∧ db.state ≠ .paused) (.refused "debate_run_not_paused")
  refuse (action = .pause ∧ db.state = .finalizing) (.refused "debate_run_is_finalizing")
  match action with
  | .pause => Prod.snd <$> transitionRunState db (if db.state = .running then .pausing else .paused)
  | .resume => do
    let db ← prepareResume c db assumeFullCharge
    Prod.snd <$> transitionRunState db .queued
  | .cancel => do
    let settled := db.resolveAll .retained_ambiguous .assume
    if ∃ attempt ∈ db.attempts, attempt.job = .leased then
      Prod.snd <$> transitionRunState settled .cancelling
    else do
      let (_, db) ← transitionRunState settled .cancelled
      return db.cancelQueued.cancelTurns.cancelRounds
  | .stop_after_turn => return { db with stop_after := .turn }
  | .stop_after_round => return { db with stop_after := .round }

/-- A human message. -/
def intervene (db : RunDb) (text : String) : Except DebateError RunDb := do
  refuse db.state.terminal (.refused "debate_run_terminal")
  return { db with messages := db.messages ++ [text] }

/-! ### Runs -/

inductive Op
  | claim (i : ℕ) (token : String)
  | expire (i : ℕ)
  | failClaimPreparation (i : ℕ) (token : String)
  | stopAtDeadline (i : ℕ) (token : String)
  | complete (i : ℕ) (token : String) (output : TurnOutput) (usage : TurnUsage) (now : ℤ)
  | fail (i : ℕ) (token : String) (failure : Failure) (externalExecutionStarted : Bool)
  | control (action : ControlAction) (assumeFullCharge : Bool)
  | intervene (text : String)
  deriving DecidableEq

/-- The transaction of an operation. -/
def apply (c : RunConfig) (db : RunDb) : Op → Except DebateError RunDb
  | .claim i token => claim db i token
  | .expire i => expire db i
  | .failClaimPreparation i token => failClaimPreparation db i token
  | .stopAtDeadline i token => stopAtDeadline db i token
  | .complete i token output usage now => complete c db i token output usage now
  | .fail i token failure externalExecutionStarted => fail c db i token failure externalExecutionStarted
  | .control action assumeFullCharge => control c db action assumeFullCharge
  | .intervene text => intervene db text

def step (c : RunConfig) (db : RunDb) (op : Op) : RunDb := commit db (apply c db op)

theorem step_of_ok {c : RunConfig} {db db' : RunDb} {op : Op} (h : apply c db op = .ok db') :
    step c db op = db' := by
  unfold step
  rw [h]
  rfl

end Norns.Debates
