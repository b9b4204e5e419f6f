import Mathlib
import Norns.Lib.Json
import Norns.Lib.Transaction

/-! # The tables of a debate run

The rows of one run, with the columns that `debates/worker.ts` and `debates/service.ts` read back;
the transactions of a run are serialized by the lock on its row. Rounds are identified by their
number, turns, attempts and messages by their place. A job and a reservation belong to one attempt and
are kept with it.

* `canDebateRunTransition`: the transitions of `v2/debate.ts`, and `transitionRunState`, which aborts
  on any other;
* `evaluateDebateStopping`: the stopping rules;
* `Resolution`: how a reservation is resolved. -/

namespace Norns.Debates

open Norns.Lib Norns.Lib.Transaction

/-! ### Definitions of a debate -/

inductive ActorKind
  | participant | judge | synthesizer
  deriving DecidableEq, Repr

structure Actor where
  id : String
  actor_kind : ActorKind
  max_turns : ℕ
  max_input_tokens : ℕ
  max_output_tokens : ℕ
  budget_limit_usd : ℚ
  deriving DecidableEq

structure StoppingPolicy where
  exact_rounds : Option ℕ
  max_rounds : ℕ
  max_duration_seconds : ℕ
  max_total_input_tokens : ℕ
  max_total_output_tokens : ℕ
  max_total_cost_usd : ℚ
  stop_on_consensus : Bool
  no_material_change_rounds : Option ℕ
  repeated_disagreement_rounds : Option ℕ
  provider_failure_threshold : ℕ
  deriving DecidableEq

/-- A debate that is ready, its actors in the order of their positions. -/
structure Debate where
  actors : List Actor
  stopping_policy : StoppingPolicy
  ids_nodup : (actors.map Actor.id).Nodup

structure PricingSnapshot where
  input_per_mtok_usd : ℚ
  output_per_mtok_usd : ℚ
  deriving DecidableEq

/-- What is frozen of an actor when the run starts. -/
structure ActorExecutionSnapshot where
  actor_id : String
  budget_limit_usd : ℚ
  pricing : PricingSnapshot
  maximum_turn_charge_usd : ℚ
  deriving DecidableEq

/-- The constants of a run and of its worker. -/
structure RunConfig where
  debate : Debate
  actor_execution_snapshots : List ActorExecutionSnapshot
  /-- `started_at`, in milliseconds -/
  started_at : ℤ
  maxAttempts : ℕ := 3
  sha256 : String → String

/-- `actor_execution_snapshots.find` -/
def RunConfig.snapshot (c : RunConfig) (actor : Actor) : Option ActorExecutionSnapshot :=
  c.actor_execution_snapshots.find? fun snapshot => snapshot.actor_id = actor.id

/-- The cost of a call at the frozen prices. -/
def ActorExecutionSnapshot.frozenCostUsd (snapshot : ActorExecutionSnapshot)
    (input_tokens output_tokens : ℕ) : ℚ :=
  (input_tokens * snapshot.pricing.input_per_mtok_usd +
    output_tokens * snapshot.pricing.output_per_mtok_usd) / 1000000

/-! ### States of a run -/

inductive RunState
  | created | queued | running | pausing | paused | finalizing | cancelling | completed | cancelled
  | failed
  deriving DecidableEq, Repr

/-- `V2_DEBATE_RUN_TRANSITIONS` -/
def debateRunTransitions : RunState → List RunState
  | .created => [.queued, .cancelling, .cancelled, .failed]
  | .queued => [.running, .paused, .cancelling, .cancelled, .failed]
  | .running => [.pausing, .paused, .finalizing, .cancelling, .cancelled, .failed]
  | .pausing => [.paused, .running, .finalizing, .cancelling, .cancelled, .failed]
  | .paused => [.queued, .cancelling, .cancelled, .failed]
  | .finalizing => [.paused, .completed, .cancelling, .cancelled, .failed]
  | .cancelling => [.cancelled, .failed]
  | .completed | .cancelled | .failed => []

def canDebateRunTransition (from_ to_ : RunState) : Prop := to_ ∈ debateRunTransitions from_

instance (from_ to_ : RunState) : Decidable (canDebateRunTransition from_ to_) :=
  inferInstanceAs (Decidable (to_ ∈ debateRunTransitions from_))

def RunState.terminal (state : RunState) : Prop :=
  state = .completed ∨ state = .cancelled ∨ state = .failed

instance (state : RunState) : Decidable state.terminal := inferInstanceAs (Decidable (_ ∨ _))

inductive StopAfter
  | none | turn | round
  deriving DecidableEq, Repr

/-! ### Rows -/

inductive RoundState
  | active | completed | cancelled
  deriving DecidableEq, Repr

structure RoundRow where
  round_number : ℕ
  state : RoundState := .active
  material_change : Option Bool := none
  unresolved_disagreement_fingerprint : Option String := none
  deriving DecidableEq

inductive TurnState
  | queued | running | completed | failed | cancelled | expired
  deriving DecidableEq, Repr

structure TurnRow where
  round_number : ℕ
  actor : Actor
  state : TurnState := .queued
  designated_attempt : ℕ
  deriving DecidableEq

inductive JobState
  | queued | leased | succeeded | failed | cancelled | dead_letter
  deriving DecidableEq, Repr

inductive ReservationStatus
  | active | settled | released | retained_ambiguous
  deriving DecidableEq, Repr

structure ReservationRow where
  amount_usd : ℚ
  settled_usd : ℚ := 0
  released_usd : ℚ := 0
  retained_usd : ℚ := 0
  status : ReservationStatus := .active
  deriving DecidableEq

/-- An attempt, its job and its reservation. The actor is the one of the turn. -/
structure AttemptRow where
  turn : ℕ
  attempt_number : ℕ
  actor : Actor
  job : JobState := .queued
  lease_token : Option String := none
  reservation : ReservationRow
  deriving DecidableEq

structure UsageEventRow where
  turn_attempt : ℕ
  input_tokens : ℕ
  output_tokens : ℕ
  cost_usd : ℚ
  deriving DecidableEq

/-- The fields of a structured output that the protocol reads; an output of another kind lacks
some. -/
structure TurnOutput where
  content : String
  consensus_reported : Option Bool := none
  material_change : Option Bool := none
  unresolved_disagreements : List String := []
  /-- The messages that a judge cites. -/
  evidence_messages : List ℕ := []
  deriving DecidableEq

/-- A `participant_turn_completed` or `judge_turn_completed` event. -/
structure TurnCompletedRow where
  round_number : ℕ
  actor_kind : ActorKind
  structured_output : TurnOutput
  deriving DecidableEq

structure FinalOutputRow where
  /-- `revision_id IS NOT NULL` -/
  revision : Bool
  content : String
  deriving DecidableEq

structure RunDb where
  state : RunState
  stop_after : StopAfter := .none
  rounds : List RoundRow
  turns : List TurnRow
  attempts : List AttemptRow
  usage : List UsageEventRow := []
  messages : List String := []
  events : List TurnCompletedRow := []
  final_outputs : List FinalOutputRow := []
  deriving DecidableEq

inductive DebateError
  | illegalTransition (from_ to_ : RunState)
  | leaseLost
  | citedMissingMessage
  | missingSnapshot
  | exceededReservation
  | budgetBelowCharge
  | noOutput
  | noParticipant
  /-- The unique index of the final outputs. -/
  | constraint
  /-- The command is refused. -/
  | refused (error : String)
  deriving DecidableEq, Repr

namespace RunDb

def setAttempt (db : RunDb) (i : ℕ) (attempt : AttemptRow) : RunDb :=
  { db with attempts := db.attempts.set i attempt }

/-- `UPDATE debate_turns .. WHERE designated_attempt_id = i` -/
def setDesignatedTurns (db : RunDb) (i : ℕ) (state : TurnState) : RunDb :=
  { db with turns := db.turns.map fun turn =>
      if turn.designated_attempt = i then { turn with state } else turn }

/-- `UPDATE debate_turns .. WHERE id = t` -/
def setTurn (db : RunDb) (t : ℕ) (state : TurnState) : RunDb :=
  { db with turns := db.turns.modify t fun turn => { turn with state } }

/-- `UPDATE debate_rounds SET state = 'cancelled' WHERE state IN ('pending','active')` -/
def cancelRounds (db : RunDb) : RunDb :=
  { db with rounds := db.rounds.map fun round =>
      if round.state = .active then { round with state := .cancelled } else round }

end RunDb

def transitionRunState (db : RunDb) (to_ : RunState) : Except DebateError (Bool × RunDb) :=
  if db.state = to_ then .ok (false, db)
  else if canDebateRunTransition db.state to_ then .ok (true, { db with state := to_ })
  else .error (.illegalTransition db.state to_)

/-! ### Reservations -/

namespace ReservationRow

/-- Amounts are exact here. The columns are `NUMERIC(18, 6)` and a CHECK wants their sum to be the amount, so
that a half of a micro-dollar, rounded twice, aborts the transaction. -/
def settle (row : ReservationRow) (cost : ℚ) : ReservationRow :=
  { row with
    status := .settled, settled_usd := cost, released_usd := row.amount_usd - cost
    retained_usd := 0 }

def release (row : ReservationRow) : ReservationRow :=
  { row with status := .released, released_usd := row.amount_usd }

def retain (row : ReservationRow) : ReservationRow :=
  { row with status := .retained_ambiguous, retained_usd := row.amount_usd }

/-- The full amount is assumed to be charged. -/
def assume (row : ReservationRow) : ReservationRow :=
  { row with status := .settled, settled_usd := row.amount_usd, retained_usd := 0 }

/-- `UPDATE debate_reservations .. WHERE status = from_` -/
def updateIf (row : ReservationRow) (from_ : ReservationStatus)
    (update : ReservationRow → ReservationRow) : ReservationRow :=
  if row.status = from_ then update row else row

/-- `settled_usd + retained_usd + CASE WHEN status = 'active' THEN amount_usd ELSE 0 END` -/
def committed (row : ReservationRow) : ℚ :=
  row.settled_usd + row.retained_usd + if row.status = .active then row.amount_usd else 0

end ReservationRow

/-- The committed cost of the run. -/
def RunDb.committed (db : RunDb) : ℚ :=
  (db.attempts.map fun attempt => attempt.reservation.committed).sum

/-- The committed cost of an actor. -/
def RunDb.actorCommitted (db : RunDb) (actor_id : String) : ℚ :=
  ((db.attempts.filter fun attempt => attempt.actor.id = actor_id).map
    fun attempt => attempt.reservation.committed).sum

/-! ### Stopping -/

inductive StoppingReason
  | requested_stop | exact_rounds | max_rounds | max_duration | max_input_tokens | max_output_tokens
  | max_cost | provider_failures | consensus | no_material_change | repeated_disagreement
  deriving DecidableEq, Repr

structure StoppingObservation where
  completed_rounds : ℕ
  elapsed_seconds : ℚ
  input_tokens : ℕ
  output_tokens : ℕ
  cost_usd : ℚ
  consensus_reported : Bool
  consecutive_no_material_change_rounds : ℕ
  consecutive_repeated_disagreement_rounds : ℕ
  consecutive_provider_failures : ℕ
  requested_stop : Bool
  deriving DecidableEq

def evaluateDebateStopping (policy : StoppingPolicy) (observation : StoppingObservation) :
    Option StoppingReason :=
  if observation.requested_stop then some .requested_stop
  else if ∃ n ∈ policy.exact_rounds, n ≤ observation.completed_rounds then some .exact_rounds
  else if policy.max_rounds ≤ observation.completed_rounds then some .max_rounds
  else if policy.max_duration_seconds ≤ observation.elapsed_seconds then some .max_duration
  else if policy.max_total_input_tokens ≤ observation.input_tokens then some .max_input_tokens
  else if policy.max_total_output_tokens ≤ observation.output_tokens then some .max_output_tokens
  else if policy.max_total_cost_usd ≤ observation.cost_usd then some .max_cost
  else if policy.provider_failure_threshold ≤ observation.consecutive_provider_failures then
    some .provider_failures
  -- a fixed number of rounds suppresses the early exits that follow
  else if policy.exact_rounds.isSome then none
  else if policy.stop_on_consensus ∧ observation.consensus_reported then some .consensus
  else if ∃ n ∈ policy.no_material_change_rounds,
      n ≤ observation.consecutive_no_material_change_rounds then some .no_material_change
  else if ∃ n ∈ policy.repeated_disagreement_rounds,
      n ≤ observation.consecutive_repeated_disagreement_rounds then some .repeated_disagreement
  else none

/-- `semanticSignals` -/
structure SemanticSignals where
  consensus : Bool
  materialChange : Bool
  disagreementFingerprint : Option String
  deriving DecidableEq

def semanticSignals (sha256 : String → String) (output : TurnOutput) : SemanticSignals where
  consensus := output.consensus_reported.getD false
  materialChange := output.material_change.getD true
  disagreementFingerprint :=
    if output.unresolved_disagreements = [] then none
    else some (sha256 (Json.stringify (fun n : ℕ => toString n)
      (.arr (output.unresolved_disagreements.map .str))))

end Norns.Debates
