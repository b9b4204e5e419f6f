import Norns.Debates.Tables

/-! # The debate worker

The transactions of `debates/worker.ts` on one run. A worker that claimed a job holds it by a lease
token; whatever it does later names the attempt and the token. The sweep of expired leases and the
claim are separate steps, and a lease may expire at any time.

* `claim`, `expire`, `failClaimPreparation`, `stopAtDeadline`;
* `complete`: the output is stored, the usage settled and the run advanced (`advance`,
  `scheduleTurn`, `completeRun`);
* `fail`: the failure is settled, and retried, paused or cancelled. -/

namespace Norns.Debates

open Norns.Lib Norns.Lib.Transaction

def AttemptRow.leasedBy (attempt : AttemptRow) (token : String) : Prop :=
  attempt.job = .leased ∧ attempt.lease_token = some token

instance (attempt : AttemptRow) (token : String) : Decidable (attempt.leasedBy token) :=
  inferInstanceAs (Decidable (_ ∧ _))

/-- The job ends, and its lease with it. -/
def AttemptRow.close (attempt : AttemptRow) (job : JobState) (reservation : ReservationRow) :
    AttemptRow :=
  { attempt with job, reservation, lease_token := none }

/-! ### Claiming -/

/-- The queued job is leased. -/
def claim (db : RunDb) (i : ℕ) (token : String) : Except DebateError RunDb :=
  match db.attempts[i]? with
  | none => .ok db
  | some attempt =>
    if attempt.job = .queued ∧
        (db.state = .queued ∨ db.state = .running ∨ db.state = .finalizing) then
      let leased := (db.setAttempt i { attempt with
        job := .leased, lease_token := some token }).setDesignatedTurns i .running
      if db.state = .queued then Prod.snd <$> transitionRunState leased .running else .ok leased
    else .ok db

/-- The sweep of an expired lease. -/
def expire (db : RunDb) (i : ℕ) : Except DebateError RunDb :=
  match db.attempts[i]? with
  | none => .ok db
  | some attempt =>
    if attempt.job = .leased then
      if db.state = .cancelling then
        let closed := attempt.close .dead_letter (attempt.reservation.updateIf .active .assume)
        Prod.snd <$> transitionRunState
          ((db.setAttempt i closed).setDesignatedTurns i .cancelled).cancelRounds .cancelled
      else
        let closed := attempt.close .dead_letter (attempt.reservation.updateIf .active .retain)
        Prod.snd <$> transitionRunState
          ((db.setAttempt i closed).setDesignatedTurns i .expired) .paused
    else .ok db

/-- The claimed job could not be loaded. -/
def failClaimPreparation (db : RunDb) (i : ℕ) (token : String) : Except DebateError RunDb :=
  match db.attempts[i]? with
  | none => .ok db
  | some attempt =>
    if attempt.lease_token = some token then
      let closed := attempt.close .dead_letter (attempt.reservation.updateIf .active .release)
      Prod.snd <$> transitionRunState
        ((db.setAttempt i closed).setDesignatedTurns i .failed) .paused
    else .ok db

/-! ### Ending a run -/

/-- `INSERT INTO debate_final_outputs` without a revision; there is at most one such row. -/
def RunDb.insertFinalOutput (db : RunDb) (content : String) : Except DebateError RunDb :=
  if ∃ output ∈ db.final_outputs, output.revision = false then .error .constraint
  else .ok { db with final_outputs := db.final_outputs ++ [⟨false, content⟩] }

/-- The same, `ON CONFLICT DO NOTHING`. -/
def RunDb.offerFinalOutput (db : RunDb) (content : String) : RunDb :=
  commit db (db.insertFinalOutput content)

/-- `INSERT INTO debate_final_outputs .. SELECT .. ORDER BY sequence DESC LIMIT 1` -/
def RunDb.offerLastMessage (db : RunDb) : RunDb :=
  match db.messages.getLast? with
  | none => db
  | some content => db.offerFinalOutput content

/-- `UPDATE debate_rounds SET state = 'completed' WHERE .. AND state = 'active'` -/
def RunDb.completeRounds (db : RunDb) (which : RoundRow → Bool) : RunDb :=
  { db with rounds := db.rounds.map fun round =>
      if which round = true ∧ round.state = .active then { round with state := .completed } else round }

/-- The run deadline elapsed before the job was dispatched. -/
def stopAtDeadline (db : RunDb) (i : ℕ) (token : String) : Except DebateError RunDb :=
  match db.attempts[i]? with
  | none => .ok db
  | some attempt =>
    if attempt.leasedBy token then do
      let closed := attempt.close .cancelled (attempt.reservation.updateIf .active .release)
      let db := (db.setAttempt i closed).setTurn attempt.turn .cancelled
      if db.state = .cancelling then
        let (_, db) ← transitionRunState db .cancelled
        return db.cancelRounds
      else if db.state = .pausing then
        Prod.snd <$> transitionRunState db .paused
      else do
        let (_, db) ← transitionRunState db .finalizing
        let (_, db) ← transitionRunState db.offerLastMessage .completed
        return db.completeRounds fun _ => true
    else .ok db

/-- The claimed turn's round is `round_number`. -/
def completeRun (db : RunDb) (round_number : ℕ) : Except DebateError RunDb :=
  if ∃ attempt ∈ db.attempts, attempt.reservation.status = .active ∨
      attempt.reservation.status = .retained_ambiguous then
    Prod.snd <$> transitionRunState db .paused
  else do
    let (_, db) ← transitionRunState db .completed
    return db.completeRounds fun round => decide (round.round_number = round_number)

/-! ### Advancing -/

/-- A turn of the actor, with its first attempt, its reservation and its job. -/
def RunDb.openTurn (db : RunDb) (actor : Actor) (round_number : ℕ) (amount : ℚ) : RunDb :=
  { db with
    turns := db.turns ++ [{ round_number, actor, designated_attempt := db.attempts.length }]
    attempts := db.attempts ++ [{
      turn := db.turns.length, attempt_number := 1, actor, reservation := { amount_usd := amount } }] }

def runBudgetExceeded (c : RunConfig) (db : RunDb) (actor : Actor) (amount : ℚ) : Prop :=
  c.debate.stopping_policy.max_total_cost_usd < db.committed + amount ∨
    c.debate.stopping_policy.max_total_input_tokens <
      (db.usage.map UsageEventRow.input_tokens).sum + actor.max_input_tokens ∨
    c.debate.stopping_policy.max_total_output_tokens <
      (db.usage.map UsageEventRow.output_tokens).sum + actor.max_output_tokens

instance (c : RunConfig) (db : RunDb) (actor : Actor) (amount : ℚ) :
    Decidable (runBudgetExceeded c db actor amount) :=
  inferInstanceAs (Decidable (_ ∨ _))

def actorLimitExceeded (db : RunDb) (actor : Actor) (amount : ℚ) : Prop :=
  actor.budget_limit_usd < db.actorCommitted actor.id + amount ∨
    actor.max_turns ≤ (db.turns.filter fun turn => turn.actor.id = actor.id).length

instance (db : RunDb) (actor : Actor) (amount : ℚ) : Decidable (actorLimitExceeded db actor amount) :=
  inferInstanceAs (Decidable (_ ∨ _))

/-- `claimRound` is the round of the claimed turn; the new turn opens `roundNumber` if `createRound`
says so. -/
def scheduleTurn (c : RunConfig) (db : RunDb) (claimRound : ℕ) (actor : Actor) (roundNumber : ℕ)
    (createRound : Bool) : Except DebateError RunDb :=
  match c.snapshot actor with
  | none => .error .missingSnapshot
  | some snapshot => do
    let amount := snapshot.maximum_turn_charge_usd
    refuse (actor.budget_limit_usd < amount) .budgetBelowCharge
    if runBudgetExceeded c db actor amount ∨ actorLimitExceeded db actor amount then
      match db.messages.getLast? with
      | none => .error .noOutput
      | some content => do
        let (_, db) ← transitionRunState (db.offerFinalOutput content) .finalizing
        completeRun db claimRound
    else if createRound = true ∧ roundNumber ≠ claimRound then
      return RunDb.openTurn { db with rounds := db.rounds ++ [{ round_number := roundNumber }] } actor
        roundNumber amount
    else return db.openTurn actor claimRound amount

def RunConfig.participants (c : RunConfig) : List Actor :=
  c.debate.actors.filter fun actor => actor.actor_kind = .participant

def RunConfig.judge (c : RunConfig) : Option Actor :=
  c.debate.actors.find? fun actor => actor.actor_kind = .judge

def RunConfig.synthesizer (c : RunConfig) : Option Actor :=
  c.debate.actors.find? fun actor => actor.actor_kind = .synthesizer

/-- The actor after this one in the round. -/
def RunConfig.nextActor (c : RunConfig) (actor : Actor) : Option Actor :=
  let roundActors := c.participants ++ c.judge.toList
  (roundActors.findIdx? fun other => other.id = actor.id).bind fun k => roundActors[k + 1]?

/-- The signals of the outputs of a round. -/
def roundSignals (c : RunConfig) (db : RunDb) (round_number : ℕ) : SemanticSignals :=
  let rows := db.events.filter fun event =>
    event.actor_kind ≠ .synthesizer ∧ event.round_number = round_number
  let signalRows := rows.map fun row => semanticSignals c.sha256 row.structured_output
  let judgeSignals := (rows.find? fun row => row.actor_kind = .judge).map
    fun row => semanticSignals c.sha256 row.structured_output
  let disagreements := (signalRows.filterMap SemanticSignals.disagreementFingerprint).mergeSort
  { consensus :=
      if c.judge.isSome then (judgeSignals.map SemanticSignals.consensus).getD false
      else c.participants.length ≤ signalRows.length ∧
        ∀ signals ∈ signalRows, signals.consensus = true
    materialChange := ∃ signals ∈ signalRows, signals.materialChange = true
    disagreementFingerprint :=
      if disagreements = [] then none else some (c.sha256 (":".intercalate disagreements)) }

def RunDb.recordRound (db : RunDb) (round_number : ℕ) (signals : SemanticSignals) : RunDb :=
  { db with rounds := db.rounds.map fun round =>
      if round.round_number = round_number then
        { round with
          state := .completed, material_change := some signals.materialChange
          unresolved_disagreement_fingerprint := signals.disagreementFingerprint }
      else round }

def stoppingObservation (c : RunConfig) (db : RunDb) (round_number : ℕ) (signals : SemanticSignals)
    (now : ℤ) (stopAfter : StopAfter) : StoppingObservation :=
  let recentRounds := (db.rounds.filter fun round => round.state = .completed).reverse
  let latestFingerprint := recentRounds.head?.bind RoundRow.unresolved_disagreement_fingerprint
  { completed_rounds := round_number
    elapsed_seconds := max 0 ((now - c.started_at : ℤ) / 1000)
    input_tokens := (db.usage.map UsageEventRow.input_tokens).sum
    output_tokens := (db.usage.map UsageEventRow.output_tokens).sum
    cost_usd := (db.usage.map UsageEventRow.cost_usd).sum
    consensus_reported := signals.consensus
    consecutive_no_material_change_rounds :=
      (recentRounds.takeWhile fun round => round.material_change = some false).length
    consecutive_repeated_disagreement_rounds :=
      if latestFingerprint = none then 0
      else (recentRounds.takeWhile fun round =>
        round.unresolved_disagreement_fingerprint = latestFingerprint).length
    consecutive_provider_failures := 0
    requested_stop := stopAfter ≠ .none }

/-- `content` is the message of the turn that is complete. -/
def advance (c : RunConfig) (db : RunDb) (actor : Actor) (round_number : ℕ) (content : String)
    (now : ℤ) (stopAfter : StopAfter) : Except DebateError RunDb :=
  if actor.actor_kind = .synthesizer then completeRun db round_number
  else match (if stopAfter = .turn then none else c.nextActor actor) with
    | some next => scheduleTurn c db round_number next round_number false
    | none => do
      let signals := roundSignals c db round_number
      let db := db.recordRound round_number signals
      match evaluateDebateStopping c.debate.stopping_policy
          (stoppingObservation c db round_number signals now stopAfter) with
      | some _ => do
        let (_, db) ← transitionRunState db .finalizing
        match c.synthesizer with
        | some synthesizer => scheduleTurn c db round_number synthesizer round_number true
        | none => do
          let db ← db.insertFinalOutput content
          completeRun db round_number
      | none =>
        match c.participants.head? with
        | none => .error .noParticipant
        | some first => scheduleTurn c db round_number first (round_number + 1) true

/-! ### Completing a turn -/

structure TurnUsage where
  input_tokens : ℕ
  output_tokens : ℕ
  deriving DecidableEq

/-- The rows of the turn that a valid output is stored with, up to the end of its job. -/
def RunDb.storeOutput (db : RunDb) (i : ℕ) (attempt : AttemptRow) (round_number : ℕ)
    (output : TurnOutput) (usage : TurnUsage) (cost : ℚ) : RunDb :=
  let kind := attempt.actor.actor_kind
  let db : RunDb := { db with
    messages := db.messages ++ [output.content]
    final_outputs := if kind = .synthesizer then db.final_outputs ++ [⟨true, output.content⟩]
      else db.final_outputs
    usage := db.usage ++ [⟨i, usage.input_tokens, usage.output_tokens, cost⟩]
    events := db.events ++ [⟨round_number, kind, output⟩] }
  (db.setAttempt i (attempt.close .succeeded (attempt.reservation.settle cost))).setTurn attempt.turn
    .completed

/-- `UPDATE debate_jobs SET state = 'cancelled' WHERE .. state = 'queued'`, and the active
reservations are released. -/
def RunDb.cancelQueued (db : RunDb) : RunDb :=
  { db with attempts := db.attempts.map fun attempt => { attempt with
      job := if attempt.job = .queued then .cancelled else attempt.job
      reservation := attempt.reservation.updateIf .active .release } }

def complete (c : RunConfig) (db : RunDb) (i : ℕ) (token : String) (output : TurnOutput)
    (usage : TurnUsage) (now : ℤ) : Except DebateError RunDb :=
  match db.attempts[i]? with
  | none => .error .leaseLost
  | some attempt => do
    refuse (¬ attempt.leasedBy token) .leaseLost
    match db.turns[attempt.turn]?, c.snapshot attempt.actor with
    | some turn, some snapshot => do
      let cost := snapshot.frozenCostUsd usage.input_tokens usage.output_tokens
      refuse (attempt.actor.actor_kind = .judge ∧
        ∃ message ∈ output.evidence_messages, db.messages.length < message) .citedMissingMessage
      refuse (attempt.reservation.amount_usd + 1 / 1000000 < cost) .exceededReservation
      let stored := db.storeOutput i attempt turn.round_number output usage cost
      if db.state = .cancelling then
        Prod.snd <$> transitionRunState stored.cancelQueued.cancelRounds .cancelled
      else do
        let advanced ← advance c stored attempt.actor turn.round_number output.content now db.stop_after
        if db.state = .pausing ∧ ¬ advanced.state.terminal then
          Prod.snd <$> transitionRunState advanced .paused
        else return advanced
    | _, _ => .error .missingSnapshot

/-! ### Failing a turn -/

inductive AdapterErrorKind
  | rate_limit | auth | insufficient_funds | invalid_request | overloaded | server | network
  | cancelled | invalid_response
  deriving DecidableEq, Repr

/-- What a thrown error says; `kind` is that of an `AdapterError`. -/
structure Failure where
  kind : Option AdapterErrorKind
  usage : Option TurnUsage
  requestDispatched : Option Bool
  deriving DecidableEq

/-- The usage of a failure is settled like that of a success. -/
def recordKnownFailureUsage (c : RunConfig) (db : RunDb) (i : ℕ) (attempt : AttemptRow)
    (failure : Failure) : Except DebateError (Option ℚ × ReservationRow × RunDb) :=
  match failure.usage with
  | none => .ok (none, attempt.reservation, db)
  | some usage =>
    match c.snapshot attempt.actor with
    | none => .error .missingSnapshot
    | some snapshot => do
      let cost := snapshot.frozenCostUsd usage.input_tokens usage.output_tokens
      refuse (attempt.reservation.amount_usd + 1 / 1000000 < cost) .exceededReservation
      return (some cost, attempt.reservation.updateIf .active fun row => row.settle cost,
        { db with usage := db.usage ++ [⟨i, usage.input_tokens, usage.output_tokens, cost⟩] })

/-- The provider may have executed the call, and no usage is known. -/
def Failure.ambiguous (failure : Failure) (externalExecutionStarted : Bool) : Prop :=
  failure.requestDispatched.getD externalExecutionStarted = true ∧ failure.usage = none ∧
    ∀ kind ∈ failure.kind,
      kind = .network ∨ kind = .server ∨ kind = .cancelled ∨ kind = .invalid_response

instance (failure : Failure) (externalExecutionStarted : Bool) :
    Decidable (failure.ambiguous externalExecutionStarted) :=
  inferInstanceAs (Decidable (_ ∧ _))

def Failure.retryable (failure : Failure) : Prop :=
  failure.kind = some .rate_limit ∨ failure.kind = some .overloaded

instance (failure : Failure) : Decidable failure.retryable := inferInstanceAs (Decidable (_ ∨ _))

/-- A new attempt of a turn that exists. -/
def RunDb.openAttempt (db : RunDb) (t attempt_number : ℕ) (actor : Actor) (amount : ℚ) : RunDb :=
  { db with
    turns := db.turns.modify t fun turn =>
      { turn with state := .queued, designated_attempt := db.attempts.length }
    attempts := db.attempts ++ [{
      turn := t, attempt_number, actor, reservation := { amount_usd := amount } }] }

def queueReplacementAttempt (db : RunDb) (i : ℕ) (attempt : AttemptRow) : RunDb :=
  (db.setAttempt i (attempt.close .failed (attempt.reservation.updateIf .active .release))).openAttempt
    attempt.turn (attempt.attempt_number + 1) attempt.actor attempt.reservation.amount_usd

/-- The reservation after a failure that is not retried. -/
def ReservationRow.afterFailure (row : ReservationRow) (known : Option ℚ) (ambiguous : Bool)
    (whenAmbiguous : ReservationRow → ReservationRow) : ReservationRow :=
  if known ≠ none then row
  else if ambiguous = true then row.updateIf .active whenAmbiguous
  else row.updateIf .active .release

def fail (c : RunConfig) (db : RunDb) (i : ℕ) (token : String) (failure : Failure)
    (externalExecutionStarted : Bool) : Except DebateError RunDb :=
  match db.attempts[i]? with
  | none => .ok db
  | some attempt =>
    if attempt.lease_token = some token then do
      let (known, reservation, db) ← recordKnownFailureUsage c db i attempt failure
      let ambiguous := decide (failure.ambiguous externalExecutionStarted)
      if db.state = .cancelling then
        let closed := attempt.close .cancelled (reservation.afterFailure known ambiguous .assume)
        Prod.snd <$> transitionRunState
          ((db.setAttempt i closed).setTurn attempt.turn .cancelled).cancelRounds .cancelled
      else if db.state ≠ .pausing ∧ failure.retryable ∧ known = none ∧ attempt.attempt_number <
          min c.maxAttempts c.debate.stopping_policy.provider_failure_threshold then
        return queueReplacementAttempt db i attempt
      else
        let closed := attempt.close .dead_letter (reservation.afterFailure known ambiguous .retain)
        Prod.snd <$> transitionRunState
          ((db.setAttempt i closed).setTurn attempt.turn .failed) .paused
    else .ok db

end Norns.Debates
