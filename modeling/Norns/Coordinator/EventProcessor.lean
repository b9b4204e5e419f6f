import Norns.Coordinator.Budget

/-! # The event processor

`Phase4EventProcessor.apply` (`phase4EventProcessor.ts`): one event of a runner, applied in one
transaction. The branches work on the locked rows of the run and of its task, `Scope`; `apply` looks
the rows up, checks the fences and writes the row of the event.

Waits, pauses, knowledge and usage have tables of their own. What the processor finds there is
`Elsewhere`, one answer for each of its checks; it is an input of every event. -/

namespace Norns.Coordinator

open Norns.Lib Norns.Lib.Transaction Norns.Contracts.Protocol Norns.Contracts.V2Lifecycle

/-- What the processor finds in the tables that are not modelled. -/
structure Elsewhere where
  /-- the transport identity is authorized for the runner and for the run -/
  authorized : Bool
  /-- `hasQueuedPause`: a pause of the run waits for its terminal acknowledgement -/
  queuedPause : Bool
  /-- the command published a checkpoint before the acknowledgement and its reservation is active -/
  checkpoint : Bool
  /-- every queued pause could be applied to the checkpoint -/
  pauseReceipts : Bool
  /-- the evidence of an opened wait is complete -/
  humanWait : Bool
  /-- the receipt of a continuation matches its command -/
  continuation : Bool
  /-- the directions and the pause context of the command could be applied -/
  directions : Bool
  /-- the knowledge event is accepted -/
  knowledge : Bool
  /-- the usage receipt is accepted -/
  usage : Bool
  /-- the evidence of a Quick Change is complete and its gates are passed -/
  quickCompletion : Bool
  /-- `reconcileRunUsage` -/
  cost_usd : ℕ
  deriving DecidableEq, Repr

/-! ### Texts -/

/-- `String.prototype.trim` strips white space and line terminators. -/
def isTrimmed (c : Char) : Bool :=
  (9 ≤ c.toNat && c.toNat ≤ 13) || (0x2000 ≤ c.toNat && c.toNat ≤ 0x200a) ||
    [0x20, 0xa0, 0x1680, 0x2028, 0x2029, 0x202f, 0x205f, 0x3000, 0xfeff].contains c.toNat

def trim (s : String) : String :=
  .ofList ((((s.toList.dropWhile isTrimmed).reverse).dropWhile isTrimmed).reverse)

/-- The failure that a `failed` or `cancelled` report stands for. -/
def failureOf (cancelled : Bool) (failure : Option RunFailure) : RunFailure :=
  if cancelled then ⟨"cancellation", "runner_cancelled", "runner reported cancelled"⟩
  else failure.getD ⟨"unknown", "runner_failed", "runner reported failed"⟩

/-- The command states that end an attempt without success. -/
inductive EndState
  | failed | rejected | expired | cancelled
  deriving DecidableEq, Repr

def EndState.text : EndState → String
  | .failed => "failed"
  | .rejected => "rejected"
  | .expired => "expired"
  | .cancelled => "cancelled"

/-- `["failed", "rejected", "expired", "cancelled"].includes(state)` -/
def EndState.of? : CommandState → Option EndState
  | .failed => some .failed
  | .rejected => some .rejected
  | .expired => some .expired
  | .cancelled => some .cancelled
  | _ => none

/-- The terminal states for which usage is settled. -/
def Terminal.of? : CommandState → Option Terminal
  | .succeeded => some .succeeded
  | .failed => some .failed
  | .rejected => some .rejected
  | .expired => some .expired
  | .cancelled => some .cancelled
  | _ => none

/-! ### The branches -/

namespace Scope

/-- `run_status started` -/
def started (s : Scope) (occurred_at : ℕ) : Except Abort Scope := do
  let s ← (if s.run.state = .dispatched then s.transitionRun .running occurred_at else pure s)
  if s.task.state = .assigned then s.transitionTask .in_progress else pure s

/-- `verification_result` -/
def verificationResult (s : Scope) (commit_sha : String) (passed : Bool) (occurred_at : ℕ) :
    Except Abort Scope := do
  let s ← (if s.run.state = .running then s.transitionRun .verifying occurred_at else pure s)
  let s ← (if s.task.state = .in_progress then s.transitionTask .verifying else pure s)
  pure { s with run := { s.run with
    commit_sha := some commit_sha
    verification_status := if passed then .passed else .failed } }

/-- `openHumanWait` -/
def openHumanWait (s : Scope) (evidence : Bool) (occurred_at : ℕ) : Except Abort Scope := do
  refuse (s.run.state ≠ .running ∨ s.task.state ≠ .in_progress)
    (.rejected "human wait can open only from an actively running task")
  refuse (evidence = false) (.rejected
    "human wait requires an active execution PM conversation and budget reservation")
  let s ← s.transitionRun .waiting_for_human occurred_at
  s.transitionTask .blocked

/-- `applyContinuationContext` -/
def applyContinuationContext (s : Scope) (receipt : Bool) : Except Abort Scope := do
  refuse (s.run.state ≠ .running ∨ s.task.state ≠ .in_progress)
    (.rejected "continuation context can be applied only after the resumed run starts")
  refuse (receipt = false)
    (.rejected "continuation context receipt is not bound to this run and command")
  pure s

/-- `completeQuickChange` -/
def completeQuickChange (s : Scope) (gates : Bool) : Except Abort Scope := do
  refuse (gates = false) (.rejected
    "Quick Change completion requires verification, publication, and handoff for the same commit")
  s.transitionTask .completed

/-- The task of a green run is ready for review; a Quick Change is complete. -/
def reviewReady (s : Scope) (gates : Bool) : Except Abort Scope := do
  let s ← (if s.task.state = .verifying then s.transitionTask .in_review else pure s)
  if s.quick && s.task.state = .in_review then s.completeQuickChange gates else pure s

/-- `run_status completed` -/
def completed (s : Scope) (gates : Bool) (occurred_at : ℕ) : Except Abort Scope := do
  refuse (s.run.verification_status ≠ .passed)
    (.rejected "run completion requires green verification")
  let s ← (if s.run.state = .verifying then s.transitionRun .succeeded occurred_at else pure s)
  let s ← s.reviewReady gates
  pure { s with run := { s.run with finished_at := some occurred_at } }

/-- A task that has not begun fails through `blocked`. -/
def failTask (s : Scope) : Except Abort Scope := do
  let s ← (if s.task.state = .pending ∨ s.task.state = .ready ∨ s.task.state = .assigned then
      s.transitionTask .blocked
    else pure s)
  s.transitionTask .failed

/-- The failure record of the run. -/
def recordFailure (s : Scope) (failure : RunFailure) (occurred_at : ℕ) : Scope :=
  { s with run := { s.run with
      failure_code := some failure.code
      failure_detail := some (failure.stage ++ ": " ++ failure.detail)
      finished_at := some occurred_at } }

/-- `run_status failed`, `run_status cancelled` -/
def ended (s : Scope) (cancelled : Bool) (failure : Option RunFailure) (occurred_at : ℕ) :
    Except Abort Scope := do
  let s ← (if s.run.state.isTerminal then pure s
    else s.transitionRun (if cancelled then .cancelled else .failed) occurred_at)
  let s ← (if s.task.state = .completed ∨ s.task.state = .cancelled then pure s
    else if cancelled then s.transitionTask .cancelled
    else if s.task.state ≠ .failed then s.failTask
    else pure s)
  pure (s.recordFailure (failureOf cancelled failure) occurred_at)

/-- `applyQueuedPauseAtTerminal`, with what it returns. -/
def applyQueuedPauseAtTerminal (s : Scope) (here : Elsewhere) (occurred_at : ℕ) :
    Except Abort (Bool × Scope) :=
  if here.queuedPause ∧ here.checkpoint ∧
      (s.run.state = .running ∨ s.run.state = .verifying) ∧
      (s.task.state = .in_progress ∨ s.task.state = .verifying) then do
    let s ← s.transitionRun .waiting_for_human occurred_at
    let s ← s.transitionTask .blocked
    refuse (here.pauseReceipts = false)
      (.rejected "terminal pause checkpoint lost its acknowledged action")
    pure (true, s)
  else pure (false, s)

/-- `applyDeferredTerminalStatus`, for the report it found; with what it returns. -/
def applyDeferredTerminalStatus (s : Scope) (status : RunStatus) (failure : Option RunFailure)
    (gates : Bool) (occurred_at : ℕ) : Except Abort (Bool × Scope) :=
  if ¬ (s.run.state = .running ∨ s.run.state = .verifying ∨ s.run.state = .dispatched) ∨
      s.task.state = .completed ∨ s.task.state = .cancelled then pure (false, s)
  else if status = .completed then
    if s.run.verification_status ≠ .passed ∨ s.run.state ≠ .verifying then pure (false, s)
    else do
      let s ← s.transitionRun .succeeded occurred_at
      let s ← s.reviewReady gates
      pure (true, { s with run := { s.run with finished_at := some occurred_at } })
  else do
    let cancelled := decide (status = .cancelled)
    let s ← s.transitionRun (if cancelled then .cancelled else .failed) occurred_at
    let s ← (if cancelled then s.transitionTask .cancelled
      else if s.task.state ≠ .failed then s.failTask
      else pure s)
    pure (true, s.recordFailure (failureOf cancelled failure) occurred_at)

/-- The reason in `failure_detail`: the runner's own words, if it has any. -/
def endReason (state : EndState) (detail : String) : String :=
  if trim detail = "" then "command " ++ state.text ++ " before successful completion"
  else trim detail

/-- The state of a run whose command ended before it succeeded. -/
def endTarget (s : Scope) (state : EndState) : V2AgentRunState :=
  if state = .cancelled then .cancelled
  else if state = .expired ∨ s.run.state = .created then .expired
  else .failed

/-- The run of a command that ended before it succeeded. -/
def endRun (s : Scope) (state : EndState) (detail : String) (occurred_at : ℕ) :
    Except Abort Scope :=
  if s.run.state.isTerminal then pure s
  else do
    let s ← s.transitionRun (s.endTarget state) occurred_at
    pure { s with run := { s.run with
      failure_code := s.run.failure_code.orElse fun _ => some ("runner_command_" ++ state.text)
      failure_detail := s.run.failure_detail.orElse fun _ => some (endReason state detail)
      finished_at := s.run.finished_at.orElse fun _ => some occurred_at } }

/-- The run and the task of a command that ended before it succeeded. -/
def endedByCommand (s : Scope) (state : EndState) (detail : String) (occurred_at : ℕ) :
    Except Abort Scope := do
  let s ← s.endRun state detail occurred_at
  if s.task.state = .completed ∨ s.task.state = .failed ∨ s.task.state = .cancelled then pure s
  else s.transitionTask (if state = .cancelled then .cancelled else .blocked)

/-- `applyDeferredTerminalStatus`, with the lookup of the report. -/
def applyReport (s : Scope) (report : Option RunnerEvent) (gates : Bool) :
    Except Abort (Bool × Scope) :=
  match report with
  | some ⟨_, _, _, _, _, reported_at, .run_status _ status failure⟩ =>
    s.applyDeferredTerminalStatus status failure gates reported_at
  | _ => pure (false, s)

/-- The terminal acknowledgement of a command, with whether the usage is settled. `report` is the
terminal report that came with the command before. -/
def endCommand (s : Scope) (report : Option RunnerEvent) (state : CommandState) (detail : String)
    (here : Elsewhere) (occurred_at : ℕ) : Except Abort (Bool × Scope) := do
  let (pauseApplied, s) ← s.applyQueuedPauseAtTerminal here occurred_at
  if pauseApplied then pure (false, s)
  else do
    let (deferredTerminalApplied, s) ← s.applyReport report here.quickCompletion
    if deferredTerminalApplied then pure (true, s)
    else
      match EndState.of? state with
      | some state => (true, ·) <$> s.endedByCommand state detail occurred_at
      | none => pure (true, s)

end Scope

/-! ### The tables around them -/

namespace Database

/-- The row of an applied event. -/
def record (db : Database) (event : RunnerEvent) (run_id : Option String) : Database :=
  { db with runner_events := db.runner_events.set event.key ⟨run_id, event⟩ }

/-- The job of a finished command. -/
def completeJob (db : Database) (command_id : String) : Database :=
  { db with dispatch_jobs := db.dispatch_jobs.mapValues fun job =>
      if job.command_id = command_id ∧ (job.status = .delivered ∨ job.status = .completed) then
        { job with status := .completed }
      else job }

/-- A terminal report of the run that came with the command before the acknowledgement. -/
def isDeferred (ack : RunnerEvent) (command_id run_id : String) (row : RunnerEventRow) : Bool :=
  decide (row.run_id = some run_id ∧ row.event.runner_id = ack.runner_id ∧
    row.event.generation = ack.generation ∧ row.event.event_seq < ack.event_seq ∧
    row.event.causation_id = some command_id) &&
  match row.event.payload with
  | .run_status _ status _ => [RunStatus.completed, .failed, .cancelled].contains status
  | _ => false

/-- The latest of them. -/
def deferredReport (db : Database) (ack : RunnerEvent) (command_id run_id : String) :
    Option RunnerEvent :=
  (db.runner_events.values.filter (isDeferred ack command_id run_id)).foldl
    (fun best row => match best with
      | none => some row.event
      | some event => if event.event_seq < row.event.event_seq then some row.event else some event)
    none

/-- The terminal acknowledgement, on the run and its task. -/
def endCommand (db : Database) (event : RunnerEvent) (command_id run_id : String)
    (state : CommandState) (terminal : Terminal) (detail : String) (here : Elsewhere) :
    Except Abort Database :=
  match db.scope? run_id with
  | none => db.settleTerminalUsage run_id terminal here.cost_usd
  | some s => do
    let (settles, s) ← s.endCommand (db.deferredReport event command_id run_id) state detail here
      event.occurred_at
    if settles then (db.putScope run_id s).settleTerminalUsage run_id terminal here.cost_usd
    else return db.putScope run_id s

/-- The status and the job after an acknowledgement. -/
def acknowledge (db : Database) (command_id : String) (state : CommandState) : Database :=
  if state.isTerminal then (db.setCommandStatus command_id (.state state)).completeJob command_id
  else db.setCommandStatus command_id (.state state)

/-- The command takes acknowledgements like this one. -/
def Accepts (row : CommandRow) (event : RunnerEvent) (command_id : String) : Prop :=
  row.runner_generation = event.generation ∧ row.runner_id = event.runner_id ∧
    event.causation_id = some command_id ∧ event.correlation_id = row.correlation_id

instance (row : CommandRow) (event : RunnerEvent) (command_id : String) :
    Decidable (Accepts row event command_id) :=
  inferInstanceAs (Decidable (_ ∧ _))

/-- `command_ack` -/
def applyCommandAck (db : Database) (event : RunnerEvent) (command_id : String)
    (state : CommandState) (detail : String) (row : CommandRow) (here : Elsewhere) :
    Except Abort Database := do
  refuse (¬ Accepts row event command_id)
    (.rejected "command acknowledgement is fenced or unknown")
  let db ← (match row.kind, Terminal.of? state with
    | .launch_run, some terminal => (db.acknowledge command_id state).endCommand event command_id
        row.run_id state terminal detail here
    | _, _ => pure (db.acknowledge command_id state))
  pure (db.record event (some row.run_id))

/-- The run that an event is about. -/
def runOf (db : Database) : Payload → Option String
  | .run_log run_id | .run_status run_id .. | .run_published run_id | .usage_report run_id
  | .runtime_result run_id | .human_wait_requested run_id | .continuation_context_applied run_id
  | .knowledge run_id => some run_id
  | .verification_result node_id _ _ => (db.tasks.get? node_id).bind (·.designated_run_id)
  | .heartbeat | .command_ack .. => none

/-- The generation of the command behind an event: the one it names, else the latest of the run. -/
def commandGeneration (db : Database) (run_id : String) (causation_id : Option String) : Option ℕ :=
  ((db.commands.entries.filter fun e => decide (e.2.run_id = run_id) &&
    match causation_id with
    | none => true
    | some id => decide (e.1 = id)).getLast?).map (·.2.runner_generation)

/-- The scope after a report of the run; with the terminal state to settle. -/
def reportOnScope (s : Scope) (event : RunnerEvent) (here : Elsewhere) :
    Except Abort (Scope × Option Terminal) :=
  match event.payload with
  | .knowledge _ => do
    refuse (here.knowledge = false) (.rejected "knowledge event was not accepted")
    pure (s, none)
  | .run_status _ .started _ => do
    let s ← s.started event.occurred_at
    refuse (event.causation_id.isSome ∧ here.directions = false)
      (.rejected "checkpoint direction could not be applied")
    pure (s, none)
  | .usage_report _ | .runtime_result _ => do
    refuse (event.causation_id = none ∨ here.usage = false)
      (.rejected "usage report command scope is invalid")
    pure (s, none)
  | .human_wait_requested _ => (·, none) <$> s.openHumanWait here.humanWait event.occurred_at
  | .continuation_context_applied _ => do
    let s ← s.applyContinuationContext here.continuation
    refuse (event.causation_id.isSome ∧ here.directions = false)
      (.rejected "checkpoint direction could not be applied")
    pure (s, none)
  | .verification_result _ commit_sha passed =>
    (·, none) <$> s.verificationResult commit_sha passed event.occurred_at
  | .run_status _ .completed _ =>
    if here.queuedPause then pure (s, none)
    else (·, some .succeeded) <$> s.completed here.quickCompletion event.occurred_at
  | .run_status _ .failed failure =>
    if here.queuedPause then pure (s, none)
    else (·, some .failed) <$> s.ended false failure event.occurred_at
  | .run_status _ .cancelled failure =>
    if here.queuedPause then pure (s, none)
    else (·, some .cancelled) <$> s.ended true failure event.occurred_at
  | _ => pure (s, none)

/-- Every event that is no acknowledgement, on its run. -/
def applyRunEvent (db : Database) (event : RunnerEvent) (run_id : String) (s : Scope)
    (here : Elsewhere) : Except Abort Database := do
  refuse (s.run.runner_id ≠ event.runner_id)
    (.rejected "runner event does not match its designated run")
  refuse (db.commandGeneration run_id event.causation_id ≠ some event.generation)
    (.rejected "runner event generation is fenced")
  let (s, terminal) ← reportOnScope s event here
  let db ← (match terminal with
    | some terminal => (db.putScope run_id s).settleTerminalUsage run_id terminal here.cost_usd
    | none => pure (db.putScope run_id s))
  pure (db.record event (some run_id))

inductive Reply
  | applied | duplicate | ignored
  deriving DecidableEq, Repr

/-- `apply` -/
def apply (db : Database) (event : RunnerEvent) (here : Elsewhere) :
    Except Abort (Reply × Database) := do
  refuse (here.authorized = false)
    (.rejected "runner identity is no longer authorized for event ingestion")
  refuse ((db.runner_revocations.get? event.runner_id).any (event.generation ≤ ·))
    (.rejected "runner generation is revoked")
  if db.runner_events.has event.key then pure (.duplicate, db)
  else
    match event.payload with
    | .heartbeat | .run_log _ => pure (.applied, db.record event none)
    | .command_ack command_id state detail =>
      match db.commands.get? command_id with
      | none => pure (.ignored, db)
      | some row => (.applied, ·) <$> db.applyCommandAck event command_id state detail row here
    | payload =>
      match (db.runOf payload).bind fun run_id => (db.scope? run_id).map (run_id, ·) with
      | none => pure (.ignored, db)
      | some (run_id, s) => (.applied, ·) <$> db.applyRunEvent event run_id s here

end Database

end Norns.Coordinator
