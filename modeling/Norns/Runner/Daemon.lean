import Norns.Runner.State

/-! # The runner daemon

The methods of `RunnerDaemon` (`runner/src/daemon.ts`) that emit events, acknowledge commands and
execute them. Executors are outside: `startExecutor` starts one, and what its promise settles with
comes back as a `Settlement`. An `Action` is one callback of the process, with the clock and the tick
at which the process crashes in it; after a crash the daemon runs again from its file. -/

namespace Norns.Runner

open Norns.Lib Norns.Contracts.Protocol

/-- What the daemon was built with. -/
structure DaemonOptions where
  executeV2 : Bool
  collectVisualEvidence : Bool
  redact : String → String

/-! ### Sending and emitting -/

/-- `RUNNER_EVENT_SEND_WINDOW` -/
def sendWindow : ℕ := 32

/-- The buffered events that the window has room for. -/
def RunnerDaemon.sendable (r : RunnerDaemon) : List EventEnvelope :=
  ((r.file.unackedSince r.serverAckSeq).filter
    fun e => decide (r.highestEventSeqSent < e.event_seq)).take
      (sendWindow - (r.highestEventSeqSent - r.serverAckSeq))

def RunnerDaemon.sendEvent (r : RunnerDaemon) (event : EventEnvelope) : RunnerDaemon :=
  { r with outbox := r.outbox ++ [event], highestEventSeqSent := event.event_seq }

def RunnerDaemon.sendBufferedEvents (r : RunnerDaemon) : RunnerDaemon :=
  if r.connected ∧ ¬ r.fenced then r.sendable.foldl RunnerDaemon.sendEvent r else r

/-- Nothing secret is buffered. -/
def DaemonOptions.safePayload (opts : DaemonOptions) : EventPayload → EventPayload
  | .run (.run_log run_id chunk) => .run (.run_log run_id (opts.redact chunk))
  | payload => payload

section Methods

variable (opts : DaemonOptions)

/-- Buffer durably, then send if connected. -/
def emit (payload : EventPayload) (info : Meta) : Run Unit := do
  if (← get).fenced then return ()
  else do
    let seq ← nextSeq
    bufferEvent ((← get).envelope seq (opts.safePayload payload) info)
    modify RunnerDaemon.sendBufferedEvents

def emitAll : List (RunEvent × Meta) → Run Unit
  | [] => return ()
  | (event, info) :: rest => do
    emit opts (.run event) info
    emitAll rest

/-- Only a new event needs sending here. -/
def terminalAck (commandId : String) (state : CommandState) (info : Meta) (detail : String) :
    Run Unit := do
  if (← get).fenced then return ()
  else do
    let created ← ensureTerminalAck commandId state info detail
    if created then modify RunnerDaemon.sendBufferedEvents else return ()

def ack (commandId : String) (state : CommandState) (info : Meta) (detail : String) : Run Unit :=
  if state.isTerminal then terminalAck commandId state info detail
  else emit opts (.command_ack commandId state detail) info

/-- A command state recorded and acknowledged. -/
def conclude (commandId : String) (state : CommandState) (info : Meta) (detail : String) :
    Run Unit := do
  recordExecution commandId state
  ack opts commandId state info detail

/-- A newer generation owns the runner id, or this one is not it. -/
def fenceInstallation : Run Unit :=
  modify fun r => if r.fenced then r else
    { r with fenced := true, executionPaused := true, connected := false }

/-! ### Commands -/

/-- The payloads that the local emergency stop refuses. -/
def dispatchesWork : CommandPayload → Bool
  | .launch_fixture _ | .launch_run _ _ | .collect_visual_evidence _ | .run_verification _ _ => true
  | .control _ _ _ => false

/-- What the fixture executor emits before `launch` returns. -/
def fixtureEvents (runId fixture : String) (info : Meta) : List (RunEvent × Meta) :=
  if fixture.startsWith "leak:" then
    [(.run_status runId .started, info),
      (.run_log runId ("credential dump: " ++ (fixture.drop 5).toString), info),
      (.run_status runId .completed, info)]
  else [(.run_status runId .started, info)]

/-- Hand the command to its executor, which may leave a promise. -/
def startExecutor (commandId : String) (promise : Option Pending) : Run Unit :=
  write fun r => { r with
    started := r.started ++ [commandId]
    pending := r.pending ++ promise.toList }

/-- The payload switch of `handleCommand`, for an accepted command. -/
def execute (commandId : String) (info : Meta) : CommandPayload → Run Unit
  | .launch_fixture fixture => do
    ack opts commandId .executing info ""
    startExecutor commandId none
    emitAll opts (fixtureEvents ("run_" ++ commandId) fixture info)
    conclude opts commandId .succeeded info ""
  | .launch_run _ dispatch =>
    match dispatch, opts.executeV2 with
    | some run_id, true => do
      ack opts commandId .executing info ""
      startExecutor commandId (some (.launch commandId run_id info))
    | _, _ => conclude opts commandId .rejected info "this runner cannot execute a V2 dispatch"
  | .collect_visual_evidence _ =>
    if opts.collectVisualEvidence then do
      ack opts commandId .executing info ""
      startExecutor commandId (some (.collect commandId info))
    else conclude opts commandId .rejected info "this runner cannot collect visual evidence"
  | .control kind run_id _ => startExecutor commandId (some (.control commandId kind run_id info))
  | .run_verification _ _ =>
    conclude opts commandId .rejected info "run_verification is not implemented here"

/-- At-least-once delivery, idempotent execution: a command seen before is acknowledged again with
its recorded state. -/
def handleCommand (command : CommandEnvelope) : Run Unit := do
  let r ← get
  let id := command.command_id
  let info : Meta := ⟨some command.correlation_id, some id⟩
  if command.runner_id ≠ r.file.runner_id ∨ command.generation ≠ r.file.generation then
    fenceInstallation
  else match r.file.executionState id with
    | some recorded =>
      if recorded.isTerminal then
        terminalAck id recorded info
          "recovered terminal acknowledgement from durable execution state"
      else ack opts id recorded info ""
    | none =>
      if isCommandExpired command r.now then conclude opts id .expired info ""
      else if r.executionPaused ∧ dispatchesWork command.payload then
        conclude opts id .rejected info
          "local emergency stop is engaged; restart the daemon before dispatching work"
      else do
        recordExecution id .executing
        modify fun r => { r with inFlightCommands := r.inFlightCommands ++ [id] }
        ack opts id .accepted info ""
        execute opts id info command.payload

def handleCommands : List CommandEnvelope → Run Unit
  | [] => return ()
  | command :: rest => do
    handleCommand opts command
    handleCommands rest

/-! ### Settlements -/

inductive RunOutcome
  | succeeded | waiting_for_human | failed | cancelled
  deriving DecidableEq, Repr

def RunOutcome.state : RunOutcome → CommandState
  | .succeeded => .succeeded
  | .waiting_for_human => .waiting_for_human
  | .failed => .failed
  | .cancelled => .cancelled

/-- What a control meets. -/
inductive ControlAnswer
  /-- The live registry knows the run: `LiveControlOutcome`. -/
  | live (applied succeeded : Bool) (detail : String)
  /-- Neither the registry nor the fixture executor knows the run. -/
  | inactive
  /-- A fixture run; the status it reports, if any, in the name of its launch. -/
  | fixture (status : Option RunStatus) (launchInfo : Meta)
  | thrown (message : String)
  deriving DecidableEq, Repr

/-- The end of a promise. -/
inductive Settlement
  | launch (commandId runId : String) (info : Meta) (result : Except String RunOutcome)
  | collect (commandId : String) (info : Meta) (result : Except String Unit)
  | control (commandId : String) (kind : LiveControlKind) (runId : String) (info : Meta)
      (answer : ControlAnswer)

def Settlement.promise : Settlement → Pending
  | .launch id runId info _ => .launch id runId info
  | .collect id info _ => .collect id info
  | .control id kind runId info _ => .control id kind runId info

/-- `settle` of `routeControl`: a refusal skips `executing`. -/
def settle (commandId runId : String) (info : Meta) (state : CommandState) (detail : String)
    (visible : Bool) : Run Unit := do
  emitAll opts (if visible then [(.run_log runId detail, info)] else [])
  if state = .rejected then conclude opts commandId state info detail
  else do
    ack opts commandId .executing info ""
    conclude opts commandId state info detail

def routeControl (commandId : String) (kind : LiveControlKind) (runId : String) (info : Meta) :
    ControlAnswer → Run Unit
  | .live applied succeeded detail =>
    settle opts commandId runId info (if succeeded then .succeeded else .rejected) detail (!applied)
  | .inactive =>
    settle opts commandId runId info .rejected ("run " ++ runId ++ " is not running on this runner")
      false
  | .fixture status launchInfo =>
    if kind = .send_message then
      settle opts commandId runId info .rejected "the fixture executor cannot receive a message" true
    else do
      emitAll opts (status.toList.map fun s => (.run_status runId s, launchInfo))
      settle opts commandId runId info .succeeded "" false
  | .thrown message =>
    settle opts commandId runId info .failed
      ("the " ++ kind.text ++ " could not be applied to run " ++ runId ++ ": " ++ message) true

/-- The callbacks of a promise. -/
def settlePromise : Settlement → Run Unit
  | .launch id runId info result => do
    modify fun r => { r with inFlightCommands := r.inFlightCommands.filter (· ≠ id) }
    match result with
    | .ok outcome => conclude opts id outcome.state info ""
    | .error message => do
      emit opts (.run (.run_log runId ("runner execution failed: " ++ message))) info
      conclude opts id .failed info ""
  | .collect id info result =>
    match result with
    | .ok _ => conclude opts id .succeeded info ""
    | .error message => conclude opts id .failed info message
  | .control id kind runId info answer => routeControl opts id kind runId info answer

/-! ### Frames from the server -/

def recoverTerminalAcks : List (String × CommandState) → Run Unit
  | [] => return ()
  | (id, state) :: rest => do
    terminalAck id state ⟨none, some id⟩
      "recovered terminal acknowledgement from durable execution state"
    recoverTerminalAcks rest

/-- Fail every command whose process is gone. -/
def reap : List String → Run Unit
  | [] => return ()
  | id :: rest => do
    recordExecution id .failed
    terminalAck id .failed ⟨none, some id⟩
      "runner restarted; the execution process was lost before it reported a result"
    reap rest

def handleReconcileResponse (response : ReconcileResponse) : Run Unit := do
  if response.generation ≠ (← get).file.generation then fenceInstallation
  else do
    modify fun r => { r with
      serverAckSeq := response.ack_event_seq
      acked := max r.acked response.ack_event_seq }
    pruneAcked response.ack_event_seq
    modify fun r => { r with highestEventSeqSent := response.ack_event_seq }
    modify RunnerDaemon.sendBufferedEvents
    recoverTerminalAcks (← get).file.terminalExecutions
    let r ← get
    reap (r.file.orphanedExecutingIds r.inFlightCommands)
    modify fun r => { r with reconciled := true }
    handleCommands opts response.resend_commands

def handleEventAcknowledgement (eventSequence : ℕ) : Run Unit := do
  modify fun r => { r with
    serverAckSeq := max r.serverAckSeq eventSequence
    acked := max r.acked eventSequence }
  pruneAcked (← get).serverAckSeq
  modify fun r => { r with highestEventSeqSent := max r.highestEventSeqSent r.serverAckSeq }
  modify RunnerDaemon.sendBufferedEvents

/-! ### The process -/

inductive Op
  /-- A heartbeat, or an event of an executor. -/
  | emit (event : RunEvent) (info : Meta)
  | command (command : CommandEnvelope)
  | reconcile_response (response : ReconcileResponse)
  | event_ack (eventSequence : ℕ)
  | fenced
  | settled (settlement : Settlement)
  /-- A legacy socket opens. -/
  | connect
  | disconnect
  /-- The device channel is authenticated. -/
  | authenticateDeviceExecution
  | start
  /-- With the runs that the fixture executor cancels. -/
  | emergencyStop (cancelled : List (String × Meta))
  | crash

def perform : Op → Run Unit
  | .emit event info => emit opts (.run event) info
  | .command command => handleCommand opts command
  | .reconcile_response response => handleReconcileResponse opts response
  | .event_ack eventSequence => handleEventAcknowledgement eventSequence
  | .fenced => fenceInstallation
  | .settled settlement => do
    if settlement.promise ∈ (← get).pending then do
      modify fun r => { r with pending := r.pending.erase settlement.promise }
      settlePromise opts settlement
    else return ()
  | .connect => modify fun r =>
    if r.fenced ∨ r.connected then r else { r with connected := true, outbox := [] }
  | .disconnect => modify fun r =>
    { r with connected := false, highestEventSeqSent := r.serverAckSeq, outbox := [] }
  | .authenticateDeviceExecution => modify fun r =>
    if r.fenced then r else
      { r with connected := true, serverAckSeq := 0, highestEventSeqSent := 0, outbox := [] }
  | .start => modify fun r => if r.fenced then r else { r with executionPaused := false }
  | .emergencyStop cancelled => do
    modify fun r => { r with executionPaused := true }
    emitAll opts (cancelled.map fun c => (.run_status c.1 .cancelled, c.2))
  | .crash => throw .crash

/-- One callback of the process. -/
structure Action where
  op : Op
  now : ℕ
  /-- The tick of the callback at which the process crashes, if it does. -/
  crashIn : Option ℕ

/-- The callback up to its end or its crash. -/
def callback (r : RunnerDaemon) (a : Action) : EStateM.Result Stop RunnerDaemon Unit :=
  perform opts a.op { r with now := a.now, crashIn := a.crashIn }

/-- A crashed process starts again. -/
def step (r : RunnerDaemon) (a : Action) : RunnerDaemon :=
  match callback opts r a with
  | .ok _ r' => r'
  | .error _ r' => restart r'

end Methods

end Norns.Runner
