/-! # The runner protocol

The command state machine and the envelopes of `protocol.ts`. Times are milliseconds. Of a payload
only what a modelled function reads is kept. -/

namespace Norns.Contracts.Protocol

/-! ### The command state machine -/

inductive CommandState
  | created | queued | delivered | accepted | executing | waiting_for_human | succeeded | failed
  | rejected | expired | cancelled
  deriving DecidableEq, Repr

/-- `COMMAND_TRANSITIONS` -/
def commandTransitions : CommandState → List CommandState
  | .created => [.queued, .cancelled]
  | .queued => [.delivered, .expired, .cancelled]
  | .delivered => [.accepted, .rejected, .expired, .cancelled]
  | .accepted => [.executing, .rejected, .cancelled]
  | .executing => [.waiting_for_human, .succeeded, .failed, .cancelled]
  | .waiting_for_human | .succeeded | .failed | .rejected | .expired | .cancelled => []

/-- `TERMINAL_COMMAND_STATES` -/
def CommandState.isTerminal : CommandState → Bool
  | .succeeded | .waiting_for_human | .failed | .rejected | .expired | .cancelled => true
  | .created | .queued | .delivered | .accepted | .executing => false

def canCommandTransition (source target : CommandState) : Bool :=
  decide (target ∈ commandTransitions source)

theorem terminal_no_transition {source target : CommandState} (h : source.isTerminal = true) :
    canCommandTransition source target = false := by
  cases source <;> first | rfl | cases h

/-! ### Commands -/

/-- The controls a human can aim at a run in flight. -/
inductive LiveControlKind
  | cancel | interrupt | suspend | resume_session | stop_after_current | send_message
  deriving DecidableEq, Repr

def LiveControlKind.text : LiveControlKind → String
  | .cancel => "cancel"
  | .interrupt => "interrupt"
  | .suspend => "suspend"
  | .resume_session => "resume_session"
  | .stop_after_current => "stop_after_current"
  | .send_message => "send_message"

inductive CommandPayload
  | launch_fixture (fixture : String)
  /-- `dispatch` is the run id of the V2 dispatch, if the payload carries one. -/
  | launch_run (run_id : String) (dispatch : Option String)
  | collect_visual_evidence (run_id : String)
  | control (kind : LiveControlKind) (run_id : String) (message : Option String)
  | run_verification (node_id commit_sha : String)
  deriving DecidableEq, Repr

structure CommandEnvelope where
  command_id : String
  correlation_id : String
  runner_id : String
  generation : Nat
  issued_at : Nat
  expires_at : Nat
  payload : CommandPayload
  deriving DecidableEq, Repr

def isCommandExpired (command : CommandEnvelope) (now : Nat) : Bool :=
  decide (command.expires_at ≤ now)

/-! ### Events -/

inductive RunStatus
  | started | paused | resumed | waiting_for_human | completed | failed | cancelled
  deriving DecidableEq, Repr

/-- What a runner reports about its runs; every payload that is no command acknowledgement. -/
inductive RunEvent
  | heartbeat
  | run_log (run_id chunk : String)
  | run_status (run_id : String) (status : RunStatus)
  | other (kind body : String)
  deriving DecidableEq, Repr

inductive EventPayload
  | command_ack (command_id : String) (state : CommandState) (detail : String)
  | run (event : RunEvent)
  deriving DecidableEq, Repr

structure EventEnvelope where
  event_seq : Nat
  runner_id : String
  generation : Nat
  correlation_id : String
  causation_id : Option String
  occurred_at : Nat
  payload : EventPayload
  deriving DecidableEq, Repr

/-- The command that the payload acknowledges, and the state. -/
def EventPayload.ack? : EventPayload → Option (String × CommandState)
  | .command_ack id state _ => some (id, state)
  | .run _ => none

/-- The command that the event acknowledges with a terminal state, and that state. -/
def EventEnvelope.terminalAck? (e : EventEnvelope) : Option (String × CommandState) :=
  e.payload.ack?.filter fun a => a.2.isTerminal

/-! ### Frames -/

structure ReconcileRequest where
  generation : Nat
  recently_executed_command_ids : List String
  deriving DecidableEq, Repr

structure ReconcileResponse where
  ack_event_seq : Nat
  generation : Nat
  resend_commands : List CommandEnvelope
  deriving DecidableEq, Repr

/-- What a legacy runner sends. -/
inductive RunnerFrame
  /-- `signed` if the signature over the challenge verifies. -/
  | auth (runner_id : String) (generation : Nat) (signed : Bool)
  | reconcile_request (body : ReconcileRequest)
  | event (event : EventEnvelope)
  deriving DecidableEq, Repr

inductive ServerFrame
  | challenge
  | auth_ok
  | auth_error
  | reconcile_response (body : ReconcileResponse)
  | event_ack (ack_event_seq : Nat)
  | command (command : CommandEnvelope)
  | fenced (current_generation : Nat)
  deriving DecidableEq, Repr

/-- The sequence that the frame acknowledges. -/
def ServerFrame.ack? : ServerFrame → Option Nat
  | .reconcile_response body => some body.ack_event_seq
  | .event_ack n => some n
  | _ => none

end Norns.Contracts.Protocol
