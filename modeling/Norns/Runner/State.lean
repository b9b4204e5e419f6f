import Norns.Contracts.Protocol
import Norns.Lib.Edit
import Norns.Lib.OrdMap

/-! # The runner and its state file

`RunnerStateFile` of `runner/src/state.ts`: the sequence counter, the buffer of events the server has
not acknowledged, the recorded state of every command and the tombstones of terminal
acknowledgements. Every change is written to disk before the next step, so the file is the state
itself; what a crash can separate are two writes.

A method of the daemon is a `Run`, which a crash may stop: `tick` stands before every write and every
start of an executor, and the crash strikes at the tick that `crashIn` counts down to. -/

namespace Norns.Runner

open Norns.Lib Norns.Contracts.Protocol

/-- `RunnerPersistedState` -/
structure RunnerFile where
  runner_id : String
  generation : ℕ
  seq : ℕ
  /-- Events not yet acknowledged by the server. -/
  buffer : List EventEnvelope
  /-- Command id ↦ last recorded state. -/
  executed : OrdMap String CommandState
  /-- Command id ↦ sequence of its terminal acknowledgement. -/
  terminal_acks : OrdMap String ℕ
  deriving DecidableEq

/-- Correlation and causation of an event. -/
structure Meta where
  correlation : Option String := none
  causation : Option String := none
  deriving DecidableEq, Repr

/-- A promise of the running process that will settle a command. -/
inductive Pending
  | launch (command_id : String) (run_id : String) (info : Meta)
  | collect (command_id : String) (info : Meta)
  | control (command_id : String) (kind : LiveControlKind) (run_id : String) (info : Meta)
  deriving DecidableEq, Repr

def Pending.commandId : Pending → String
  | .launch id _ _ | .collect id _ | .control id _ _ _ => id

structure RunnerDaemon where
  file : RunnerFile
  -- of the process
  connected : Bool
  fenced : Bool
  executionPaused : Bool
  serverAckSeq : ℕ
  highestEventSeqSent : ℕ
  inFlightCommands : List String
  pending : List Pending
  /-- The events put on the current connection. -/
  outbox : List EventEnvelope
  now : ℕ
  -- of the observer
  /-- How many ticks the process has left before it crashes. -/
  crashIn : Option ℕ
  /-- The highest sequence a server has acknowledged. -/
  acked : ℕ
  /-- Every event ever buffered. -/
  created : List EventEnvelope
  /-- The commands whose executor was started, in order. -/
  started : List String
  /-- Every write of a command state, in order. -/
  recorded : List (String × CommandState)
  /-- A sequence was allocated and its event is not buffered yet. -/
  allocated : Bool
  /-- This process has reconciled with the server. -/
  reconciled : Bool
  deriving DecidableEq

inductive Stop
  | crash
  deriving DecidableEq, Repr

/-- A method of the runner. -/
abbrev Run (α : Type) := EStateM Stop RunnerDaemon α

/-- A point at which the process may crash. -/
def tick : Run Unit := do
  match (← get).crashIn with
  | some 0 => throw .crash
  | some (n + 1) => modify fun r => { r with crashIn := some n }
  | none => return ()

/-- One write of the state file, and what the observer notes with it. -/
def write (f : RunnerDaemon → RunnerDaemon) : Run Unit := do
  tick
  modify f

/-! ### The state file -/

/-- The buffered events after `ackSeq`. -/
def RunnerFile.unackedSince (file : RunnerFile) (ackSeq : ℕ) : List EventEnvelope :=
  file.buffer.filter fun e => decide (ackSeq < e.event_seq)

def RunnerFile.executionState (file : RunnerFile) (commandId : String) : Option CommandState :=
  file.executed.get? commandId

def RunnerFile.executedIds (file : RunnerFile) : List String := file.executed.keys

def RunnerFile.terminalExecutions (file : RunnerFile) : List (String × CommandState) :=
  file.executed.entries.filter fun e => e.2.isTerminal

/-- Commands recorded as executing that are not live in the given set. -/
def RunnerFile.orphanedExecutingIds (file : RunnerFile) (live : List String) : List String :=
  (file.executed.entries.filter fun e => decide (e.2 = .executing ∧ e.1 ∉ live)).map Prod.fst

/-- The buffered terminal acknowledgement of a command. -/
def RunnerFile.bufferedTerminalAck (file : RunnerFile) (commandId : String) :
    Option EventEnvelope :=
  file.buffer.find? fun e => decide ((e.terminalAck?.map Prod.fst) = some commandId)

/-! ### Its writes -/

def RunnerDaemon.allocateSeq (r : RunnerDaemon) : RunnerDaemon :=
  { r with file := { r.file with seq := r.file.seq + 1 }, allocated := true }

def RunnerDaemon.addEvent (r : RunnerDaemon) (event : EventEnvelope) : RunnerDaemon :=
  { r with
    file := { r.file with buffer := r.file.buffer ++ [event] }
    created := r.created ++ [event]
    allocated := false }

def RunnerDaemon.prune (r : RunnerDaemon) (ackSeq : ℕ) : RunnerDaemon :=
  { r with file := { r.file with buffer := r.file.unackedSince ackSeq } }

def RunnerDaemon.record (r : RunnerDaemon) (commandId : String) (state : CommandState) :
    RunnerDaemon :=
  { r with
    file := { r.file with executed := r.file.executed.set commandId state }
    recorded := r.recorded ++ [(commandId, state)] }

/-- The tombstone of an acknowledgement. -/
def RunnerDaemon.entomb (r : RunnerDaemon) (commandId : String) (event_seq : ℕ) : RunnerDaemon :=
  { r with file := { r.file with terminal_acks := r.file.terminal_acks.set commandId event_seq } }

/-- An event of this runner. -/
def RunnerDaemon.envelope (r : RunnerDaemon) (event_seq : ℕ) (payload : EventPayload)
    (info : Meta) : EventEnvelope where
  event_seq := event_seq
  runner_id := r.file.runner_id
  generation := r.file.generation
  correlation_id := info.correlation.getD ("runner:" ++ r.file.runner_id)
  causation_id := info.causation
  occurred_at := r.now
  payload := payload

/-- Sequence, event and tombstone of a terminal acknowledgement, in one write. -/
def RunnerDaemon.addTerminalAck (r : RunnerDaemon) (commandId : String) (state : CommandState)
    (info : Meta) (detail : String) : RunnerDaemon :=
  let event := r.envelope (r.file.seq + 1) (.command_ack commandId state detail) info
  { r with
    file := { r.file with
      seq := event.event_seq
      buffer := r.file.buffer ++ [event]
      terminal_acks := r.file.terminal_acks.set commandId event.event_seq }
    created := r.created ++ [event] }

def nextSeq : Run ℕ := do
  write RunnerDaemon.allocateSeq
  return (← get).file.seq

def bufferEvent (event : EventEnvelope) : Run Unit := write fun r => r.addEvent event

def pruneAcked (ackSeq : ℕ) : Run Unit := do
  let file := (← get).file
  if (file.unackedSince ackSeq).length ≠ file.buffer.length then write fun r => r.prune ackSeq
  else return ()

def recordExecution (commandId : String) (state : CommandState) : Run Unit :=
  write fun r => r.record commandId state

/-- Ensure one durable terminal acknowledgement for a command. Returns whether its event was
created. -/
def ensureTerminalAck (commandId : String) (state : CommandState) (info : Meta) (detail : String) :
    Run Bool := do
  let file := (← get).file
  match file.bufferedTerminalAck commandId, file.terminal_acks.get? commandId with
  | some _, some _ => return false
  | some existing, none => do
    write fun r => r.entomb commandId existing.event_seq
    return false
  | none, some _ => return false
  | none, none => do
    write fun r => r.addTerminalAck commandId state info detail
    return true

/-- The tombstones that a file without the field gets from its buffer. -/
def inferredTerminalAcks (buffer : List EventEnvelope) : OrdMap String ℕ :=
  OrdMap.ofList (buffer.filterMap fun e => e.terminalAck?.map fun a => (a.1, e.event_seq))

/-- A file as found on disk; old ones have no tombstones. -/
structure DiskFile where
  file : RunnerFile
  terminal_acks : Option (OrdMap String ℕ)

/-- `RunnerStateFile` on an existing file. -/
def DiskFile.load (disk : DiskFile) : RunnerFile :=
  { disk.file with
    terminal_acks := disk.terminal_acks.getD (inferredTerminalAcks disk.file.buffer) }

/-- `RunnerStateFile` on an empty directory. -/
def freshFile (runner_id : String) (generation : ℕ) : RunnerFile :=
  ⟨runner_id, generation, 0, [], OrdMap.empty, OrdMap.empty⟩

/-- What the runner has on disk. -/
def RunnerFile.disk (file : RunnerFile) : DiskFile := ⟨file, some file.terminal_acks⟩

/-- A process that has just loaded its file; the observer's notes go on. -/
def restart (r : RunnerDaemon) : RunnerDaemon := { r with
  file := r.file.disk.load
  connected := false
  fenced := false
  executionPaused := false
  serverAckSeq := 0
  highestEventSeqSent := 0
  inFlightCommands := []
  pending := []
  outbox := []
  crashIn := none
  allocated := false
  reconciled := false }

/-- The first process of a newly paired runner. -/
def paired (runner_id : String) (generation : ℕ) : RunnerDaemon where
  file := freshFile runner_id generation
  connected := false
  fenced := false
  executionPaused := false
  serverAckSeq := 0
  highestEventSeqSent := 0
  inFlightCommands := []
  pending := []
  outbox := []
  now := 0
  crashIn := none
  acked := 0
  created := []
  started := []
  recorded := []
  allocated := false
  reconciled := false

end Norns.Runner
