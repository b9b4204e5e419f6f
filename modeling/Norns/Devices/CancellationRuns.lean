import Norns.Devices.Cancellation
import Norns.Runner.JournalWrites
import Norns.Runner.LiveRuns

/-! # Cancellation across the wire

The server's cancellations (`devices/cancellation.ts`, `onlineControl.ts`, and the evidence branch of `server.ts`)
and the devices (`deviceControlConnection.ts`, with its journal and the daemon's registry of live runs). A frame
that was sent may be delivered at any time, again and again, or never; processes start and end, a write of the
journal may fail, and what the server's other services do to tasks and runs happens in between.

* `step`: one action of one party;
* `Truthful`, `exit_proved`: what the server records was proved by the device;
* `exit_not_live`: where runs are registered once, an exited run runs nowhere;
* `evidence_kept`: what a device has recorded is not lost. -/

namespace Norns.Devices.CancellationRuns

open Norns.Lib Norns.Lib.Run Norns.Lib.Transaction
open Norns.Contracts.V2Lifecycle Norns.Persistence.Lifecycles
open Norns.Devices.PublicationPermits (DeviceIdentity)
open Norns.Devices.Cancellation Norns.Runner
open Norns.Runner.Journal (DeviceWssIdentity Evidence Persist)
open Norns.Runner.LiveRuns (LiveRunRegistry LiveRunRegistration LiveRunTerminalFacts Stop Publication)

/-! ### Frames -/

/-- `device_cancellation_request` -/
structure RequestFrame where
  identity : DeviceIdentity
  run_id : String
  cause : Cause
  requested_at : ℤ
  publication_fenced : Bool
  deriving DecidableEq, Repr

/-- `DeviceCancellationEvidenceFrame`; its signature is the device's. -/
structure EvidenceFrame where
  identity : DeviceIdentity
  run_id : String
  evidence_state : EvidenceState
  acknowledged_at : String
  process_exited_at : Option String
  process_tree_reaped : Bool
  deriving DecidableEq, Repr

/-- `device_cancellation_evidence_ack`, and whose connection it is for. -/
structure AckFrame where
  identity : DeviceIdentity
  run_id : String
  evidence_state : EvidenceState
  deriving DecidableEq, Repr

/-! ### Devices -/

/-- A member of `cancellationHandlers`, and what it waits for. -/
structure Handler where
  run_id : String
  stop : Stop
  deriving DecidableEq, Repr

/-- An installation: its files, and the process that runs. -/
structure Device where
  identity : DeviceWssIdentity
  journal : Journal.State := {}
  registry : LiveRunRegistry := LiveRuns.initial
  cancellationHandlers : List Handler := []
  /-- The runs with an `eventual_process_tree_reaped`, and their registrations. -/
  late : List (String × ℕ) := []
  authenticated : Bool := false
  fenced : Bool := false

/-- The identity as the server writes it. -/
def wire (identity : DeviceWssIdentity) : DeviceIdentity :=
  ⟨identity.device_id, identity.credential_id, identity.generation.toNat⟩

/-- `fenceAndClose`, with `fenceInstallation`. -/
def Device.fence (d : Device) (reason : String) : Device :=
  if d.fenced then d
  else { d with
    fenced := true
    authenticated := false
    registry := LiveRuns.cancelAll d.registry reason }

/-- The process ends; the files stay. -/
def Device.exit (d : Device) : Device :=
  { identity := d.identity, journal := { d.journal with memory := none } }

def stopReason : Cause → String
  | .project_stop => "project work cancellation requested"
  | .device_revocation => "device authorization revoked"
  | .emergency_stop => "local emergency stop requested"

/-- `stopRun` for a stop of the project, and `stopAll` otherwise. -/
def RequestFrame.publication (frame : RequestFrame) : Publication :=
  if frame.cause = .project_stop ∧ frame.publication_fenced = true then .fenced else .allow_committed

/-- The record says that the process tree was reaped. -/
def Reaped (record : Evidence) : Prop := record.process_exited_at ≠ none ∧ record.process_tree_reaped = true

instance (record : Evidence) : Decidable (Reaped record) := by unfold Reaped; infer_instance

section

variable (dateParses : String → Bool)

/-- `receiveCancellation` -/
def Device.receiveCancellation (d : Device) (frame : RequestFrame) (now : String) (outcome : Persist) : Device :=
  let existing := d.journal.memory.bind fun evidence => evidence.get? frame.run_id
  match Journal.perform d.identity dateParses d.journal (.acknowledge frame.run_id now outcome) with
  | (.error _, journal) => { d with journal := journal }
  | (.ok _, journal) =>
    if (∃ record ∈ existing, Reaped record) ∨ ∃ handler ∈ d.cancellationHandlers, handler.run_id = frame.run_id then
      { d with journal := journal }
    else
      let (stop, registry) := LiveRuns.cancelAndWait d.registry frame.run_id (stopReason frame.cause)
        frame.publication
      { d with
        journal := journal
        registry := registry
        cancellationHandlers := d.cancellationHandlers ++ [⟨frame.run_id, stop⟩] }

/-- A `device_cancellation_request` comes in. -/
def Device.receiveRequest (d : Device) (frame : RequestFrame) (now : String) (outcome : Persist) : Device :=
  if d.fenced then d
  else if d.authenticated = false ∨ frame.identity ≠ wire d.identity then
    d.fence "device cancellation identity changed"
  else d.receiveCancellation dateParses frame now outcome

/-- `recordProcessExited`; what it throws is caught. -/
def Device.recordExit (d : Device) (run_id now : String) (outcome : Persist) : Device :=
  { d with journal := (Journal.perform d.identity dateParses d.journal
      (.recordProcessExited run_id now outcome)).2 }

/-- What a registration ended with. -/
def Device.terminal (d : Device) (i : ℕ) : Option LiveRunTerminalFacts :=
  (d.registry.entries[i]?).bind LiveRuns.LiveEntry.terminal

/-- The answer that a handler waits for: whether the run is known, and its process tree reaped. -/
def Device.answer (d : Device) : Stop → Option (Bool × Bool)
  | .live i => (d.terminal i).map fun facts => (true, facts.process_tree_reaped)
  | .finished facts => some (true, facts.process_tree_reaped)
  | .unknown => some (false, false)

/-- The handler of a run goes on with its answer. -/
def Device.stopAnswered (d : Device) (run_id now : String) (outcome : Persist) : Device :=
  match d.cancellationHandlers.find? fun handler => handler.run_id = run_id with
  | none => d
  | some handler =>
    match d.answer handler.stop with
    | none => d
    | some (found, reaped) =>
      let d := { d with
        cancellationHandlers := d.cancellationHandlers.filter fun other => other.run_id ≠ run_id }
      if found = true ∧ reaped = true then d.recordExit dateParses run_id now outcome else d

/-- The bounded wait of a handler ends first. -/
def Device.stopTimedOut (d : Device) (run_id : String) : Device :=
  match d.cancellationHandlers.find? fun handler => handler.run_id = run_id with
  | some ⟨_, .live i⟩ =>
    { d with
      cancellationHandlers := d.cancellationHandlers.filter fun other => other.run_id ≠ run_id
      late := d.late ++ [(run_id, i)] }
  | _ => d

/-- A registration ends after the wait for it. -/
def Device.lateAnswered (d : Device) (j : ℕ) (now : String) (outcome : Persist) : Device :=
  match d.late[j]? with
  | none => d
  | some (run_id, i) =>
    match d.terminal i with
    | none => d
    | some facts =>
      let d := { d with late := d.late.eraseIdx j }
      if facts.process_tree_reaped = true then d.recordExit dateParses run_id now outcome else d

/-- `sendEvidence` -/
def evidenceFrame (identity : DeviceWssIdentity) (run_id : String) (record : Evidence) (state : EvidenceState) :
    EvidenceFrame where
  identity := wire identity
  run_id := run_id
  evidence_state := state
  acknowledged_at := record.acknowledged_at
  process_exited_at := if state = .process_exited then record.process_exited_at else none
  process_tree_reaped := decide (state = .process_exited)

/-- What `flushEvidence` sends for a record. -/
def flushRecord (identity : DeviceWssIdentity) (entry : String × Evidence) : List EvidenceFrame :=
  if entry.2.acknowledged_server_acked = false then
    [evidenceFrame identity entry.1 entry.2 .runner_acknowledged]
  else if Reaped entry.2 ∧ entry.2.process_exited_server_acked = false then
    [evidenceFrame identity entry.1 entry.2 .process_exited]
  else []

/-- `flushEvidence` -/
def Device.flushEvidence (d : Device) : List EvidenceFrame :=
  if d.authenticated = false ∨ d.fenced = true then []
  else
    match d.journal.memory with
    | none => []
    | some evidence => evidence.entries.flatMap (flushRecord d.identity)

/-- The state as the journal names it. -/
def deviceState : EvidenceState → Journal.DeviceCancellationEvidenceState
  | .runner_acknowledged => .runner_acknowledged
  | .process_exited => .process_exited

/-- A `device_cancellation_evidence_ack` comes in; what the journal throws is an unhandled rejection. -/
def Device.receiveAck (d : Device) (frame : AckFrame) (outcome : Persist) : Device :=
  if d.fenced then d
  else if d.authenticated = false then d.fence "unauthenticated cancellation evidence acknowledgement"
  else { d with journal := (Journal.perform d.identity dateParses d.journal
      (.markServerAcknowledged frame.run_id (deviceState frame.evidence_state) outcome)).2 }

end

/-! ### The server -/

/-- `requestCancellation` and `deliverPending`: the frame for a row. -/
def requestFrame (row : StoredRow) : RequestFrame where
  identity := row.identity
  run_id := row.run_id
  cause := row.cause
  requested_at := row.requested_at
  publication_fenced := row.publication_fenced_at.isSome

section

variable (datetime : String → Option ℤ)

/-- The frame parses, with its proof; `datetime` reads a time of the wire. -/
def EvidenceFrame.request (frame : EvidenceFrame) (event_ids : String × String) : Option Request :=
  match frame.evidence_state, datetime frame.acknowledged_at, frame.process_exited_at, frame.process_tree_reaped with
  | .runner_acknowledged, some acknowledged_at, none, false =>
    some (.acknowledge ⟨frame.run_id, frame.identity, acknowledged_at, none, event_ids⟩)
  | .process_exited, some acknowledged_at, some exited_at, true =>
    (datetime exited_at).map fun process_exited_at =>
      .confirmProcessExited ⟨frame.run_id, frame.identity, acknowledged_at, some process_exited_at, event_ids⟩ true
  | _, _, _, _ => none

end

/-! ### The system -/

structure System where
  db : Database
  devices : List Device
  requests : List RequestFrame := []
  evidence : List EvidenceFrame := []
  acks : List AckFrame := []
  /-- The registrations that ended with their process tree reaped, of which run of which device. -/
  reaped : List (DeviceIdentity × String) := []

inductive Action
  /-- A transaction that brings no evidence. -/
  | serve (request : Request)
  | createTask (id project_id phase_id : String)
  | createRun (id project_id phase_id task_id : String)
  | transitionTask (input : TransitionInput V2TaskState)
  | transitionRun (input : TransitionInput V2AgentRunState)
  /-- The findings of a reconciliation change. -/
  | setFindings (findings : List (AggregateKind × String))
  | sendRequest (run_id : String)
  /-- The server takes evidence; `verified` says whether its connection and signature are those of an active
  credential. -/
  | receiveEvidence (k : ℕ) (verified : Bool) (event_ids : String × String)
  | start (i : ℕ) (outcome : Persist)
  | exit (i : ℕ)
  | connect (i : ℕ)
  | disconnect (i : ℕ)
  /-- The daemon uses its registry. -/
  | call (i : ℕ) (call : LiveRuns.Call)
  | receiveRequest (i k : ℕ) (now : String) (outcome : Persist)
  | stopAnswered (i : ℕ) (run_id now : String) (outcome : Persist)
  | stopTimedOut (i : ℕ) (run_id : String)
  | lateAnswered (i j : ℕ) (now : String) (outcome : Persist)
  | flush (i : ℕ)
  | receiveAck (i k : ℕ) (outcome : Persist)

/-- The request is none of evidence. -/
def isPlain : Request → Bool
  | .acknowledge _ | .confirmProcessExited _ _ => false
  | .request _ _ | .requestProjectStop _ _ | .markUnconfirmedOffline _ _ | .reauthorizePublication _ _ _ _
  | .revoke _ _ => true

/-- The run of a call that releases a registration with its process tree reaped. -/
def reapedBy (d : Device) : LiveRuns.Call → List (DeviceIdentity × String)
  | .release i facts _ =>
    match d.registry.entries[i]? with
    | none => []
    | some entry => if facts.process_tree_reaped = true then [(wire d.identity, entry.runId)] else []
  | .register _ | .cancelAll _ | .cancelAndWait _ _ _ | .control _ _ _ _ => []

section

variable (dateParses : String → Bool) (datetime : String → Option ℤ)

/-- An action of one device. -/
def System.onDevice (s : System) (i : ℕ) (f : Device → Device) : System :=
  match s.devices[i]? with
  | none => s
  | some d => { s with devices := s.devices.set i (f d) }

/-- The server takes the evidence, and answers once it is recorded. -/
def System.receiveEvidence (s : System) (frame : EvidenceFrame) (event_ids : String × String) : System :=
  match frame.request datetime event_ids with
  | none => s
  | some request =>
    match Cancellation.serve s.db request with
    | .error _ => s
    | .ok db => { s with db := db, acks := s.acks ++ [⟨frame.identity, frame.run_id, frame.evidence_state⟩] }

def step (s : System) : Action → System
  | .serve request => if isPlain request then { s with db := serveStep s.db request } else s
  | .createTask id project_id phase_id =>
    { s with db := { s.db with tasks := s.db.tasks.create taskKind id project_id phase_id id } }
  | .createRun id project_id phase_id task_id =>
    { s with db := { s.db with runs := s.db.runs.create agentRunKind id project_id phase_id task_id } }
  | .transitionTask input => { s with db := commit s.db (s.db.transitionTask input) }
  | .transitionRun input => { s with db := commit s.db (s.db.transitionRun input) }
  | .setFindings findings => { s with db := { s.db with findings := findings } }
  | .sendRequest run_id =>
    match s.db.cancellations.get? run_id with
    | none => s
    | some row => { s with requests := s.requests ++ [requestFrame row] }
  | .receiveEvidence k verified event_ids =>
    match s.evidence[k]? with
    | none => s
    | some frame => if verified = true then s.receiveEvidence datetime frame event_ids else s
  | .start i outcome => s.onDevice i fun d =>
      if d.journal.memory.isSome then d
      else { d with journal := (Journal.perform d.identity dateParses d.journal (.open_ outcome)).2 }
  | .exit i => s.onDevice i Device.exit
  | .connect i => s.onDevice i fun d =>
      if d.journal.memory.isSome ∧ d.fenced = false then { d with authenticated := true } else d
  | .disconnect i => s.onDevice i fun d => { d with authenticated := false }
  | .call i call =>
    match s.devices[i]? with
    | none => s
    | some d =>
      if d.journal.memory.isSome then
        { s with
          devices := s.devices.set i { d with registry := LiveRuns.step d.registry call }
          reaped := s.reaped ++ reapedBy d call }
      else s
  | .receiveRequest i k now outcome =>
    match s.requests[k]? with
    | none => s
    | some frame => s.onDevice i fun d =>
        if d.journal.memory.isSome then d.receiveRequest dateParses frame now outcome else d
  | .stopAnswered i run_id now outcome => s.onDevice i fun d => d.stopAnswered dateParses run_id now outcome
  | .stopTimedOut i run_id => s.onDevice i fun d => d.stopTimedOut run_id
  | .lateAnswered i j now outcome => s.onDevice i fun d => d.lateAnswered dateParses j now outcome
  | .flush i =>
    match s.devices[i]? with
    | none => s
    | some d => { s with evidence := s.evidence ++ d.flushEvidence }
  | .receiveAck i k outcome =>
    match s.acks[k]? with
    | none => s
    | some frame => s.onDevice i fun d =>
        if frame.identity = wire d.identity ∧ d.journal.memory.isSome then d.receiveAck dateParses frame outcome
        else d

/-- No rows, no runs, and devices that have not been started. -/
def initial (identities : List DeviceWssIdentity) : System where
  db := ⟨.empty, ⟨.empty, []⟩, ⟨.empty, []⟩, []⟩
  devices := identities.map fun identity => { identity }

end

/-! ### What a device knows -/

section

variable {reaped reaped' : List (DeviceIdentity × String)} {identity : DeviceWssIdentity}
  {registry registry' : LiveRunRegistry} {d : Device}

/-- A record of an exit goes back to a registration that ended with its process tree reaped. -/
def Proved (reaped : List (DeviceIdentity × String)) (identity : DeviceWssIdentity) (run_id : String)
    (record : Evidence) : Prop := record.process_exited_at ≠ none → (wire identity, run_id) ∈ reaped

/-- What the registry remembers goes back to one. -/
structure RegistryOk (reaped : List (DeviceIdentity × String)) (identity : DeviceWssIdentity)
    (registry : LiveRunRegistry) : Prop where
  runs : ∀ run_id facts, (run_id, some facts) ∈ registry.runs → facts.process_tree_reaped = true →
    (wire identity, run_id) ∈ reaped
  finished : ∀ run_id ended, registry.finished.get? run_id = some ended → ended.process_tree_reaped = true →
    (wire identity, run_id) ∈ reaped

/-- A handler of a run waits for a registration of it, or has been answered. -/
def StopOk (reaped : List (DeviceIdentity × String)) (identity : DeviceWssIdentity) (registry : LiveRunRegistry)
    (run_id : String) : Stop → Prop
  | .live i => ∃ terminal, registry.runs[i]? = some (run_id, terminal)
  | .finished facts => facts.process_tree_reaped = true → (wire identity, run_id) ∈ reaped
  | .unknown => True

theorem RegistryOk.mono (h : RegistryOk reaped identity registry) (hsub : reaped ⊆ reaped') :
    RegistryOk reaped' identity registry :=
  ⟨fun run_id facts hmem hreaped => hsub (h.runs run_id facts hmem hreaped),
    fun run_id ended hget hreaped => hsub (h.finished run_id ended hget hreaped)⟩

theorem RegistryOk.cancels (h : RegistryOk reaped identity registry)
    (hcancels : LiveRuns.Cancels registry registry') : RegistryOk reaped identity registry' := by
  constructor
  · rw [hcancels.runs]
    exact h.runs
  · rw [hcancels.finished]
    exact h.finished

/-- A use of the registry: what it remembers anew was reaped by the call. -/
theorem RegistryOk.step (h : RegistryOk reaped d.identity d.registry) (call : LiveRuns.Call) :
    RegistryOk (reaped ++ reapedBy d call) d.identity (LiveRuns.step d.registry call) := by
  have hold := h.mono (List.subset_append_left reaped (reapedBy d call))
  cases call with
  | register registration =>
    refine ⟨fun run_id facts hmem hreaped => ?_, hold.finished⟩
    have hmem' : (run_id, some facts) ∈ (LiveRuns.register d.registry registration).runs := hmem
    rw [LiveRuns.register_runs, List.mem_append, List.mem_singleton] at hmem'
    rcases hmem' with hmem' | hnew
    · exact hold.runs run_id facts hmem' hreaped
    · cases hnew
  | release i facts now =>
    show RegistryOk _ _ (LiveRuns.release d.registry i facts now)
    cases hentry : d.registry.entries[i]? with
    | none =>
      have hsame : LiveRuns.release d.registry i facts now = d.registry := by
        unfold LiveRuns.release
        rw [hentry]
      rw [hsame]
      exact hold
    | some entry =>
      have hnew : facts.process_tree_reaped = true →
          (wire d.identity, entry.runId) ∈ reaped ++ reapedBy d (.release i facts now) := by
        intro hreaped
        refine List.mem_append_right _ ?_
        unfold reapedBy
        simp only [hentry, hreaped, if_true, List.mem_singleton]
      constructor
      · intro run_id facts' hmem hreaped
        rw [LiveRuns.release_runs hentry] at hmem
        rcases List.mem_or_eq_of_mem_set hmem with hmem | heq
        · exact hold.runs run_id facts' hmem hreaped
        · have hrun : run_id = entry.runId := congrArg Prod.fst heq
          have hfacts : some facts' = (entry.terminal <|> some facts) := congrArg Prod.snd heq
          cases hterminal : entry.terminal with
          | none =>
            rw [hterminal] at hfacts
            cases hfacts
            rw [hrun]
            exact hnew hreaped
          | some before =>
            rw [hterminal] at hfacts
            cases hfacts
            refine hold.runs run_id facts' ?_ hreaped
            rw [hrun, ← hterminal]
            exact List.mem_of_getElem? (LiveRuns.runs_get? hentry)
      · intro run_id ended hget hreaped
        rw [LiveRuns.release_eq hentry] at hget
        have hset := LiveRuns.get?_forget hget
        rw [OrdMap.get?_set] at hset
        split_ifs at hset with hid
        · cases hset
          rw [← hid]
          exact hnew hreaped
        · exact hold.finished run_id ended hset hreaped
  | cancelAll reason => exact hold.cancels (LiveRuns.cancelAll_cancels _ reason)
  | cancelAndWait runId reason publication => exact hold.cancels (LiveRuns.cancelAndWait_cancels _ _ _ _)
  | control runId kind message session => exact hold.cancels (LiveRuns.control_cancels _ _ _ _ _)

/-- A registration keeps its run. -/
theorem runs_step {i : ℕ} {run_id : String} {terminal : Option LiveRunTerminalFacts}
    (h : registry.runs[i]? = some (run_id, terminal)) (call : LiveRuns.Call) :
    ∃ terminal', (LiveRuns.step registry call).runs[i]? = some (run_id, terminal') := by
  unfold LiveRunRegistry.runs at h
  rw [List.getElem?_map] at h
  obtain ⟨entry, hentry, heq⟩ := Option.map_eq_some_iff.mp h
  obtain ⟨later, hlater, hle⟩ := LiveRuns.grows_step registry call i entry hentry
  refine ⟨later.terminal, ?_⟩
  rw [LiveRuns.runs_get? hlater, congrArg LiveRunRegistration.runId hle.registration]
  rw [show entry.runId = run_id from congrArg Prod.fst heq]

theorem StopOk.mono {run_id : String} {stop : Stop} (h : StopOk reaped identity registry run_id stop)
    (hsub : reaped ⊆ reaped') : StopOk reaped' identity registry run_id stop := by
  cases stop with
  | live i => exact h
  | finished facts => exact fun hreaped => hsub (h hreaped)
  | unknown => trivial

theorem StopOk.step {run_id : String} {stop : Stop} (h : StopOk reaped identity registry run_id stop)
    (call : LiveRuns.Call) : StopOk reaped identity (LiveRuns.step registry call) run_id stop := by
  cases stop with
  | live i =>
    obtain ⟨terminal, hget⟩ := h
    exact runs_step hget call
  | finished facts => exact h
  | unknown => trivial

/-- What a cancellation has to wait for. -/
theorem stopOk_cancelAndWait (h : RegistryOk reaped identity registry) (hexact : LiveRuns.Exact registry)
    (run_id reason : String) (publication : Publication) :
    StopOk reaped identity (LiveRuns.cancelAndWait registry run_id reason publication).2 run_id
      (LiveRuns.cancelAndWait registry run_id reason publication).1 := by
  have hruns := (LiveRuns.cancelAndWait_cancels registry run_id reason publication).runs
  unfold LiveRuns.cancelAndWait at hruns ⊢
  cases hlive : registry.live.get? run_id with
  | some i =>
    rw [hlive] at hruns
    show ∃ terminal, (LiveRuns.cancelEntry registry i reason publication).runs[i]? = some (run_id, terminal)
    rw [show (LiveRuns.cancelEntry registry i reason publication).runs = registry.runs from hruns]
    exact ⟨none, ((hexact run_id i).mp hlive).1⟩
  | none =>
    dsimp only
    cases hfinished : registry.finished.get? run_id with
    | none => trivial
    | some ended => exact h.finished run_id ended hfinished

variable (dateParses : String → Bool)

/-- What a device has recorded, remembers and waits for goes back to what its executors reported. -/
structure DeviceOk (reaped : List (DeviceIdentity × String)) (d : Device) : Prop where
  intact : Journal.Intact d.identity dateParses d.journal
  records : Journal.Holds dateParses (Proved reaped d.identity) d.journal
  exact : LiveRuns.Exact d.registry
  registry : RegistryOk reaped d.identity d.registry
  handlers : ∀ handler ∈ d.cancellationHandlers, StopOk reaped d.identity d.registry handler.run_id handler.stop
  late : ∀ entry ∈ d.late, StopOk reaped d.identity d.registry entry.1 (.live entry.2)

variable {dateParses}

theorem DeviceOk.mono (h : DeviceOk dateParses reaped d) (hsub : reaped ⊆ reaped') :
    DeviceOk dateParses reaped' d where
  intact := h.intact
  records := ⟨fun evidence hmem run_id record hget hexited => hsub (h.records.memory evidence hmem run_id record hget
    hexited), fun run_id record hget hexited => hsub (h.records.disk run_id record hget hexited)⟩
  exact := h.exact
  registry := h.registry.mono hsub
  handlers handler hmem := (h.handlers handler hmem).mono hsub
  late entry hmem := (h.late entry hmem).mono hsub

theorem registryOk_initial : RegistryOk reaped identity LiveRuns.initial := by
  constructor
  · intro run_id facts hmem
    cases hmem
  · intro run_id ended hget
    cases hget

theorem deviceOk_start (identity : DeviceWssIdentity) : DeviceOk dateParses reaped { identity } where
  intact := Journal.intact_start
  records := by
    constructor
    · rintro _ ⟨⟩
    · intro run_id record hget
      cases hget
  exact := LiveRuns.exact_initial
  registry := registryOk_initial
  handlers _ hmem := by cases hmem
  late _ hmem := by cases hmem

/-- An operation of the journal. -/
theorem DeviceOk.perform (h : DeviceOk dateParses reaped d) (op : Journal.Op)
    (hkeeps : Journal.Keeps (Proved reaped d.identity) op) :
    DeviceOk dateParses reaped { d with
      journal := (Journal.perform d.identity dateParses d.journal op).2 } := by
  obtain ⟨hintact, hwrites⟩ := Journal.perform_writes h.intact op
  exact ⟨hintact, hwrites.holds hkeeps h.records, h.exact, h.registry, h.handlers, h.late⟩

theorem keeps_acknowledge (run_id now : String) (outcome : Persist) :
    Journal.Keeps (Proved reaped identity) (.acknowledge run_id now outcome) := fun hne => absurd rfl hne

theorem keeps_mark (run_id : String) (state : Journal.DeviceCancellationEvidenceState) (outcome : Persist) :
    Journal.Keeps (Proved reaped identity) (.markServerAcknowledged run_id state outcome) := by
  intro record hproved
  cases state <;> exact hproved

theorem DeviceOk.recordExit (h : DeviceOk dateParses reaped d) {run_id : String}
    (hreaped : (wire d.identity, run_id) ∈ reaped) (now : String) (outcome : Persist) :
    DeviceOk dateParses reaped (d.recordExit dateParses run_id now outcome) :=
  h.perform (.recordProcessExited run_id now outcome) fun _ _ _ => hreaped

theorem DeviceOk.fence (h : DeviceOk dateParses reaped d) (reason : String) :
    DeviceOk dateParses reaped (d.fence reason) := by
  unfold Device.fence
  split_ifs
  · exact h
  · have hcancels := LiveRuns.cancelAll_cancels d.registry reason
    exact ⟨h.intact, h.records, h.exact.cancels hcancels, h.registry.cancels hcancels,
      fun handler hmem => (h.handlers handler hmem).step (.cancelAll reason),
      fun entry hmem => (h.late entry hmem).step (.cancelAll reason)⟩

theorem DeviceOk.exit (h : DeviceOk dateParses reaped d) : DeviceOk dateParses reaped d.exit where
  intact := h.intact.shut
  records := ⟨fun _ hmem => (by cases hmem), h.records.disk⟩
  exact := LiveRuns.exact_initial
  registry := registryOk_initial
  handlers _ hmem := by cases hmem
  late _ hmem := by cases hmem

theorem DeviceOk.call (h : DeviceOk dateParses reaped d) (call : LiveRuns.Call) :
    DeviceOk dateParses (reaped ++ reapedBy d call) { d with registry := LiveRuns.step d.registry call } := by
  have hold := h.mono (List.subset_append_left reaped (reapedBy d call))
  exact ⟨hold.intact, hold.records, LiveRuns.exact_step h.exact call, h.registry.step call,
    fun handler hmem => (hold.handlers handler hmem).step call, fun entry hmem => (hold.late entry hmem).step call⟩

theorem DeviceOk.receiveRequest (h : DeviceOk dateParses reaped d) (frame : RequestFrame) (now : String)
    (outcome : Persist) : DeviceOk dateParses reaped (d.receiveRequest dateParses frame now outcome) := by
  unfold Device.receiveRequest
  split_ifs
  · exact h
  · exact h.fence _
  · have hjournal := h.perform (.acknowledge frame.run_id now outcome) (keeps_acknowledge frame.run_id now outcome)
    unfold Device.receiveCancellation
    dsimp only
    generalize Journal.perform d.identity dateParses d.journal (.acknowledge frame.run_id now outcome) = result
      at hjournal ⊢
    obtain ⟨error | answer, journal⟩ := result
    · exact hjournal
    · dsimp only at hjournal ⊢
      split_ifs
      · exact hjournal
      · have hcancels := LiveRuns.cancelAndWait_cancels d.registry frame.run_id (stopReason frame.cause)
          frame.publication
        have hstep : ∀ run_id stop, StopOk reaped d.identity d.registry run_id stop → StopOk reaped d.identity
            (LiveRuns.cancelAndWait d.registry frame.run_id (stopReason frame.cause) frame.publication).2
            run_id stop := fun run_id stop hstop =>
          hstop.step (.cancelAndWait frame.run_id (stopReason frame.cause) frame.publication)
        refine ⟨hjournal.intact, hjournal.records, h.exact.cancels hcancels, h.registry.cancels hcancels,
          fun handler hmem => ?_, fun entry hmem => hstep _ _ (h.late entry hmem)⟩
        rcases List.mem_append.mp hmem with hmem | hmem
        · exact hstep _ _ (h.handlers handler hmem)
        · rw [List.mem_singleton.mp hmem]
          exact stopOk_cancelAndWait h.registry h.exact _ _ _

/-- A registration that ended as reaped is one of the run that waits for it. -/
theorem DeviceOk.terminal_reaped (h : DeviceOk dateParses reaped d) {run_id : String} {i : ℕ}
    {facts : LiveRunTerminalFacts} (hstop : StopOk reaped d.identity d.registry run_id (.live i))
    (hterminal : d.terminal i = some facts) (hreaped : facts.process_tree_reaped = true) :
    (wire d.identity, run_id) ∈ reaped := by
  obtain ⟨terminal, hget⟩ := hstop
  unfold Device.terminal at hterminal
  obtain ⟨entry, hentry, hfacts⟩ := Option.bind_eq_some_iff.mp hterminal
  have hruns := LiveRuns.runs_get? hentry
  rw [hget] at hruns
  cases hruns
  refine h.registry.runs _ facts ?_ hreaped
  rw [← hfacts]
  exact List.mem_of_getElem? hget

theorem DeviceOk.answer_reaped (h : DeviceOk dateParses reaped d) {run_id : String} {stop : Stop}
    (hstop : StopOk reaped d.identity d.registry run_id stop) {found answered : Bool}
    (hanswer : d.answer stop = some (found, answered)) (hreaped : found = true ∧ answered = true) :
    (wire d.identity, run_id) ∈ reaped := by
  obtain ⟨rfl, rfl⟩ := hreaped
  cases stop with
  | live i =>
    obtain ⟨facts, hfacts, heq⟩ := Option.map_eq_some_iff.mp hanswer
    exact h.terminal_reaped hstop hfacts (congrArg Prod.snd heq)
  | finished facts => exact hstop (congrArg Prod.snd (Option.some.inj hanswer))
  | unknown => cases hanswer

theorem DeviceOk.stopAnswered (h : DeviceOk dateParses reaped d) (run_id now : String) (outcome : Persist) :
    DeviceOk dateParses reaped (d.stopAnswered dateParses run_id now outcome) := by
  unfold Device.stopAnswered
  split
  · exact h
  · rename_i handler hfind
    have hmem := List.mem_of_find?_eq_some hfind
    have hrun : handler.run_id = run_id := by simpa using List.find?_some hfind
    split
    · exact h
    · rename_i found answered hanswer
      dsimp only
      have hfiltered : DeviceOk dateParses reaped { d with
          cancellationHandlers := d.cancellationHandlers.filter fun other => other.run_id ≠ run_id } :=
        ⟨h.intact, h.records, h.exact, h.registry,
          fun other hother => h.handlers other (List.mem_filter.mp hother).1, h.late⟩
      split_ifs with hreaped
      · have hproof := h.answer_reaped (h.handlers handler hmem) hanswer hreaped
        rw [hrun] at hproof
        exact hfiltered.recordExit hproof now outcome
      · exact hfiltered

theorem DeviceOk.stopTimedOut (h : DeviceOk dateParses reaped d) (run_id : String) :
    DeviceOk dateParses reaped (d.stopTimedOut run_id) := by
  unfold Device.stopTimedOut
  split
  · rename_i first i hfind
    have hmem := List.mem_of_find?_eq_some hfind
    have hrun : first = run_id := by simpa using List.find?_some hfind
    refine ⟨h.intact, h.records, h.exact, h.registry,
      fun other hother => h.handlers other (List.mem_filter.mp hother).1, fun entry hentry => ?_⟩
    rcases List.mem_append.mp hentry with hentry | hentry
    · exact h.late entry hentry
    · rw [List.mem_singleton.mp hentry, ← hrun]
      exact h.handlers _ hmem
  · exact h

theorem DeviceOk.lateAnswered (h : DeviceOk dateParses reaped d) (j : ℕ) (now : String) (outcome : Persist) :
    DeviceOk dateParses reaped (d.lateAnswered dateParses j now outcome) := by
  unfold Device.lateAnswered
  split
  · exact h
  · rename_i run_id i hlate
    split
    · exact h
    · rename_i facts hterminal
      dsimp only
      have herased : DeviceOk dateParses reaped { d with late := d.late.eraseIdx j } :=
        ⟨h.intact, h.records, h.exact, h.registry, h.handlers,
          fun entry hentry => h.late entry ((List.eraseIdx_sublist _ _).subset hentry)⟩
      split_ifs with hreaped
      · have hproof := h.terminal_reaped (h.late _ (List.mem_of_getElem? hlate)) hterminal hreaped
        exact herased.recordExit hproof now outcome
      · exact herased

theorem DeviceOk.receiveAck (h : DeviceOk dateParses reaped d) (frame : AckFrame) (outcome : Persist) :
    DeviceOk dateParses reaped (d.receiveAck dateParses frame outcome) := by
  unfold Device.receiveAck
  split_ifs
  · exact h
  · exact h.fence _
  · exact h.perform _ (keeps_mark _ _ _)

/-- A frame that is sent says what its record does. -/
theorem flushRecord_frame {entry : String × Evidence} {frame : EvidenceFrame}
    (h : frame ∈ flushRecord identity entry) : frame.identity = wire identity ∧ frame.run_id = entry.1 ∧
      frame.acknowledged_at = entry.2.acknowledged_at ∧
      (frame.process_exited_at ≠ none → frame.process_exited_at = entry.2.process_exited_at) := by
  unfold flushRecord at h
  split_ifs at h
  · rw [List.mem_singleton.mp h]
    exact ⟨rfl, rfl, rfl, fun hne => absurd rfl hne⟩
  · rw [List.mem_singleton.mp h]
    exact ⟨rfl, rfl, rfl, fun _ => rfl⟩
  · cases h

theorem flushEvidence_frame {frame : EvidenceFrame} (h : frame ∈ d.flushEvidence) :
    ∃ evidence run_id record, d.journal.memory = some evidence ∧ evidence.get? run_id = some record ∧
      frame ∈ flushRecord d.identity (run_id, record) := by
  unfold Device.flushEvidence at h
  split_ifs at h
  · cases h
  · split at h
    · cases h
    · rename_i evidence hmemory
      obtain ⟨⟨run_id, record⟩, hentry, hframe⟩ := List.mem_flatMap.mp h
      exact ⟨evidence, run_id, record, hmemory, OrdMap.mem_entries.mp hentry, hframe⟩

end

/-! ### What the server records -/

section

variable {dateParses : String → Bool} {datetime : String → Option ℤ} {s : System}

/-- The request of a frame, and what it brings. -/
theorem frame_request {frame : EvidenceFrame} {event_ids : String × String} {request : Request}
    (h : frame.request datetime event_ids = some request) :
    (∃ acknowledged_at, datetime frame.acknowledged_at = some acknowledged_at ∧
        frame.evidence_state = .runner_acknowledged ∧
        request = .acknowledge ⟨frame.run_id, frame.identity, acknowledged_at, none, event_ids⟩) ∨
      ∃ acknowledged_at exited_at process_exited_at, datetime frame.acknowledged_at = some acknowledged_at ∧
        frame.process_exited_at = some exited_at ∧ datetime exited_at = some process_exited_at ∧
        frame.evidence_state = .process_exited ∧
        request = .confirmProcessExited
          ⟨frame.run_id, frame.identity, acknowledged_at, some process_exited_at, event_ids⟩ true := by
  unfold EvidenceFrame.request at h
  split at h
  · rename_i acknowledged_at hstate hack hexit hreaped
    cases h
    exact .inl ⟨acknowledged_at, hack, hstate, rfl⟩
  · rename_i acknowledged_at exited_at hstate hack hexit hreaped
    obtain ⟨process_exited_at, htime, rfl⟩ := Option.map_eq_some_iff.mp h
    exact .inr ⟨acknowledged_at, exited_at, process_exited_at, hack, hexit, htime, hstate, rfl⟩
  · cases h

/-- The transaction of a frame that commits. -/
theorem frame_evidenced {frame : EvidenceFrame} {event_ids : String × String} {request : Request} {db db' : Database}
    (hrequest : frame.request datetime event_ids = some request) (h : Cancellation.serve db request = .ok db') :
    ∃ input row new, Evidenced db db' input frame.evidence_state row new ∧ input.run_id = frame.run_id ∧
      input.identity = frame.identity ∧ datetime frame.acknowledged_at = some input.acknowledged_at ∧
      (frame.evidence_state = .process_exited → frame.process_exited_at ≠ none) := by
  rcases frame_request hrequest with ⟨acknowledged_at, hack, hstate, rfl⟩ |
    ⟨acknowledged_at, exited_at, process_exited_at, hack, hexit, htime, hstate, rfl⟩
  · obtain ⟨⟨stored, last⟩, hok, rfl⟩ := map_eq_ok.mp h
    obtain ⟨row, hevidence⟩ := recordDeviceEvidence_ok hok
    rw [hstate]
    exact ⟨_, row, stored, hevidence, rfl, rfl, hack, fun hne => by cases hne⟩
  · obtain ⟨⟨stored, last⟩, hok, rfl⟩ := map_eq_ok.mp h
    obtain ⟨-, hok⟩ := refuse_bind_ok.mp hok
    obtain ⟨row, hevidence⟩ := recordDeviceEvidence_ok hok
    rw [hstate]
    exact ⟨_, row, stored, hevidence, rfl, rfl, hack, fun _ => by rw [hexit]; exact Option.some_ne_none _⟩

/-- A plain request that is served brings no evidence. -/
theorem serveStep_requests (db : Database) {request : Request} (h : isPlain request = true) :
    Requests db (serveStep db request) := by
  refine commit_induct (P := Requests db) (.refl db) fun db' hok => ?_
  rcases serve_ok hok with hrequests | ⟨input, state, row, new, -, ⟨given, rfl, -⟩ | ⟨rfl, -⟩⟩
  · exact hrequests
  · cases h
  · cases h

variable (dateParses) in
/-- What the server records and what is on the wire goes back to what the executors reported. -/
structure Truthful (s : System) : Prop where
  devices : ∀ d ∈ s.devices, DeviceOk dateParses s.reaped d
  frames : ∀ frame ∈ s.evidence, frame.process_exited_at ≠ none → (frame.identity, frame.run_id) ∈ s.reaped
  known : Known s.db
  proved : ∀ id row, s.db.cancellations.get? id = some row → row.process_exited_at.isSome = true →
    (row.identity, id) ∈ s.reaped
  ended : ∀ id row run, s.db.cancellations.get? id = some row → row.process_exited_at.isSome = true →
    s.db.runs.rows.get? id = some run → run.state.isTerminal = true

theorem truthful_initial (identities : List DeviceWssIdentity) : Truthful dateParses (initial identities) where
  devices d hmem := by
    obtain ⟨identity, -, rfl⟩ := List.mem_map.mp hmem
    exact deviceOk_start identity
  frames _ hmem := by cases hmem
  known _ _ hget := by cases hget
  proved _ _ hget := by cases hget
  ended _ _ _ hget := by cases hget

/-- An action of one device that keeps what it knows. -/
theorem Truthful.onDevice (h : Truthful dateParses s) (i : ℕ) (f : Device → Device)
    (hf : ∀ d, DeviceOk dateParses s.reaped d → DeviceOk dateParses s.reaped (f d)) :
    Truthful dateParses (s.onDevice i f) := by
  unfold System.onDevice
  cases hget : s.devices[i]? with
  | none => exact h
  | some d =>
    refine ⟨fun d' hmem => ?_, h.frames, h.known, h.proved, h.ended⟩
    rcases List.mem_or_eq_of_mem_set hmem with hmem | rfl
    · exact h.devices d' hmem
    · exact hf d (h.devices d (List.mem_of_getElem? hget))

/-- The rows that are exited stay so while their runs go on. -/
theorem Truthful.ended_go (h : Truthful dateParses s) {db : Database} (hruns : RunsGo s.db db) {id : String}
    {row : StoredRow} {run : LifecycleRow V2AgentRunState} (hrow : s.db.cancellations.get? id = some row)
    (hexited : row.process_exited_at.isSome = true) (hrun : db.runs.rows.get? id = some run) :
    run.state.isTerminal = true := by
  obtain ⟨before, hbefore⟩ := h.known id row hrow
  have hterminal := h.ended id row before hrow hexited hbefore
  obtain ⟨run', hrun', hsame⟩ := hruns id before hbefore
  cases hrun'.symm.trans hrun
  rw [hsame hterminal]
  exact hterminal

/-- The other services change tasks, runs and findings. -/
theorem Truthful.elsewhere (h : Truthful dateParses s) {db : Database}
    (hsame : db.cancellations = s.db.cancellations) (hruns : RunsGo s.db db) :
    Truthful dateParses { s with db := db } where
  devices := h.devices
  frames := h.frames
  known := h.known.go hsame hruns
  proved id row hrow := by
    rw [show ({ s with db := db } : System).db.cancellations = s.db.cancellations from hsame] at hrow
    exact h.proved id row hrow
  ended id row run hrow hexited hrun := by
    rw [show ({ s with db := db } : System).db.cancellations = s.db.cancellations from hsame] at hrow
    exact h.ended_go hruns hrow hexited hrun

/-- A request that brings no evidence. -/
theorem Truthful.requests (h : Truthful dateParses s) {db : Database} (hrequests : Requests s.db db) :
    Truthful dateParses { s with db := db } := by
  have hback : ∀ id row, db.cancellations.get? id = some row → row.process_exited_at.isSome = true →
      ∃ before, s.db.cancellations.get? id = some before ∧ before.process_exited_at.isSome = true ∧
        before.identity = row.identity := by
    intro id row hrow hexited
    have hquiet := hrequests.rows id
    rw [hrow] at hquiet
    generalize hbefore : s.db.cancellations.get? id = before at hquiet
    cases hquiet with
    | created _ _ _ hrunning =>
      rw [hrunning] at hexited
      cases hexited
    | updated before _ guarded _ hsame =>
      exact ⟨before, rfl, by rw [← hsame]; exact hexited, guarded.identity.symm⟩
  refine ⟨h.devices, h.frames, hrequests.known h.known, fun id row hrow hexited => ?_,
    fun id row run hrow hexited hrun => ?_⟩
  · obtain ⟨before, hbefore, hexited', hidentity⟩ := hback id row hrow hexited
    rw [← hidentity]
    exact h.proved id before hbefore hexited'
  · obtain ⟨before, hbefore, hexited', -⟩ := hback id row hrow hexited
    exact h.ended_go hrequests.runs hbefore hexited' hrun

/-- Evidence that the server records. -/
theorem Truthful.evidence (h : Truthful dateParses s) {frame : EvidenceFrame} (hframe : frame ∈ s.evidence)
    (event_ids : String × String) : Truthful dateParses (s.receiveEvidence datetime frame event_ids) := by
  unfold System.receiveEvidence
  split
  · exact h
  · rename_i request hrequest
    split
    · exact h
    · rename_i db hserve
      obtain ⟨input, row, new, hevidence, hrun, hidentity, -, hexit⟩ := frame_evidenced hrequest hserve
      obtain ⟨-, -, htime⟩ := hevidence.times
      have hknown : Known db := h.known.set hevidence.set hevidence.runs (h.known _ row hevidence.found)
      refine ⟨h.devices, h.frames, hknown, fun id found hfound hexited => ?_,
        fun id found run hfound hexited hget => ?_⟩
      · have hfound' : db.cancellations.get? id = some found := hfound
        rw [hevidence.set, OrdMap.get?_set] at hfound'
        split_ifs at hfound' with hid
        · cases hfound'
          subst hid
          have hsame : new.identity = row.identity := hevidence.guarded.identity
          rcases htime with hsame' | ⟨hstate, -, -⟩
          · rw [hsame]
            exact h.proved _ row hevidence.found (by rw [← hsame']; exact hexited)
          · rw [hsame, hevidence.identity, hidentity, hrun]
            exact h.frames frame hframe (hexit hstate)
        · exact h.proved id found hfound' hexited
      · have hfound' : db.cancellations.get? id = some found := hfound
        rw [hevidence.set, OrdMap.get?_set] at hfound'
        split_ifs at hfound' with hid
        · cases hfound'
          subst hid
          rcases htime with hsame' | ⟨hstate, -, -⟩
          · exact h.ended_go hevidence.runs hevidence.found (by rw [← hsame']; exact hexited) hget
          · exact hevidence.ended hstate run hget
        · exact h.ended_go hevidence.runs hfound' hexited hget

theorem create_runsGo (db : Database) (id project_id phase_id task_id : String) :
    RunsGo db { db with runs := db.runs.create agentRunKind id project_id phase_id task_id } := by
  intro other run hrun
  refine ⟨run, ?_, fun _ => rfl⟩
  show (db.runs.create agentRunKind id project_id phase_id task_id).rows.get? other = some run
  unfold Side.create
  split
  · exact hrun
  · rename_i hnone
    by_cases hid : id = other
    · subst hid
      cases hnone.symm.trans hrun
    · exact (OrdMap.get?_set_ne _ _ hid).trans hrun

theorem truthful_step (h : Truthful dateParses s) (a : Action) : Truthful dateParses (step dateParses datetime s a) := by
  cases a with
  | serve request =>
    unfold step
    dsimp only
    split_ifs with hplain
    · exact h.requests (serveStep_requests s.db hplain)
    · exact h
  | createTask id project_id phase_id => exact h.elsewhere rfl (runsGo_of_same rfl)
  | createRun id project_id phase_id task_id => exact h.elsewhere rfl (create_runsGo s.db _ _ _ _)
  | transitionTask input =>
    have hcommit : (commit s.db (s.db.transitionTask input)).cancellations = s.db.cancellations ∧
        (commit s.db (s.db.transitionTask input)).runs = s.db.runs :=
      commit_induct (P := fun db => db.cancellations = s.db.cancellations ∧ db.runs = s.db.runs) ⟨rfl, rfl⟩
        fun db' hok => transitionTask_ok hok
    exact h.elsewhere hcommit.1 (runsGo_of_same hcommit.2)
  | transitionRun input =>
    have hcommit : (commit s.db (s.db.transitionRun input)).cancellations = s.db.cancellations ∧
        RunsGo s.db (commit s.db (s.db.transitionRun input)) :=
      commit_induct (P := fun db => db.cancellations = s.db.cancellations ∧ RunsGo s.db db) ⟨rfl, .refl _⟩
        fun db' hok => ⟨(transitionRun_ok hok).1, (transitionRun_ok hok).2.2.1⟩
    exact h.elsewhere hcommit.1 hcommit.2
  | setFindings findings => exact h.elsewhere rfl (runsGo_of_same rfl)
  | sendRequest run_id =>
    unfold step
    dsimp only
    split
    · exact h
    · exact ⟨h.devices, h.frames, h.known, h.proved, h.ended⟩
  | receiveEvidence k verified event_ids =>
    unfold step
    dsimp only
    split
    · exact h
    · rename_i frame hget
      split_ifs
      · exact h.evidence (List.mem_of_getElem? hget) event_ids
      · exact h
  | start i outcome =>
    refine h.onDevice i _ fun d hd => ?_
    split_ifs
    · exact hd
    · exact hd.perform (.open_ outcome) trivial
  | exit i => exact h.onDevice i _ fun d hd => hd.exit
  | connect i =>
    refine h.onDevice i _ fun d hd => ?_
    split_ifs
    · exact ⟨hd.intact, hd.records, hd.exact, hd.registry, hd.handlers, hd.late⟩
    · exact hd
  | disconnect i =>
    exact h.onDevice i _ fun d hd => ⟨hd.intact, hd.records, hd.exact, hd.registry, hd.handlers, hd.late⟩
  | call i call =>
    unfold step
    dsimp only
    split
    · exact h
    · rename_i d hget
      split_ifs
      · have hsub := List.subset_append_left s.reaped (reapedBy d call)
        refine ⟨fun d' hmem => ?_, fun frame hframe hexit => hsub (h.frames frame hframe hexit), h.known,
          fun id row hrow hexited => hsub (h.proved id row hrow hexited), h.ended⟩
        rcases List.mem_or_eq_of_mem_set hmem with hmem | rfl
        · exact (h.devices d' hmem).mono hsub
        · exact (h.devices d (List.mem_of_getElem? hget)).call call
      · exact h
  | receiveRequest i k now outcome =>
    unfold step
    dsimp only
    split
    · exact h
    · rename_i frame hget
      refine h.onDevice i _ fun d hd => ?_
      split_ifs
      · exact hd.receiveRequest frame now outcome
      · exact hd
  | stopAnswered i run_id now outcome => exact h.onDevice i _ fun d hd => hd.stopAnswered run_id now outcome
  | stopTimedOut i run_id => exact h.onDevice i _ fun d hd => hd.stopTimedOut run_id
  | lateAnswered i j now outcome => exact h.onDevice i _ fun d hd => hd.lateAnswered j now outcome
  | flush i =>
    unfold step
    dsimp only
    split
    · exact h
    · rename_i d hget
      refine ⟨h.devices, fun frame hframe hexit => ?_, h.known, h.proved, h.ended⟩
      rcases List.mem_append.mp hframe with hframe | hframe
      · exact h.frames frame hframe hexit
      · obtain ⟨evidence, run_id, record, hmemory, hrecord, hflush⟩ := flushEvidence_frame hframe
        obtain ⟨hidentity, hrun, -, hsame⟩ := flushRecord_frame hflush
        have hd := h.devices d (List.mem_of_getElem? hget)
        rw [hidentity, hrun]
        exact hd.records.memory evidence hmemory run_id record hrecord (by rw [← hsame hexit]; exact hexit)
  | receiveAck i k outcome =>
    unfold step
    dsimp only
    split
    · exact h
    · rename_i frame hget
      refine h.onDevice i _ fun d hd => ?_
      split_ifs
      · exact hd.receiveAck frame outcome
      · exact hd

theorem run_truthful (dateParses : String → Bool) (datetime : String → Option ℤ)
    (identities : List DeviceWssIdentity) (as : List Action) :
    Truthful dateParses (run (step dateParses datetime) (initial identities) as) :=
  run_induct' (I := Truthful dateParses) (fun _ a h => truthful_step h a) (truthful_initial identities) as

/-- **What the server records was proved.** In every run of the system, a cancellation is recorded as exited only
where the device that it names has reported a registration of the run that ended with its process tree reaped; and
the run is then in a terminal state. -/
theorem exit_proved (dateParses : String → Bool) (datetime : String → Option ℤ)
    (identities : List DeviceWssIdentity) (as : List Action) {run_id : String} {row : StoredRow}
    (hrow : (run (step dateParses datetime) (initial identities) as).db.cancellations.get? run_id = some row)
    (hexited : row.state = .process_exited) :
    (row.identity, run_id) ∈ (run (step dateParses datetime) (initial identities) as).reaped ∧
      ∃ agentRun, (run (step dateParses datetime) (initial identities) as).db.runs.rows.get? run_id = some agentRun ∧
        agentRun.state.isTerminal = true := by
  have htruthful := run_truthful dateParses datetime identities as
  generalize run (step dateParses datetime) (initial identities) as = s at hrow htruthful ⊢
  have hsome := (exited_iff row).mp hexited
  obtain ⟨agentRun, hget⟩ := htruthful.known run_id row hrow
  exact ⟨htruthful.proved run_id row hrow hsome, agentRun, hget, htruthful.ended run_id row agentRun hrow hsome hget⟩

def sampleIdentity : DeviceWssIdentity := Journal.device

/-- The times of the samples, as the server reads them. -/
def sampleTimes (text : String) : Option ℤ :=
  [("2026-07-01T10:00:05.000Z", 1782900005000), ("2026-07-01T10:01:00.000Z", 1782900060000)].lookup text

def sampleParses (text : String) : Bool := (sampleTimes text).isSome

def sampleActions : List Action :=
  [.createTask "task-1" "project-1" "phase-1", .createRun "run-1" "project-1" "phase-1" "task-1",
    .start 0 .written, .connect 0, .call 0 (.register ⟨"run-1", "claude", ⟨true, true, true⟩⟩),
    .serve (.request ⟨"run-1", wire sampleIdentity, .emergency_stop, "user-1", "stop", 1782900000000⟩ true),
    .sendRequest "run-1", .receiveRequest 0 0 "2026-07-01T10:00:05.000Z" .written, .flush 0,
    .receiveEvidence 0 true ("event-1", "event-2"), .receiveAck 0 0 .written,
    .call 0 (.release 0 ⟨"cancelled", true⟩ 1782900060000),
    .stopAnswered 0 "run-1" "2026-07-01T10:01:00.000Z" .written, .flush 0,
    .receiveEvidence 1 true ("event-3", "event-4")]

theorem sample_exited :
    ((run (step sampleParses sampleTimes) (initial [sampleIdentity]) sampleActions).db.cancellations.get?
      "run-1").map (fun row => row.state) = some .process_exited := by decide +kernel

theorem exit_proved_sample : ∃ row : StoredRow,
    (row.identity, "run-1") ∈ (run (step sampleParses sampleTimes) (initial [sampleIdentity]) sampleActions).reaped ∧
      ∃ agentRun, (run (step sampleParses sampleTimes) (initial [sampleIdentity]) sampleActions).db.runs.rows.get?
        "run-1" = some agentRun ∧ agentRun.state.isTerminal = true := by
  obtain ⟨row, hrow, hexited⟩ := Option.map_eq_some_iff.mp sample_exited
  exact ⟨row, exit_proved sampleParses sampleTimes [sampleIdentity] sampleActions hrow hexited⟩

end

/-! ### Runs that are registered once -/

section

variable {dateParses : String → Bool} {datetime : String → Option ℤ} {s : System} {d d' : Device}

/-- A run is registered once in a process, and not again after its process tree was reaped. -/
def RegistersOnce (s : System) : Action → Prop
  | .call i (.register registration) => ∀ d ∈ s.devices[i]?,
      (wire d.identity, registration.runId) ∉ s.reaped ∧ registration.runId ∉ d.registry.runs.map Prod.fst
  | _ => True

instance (s : System) (a : Action) : Decidable (RegistersOnce s a) := by
  unfold RegistersOnce
  split <;> infer_instance

/-- A device has no two registrations of a run, and none that is not released of a run that was reaped. -/
structure Single (reaped : List (DeviceIdentity × String)) (d : Device) : Prop where
  distinct : (d.registry.runs.map Prod.fst).Nodup
  running : ∀ run_id, (run_id, none) ∈ d.registry.runs → (wire d.identity, run_id) ∉ reaped

/-- An element that is set to one with the same value. -/
theorem map_set_of_same {α β : Type} {f : α → β} {l : List α} {i : ℕ} {a a' : α} (hget : l[i]? = some a)
    (hsame : f a' = f a) : (l.set i a').map f = l.map f := by
  refine List.ext_getElem? fun j => ?_
  rw [List.map_set, List.getElem?_set, List.length_map]
  split_ifs with hij hlt
  · rw [List.getElem?_map, ← hij, hget, hsame]
    rfl
  · subst hij
    exact absurd (List.getElem?_eq_some_iff.mp hget).1 hlt
  · rfl

/-- What an action of one device does to its registrations, but for the uses of the registry. -/
structure Leaves (d d' : Device) : Prop where
  identity : d'.identity = d.identity
  registry : d'.registry.runs = d.registry.runs ∨ d'.registry.runs = []

theorem Leaves.refl (d : Device) : Leaves d d := ⟨rfl, .inl rfl⟩

theorem leaves_fence (d : Device) (reason : String) : Leaves d (d.fence reason) := by
  unfold Device.fence
  split_ifs
  · exact .refl d
  · exact ⟨rfl, .inl (LiveRuns.cancelAll_cancels d.registry reason).runs⟩

theorem leaves_receiveRequest (d : Device) (frame : RequestFrame) (now : String) (outcome : Persist) :
    Leaves d (d.receiveRequest dateParses frame now outcome) := by
  unfold Device.receiveRequest
  split_ifs
  · exact .refl d
  · exact leaves_fence d _
  · unfold Device.receiveCancellation
    dsimp only
    split
    · exact ⟨rfl, .inl rfl⟩
    · split_ifs
      · exact ⟨rfl, .inl rfl⟩
      · exact ⟨rfl, .inl (LiveRuns.cancelAndWait_cancels d.registry _ _ _).runs⟩

theorem leaves_stopAnswered (d : Device) (run_id now : String) (outcome : Persist) :
    Leaves d (d.stopAnswered dateParses run_id now outcome) := by
  unfold Device.stopAnswered
  split
  · exact .refl d
  · split
    · exact .refl d
    · dsimp only
      split_ifs <;> exact ⟨rfl, .inl rfl⟩

theorem leaves_stopTimedOut (d : Device) (run_id : String) : Leaves d (d.stopTimedOut run_id) := by
  unfold Device.stopTimedOut
  split <;> exact ⟨rfl, .inl rfl⟩

theorem leaves_lateAnswered (d : Device) (j : ℕ) (now : String) (outcome : Persist) :
    Leaves d (d.lateAnswered dateParses j now outcome) := by
  unfold Device.lateAnswered
  split
  · exact .refl d
  · split
    · exact .refl d
    · dsimp only
      split_ifs <;> exact ⟨rfl, .inl rfl⟩

theorem leaves_receiveAck (d : Device) (frame : AckFrame) (outcome : Persist) :
    Leaves d (d.receiveAck dateParses frame outcome) := by
  unfold Device.receiveAck
  split_ifs
  · exact .refl d
  · exact leaves_fence d _
  · exact ⟨rfl, .inl rfl⟩

theorem Single.leaves {reaped : List (DeviceIdentity × String)} (h : Single reaped d) (hleaves : Leaves d d') :
    Single reaped d' := by
  rcases hleaves.registry with hruns | hruns
  · refine ⟨by rw [hruns]; exact h.distinct, fun run_id hmem => ?_⟩
    rw [hruns] at hmem
    rw [hleaves.identity]
    exact h.running run_id hmem
  · refine ⟨by rw [hruns]; exact List.nodup_nil, fun run_id hmem => ?_⟩
    rw [hruns] at hmem
    cases hmem

/-- The installations are told apart, and each registers its runs once. -/
structure Alone (s : System) : Prop where
  identities : (s.devices.map fun d => wire d.identity).Nodup
  single : ∀ d ∈ s.devices, Single s.reaped d

theorem Alone.onDevice (h : Alone s) (i : ℕ) (f : Device → Device) (hf : ∀ d, Leaves d (f d)) :
    Alone (s.onDevice i f) := by
  unfold System.onDevice
  cases hget : s.devices[i]? with
  | none => exact h
  | some d =>
    constructor
    · show ((s.devices.set i (f d)).map fun d => wire d.identity).Nodup
      rw [map_set_of_same hget (congrArg wire (hf d).identity)]
      exact h.identities
    · intro d' hmem
      rcases List.mem_or_eq_of_mem_set hmem with hmem | rfl
      · exact h.single d' hmem
      · exact (h.single d (List.mem_of_getElem? hget)).leaves (hf d)

/-- A use of the registry, of which no other device reaps anything. -/
theorem Single.call {reaped : List (DeviceIdentity × String)} (h : Single reaped d) {call : LiveRuns.Call}
    (honce : ∀ registration, call = .register registration →
      (wire d.identity, registration.runId) ∉ reaped ∧ registration.runId ∉ d.registry.runs.map Prod.fst) :
    Single (reaped ++ reapedBy d call) { d with registry := LiveRuns.step d.registry call } := by
  have hcancels : ∀ registry', LiveRuns.Cancels d.registry registry' → Single (reaped ++ [])
      { d with registry := registry' } := by
    intro registry' hcancels
    rw [List.append_nil]
    exact h.leaves ⟨rfl, .inl hcancels.runs⟩
  cases call with
  | register registration =>
    obtain ⟨hnew, habsent⟩ := honce registration rfl
    have hruns := LiveRuns.register_runs d.registry registration
    rw [show reapedBy d (.register registration) = [] from rfl, List.append_nil]
    constructor
    · show ((LiveRuns.register d.registry registration).runs.map Prod.fst).Nodup
      rw [hruns, List.map_append, List.nodup_append]
      refine ⟨h.distinct, List.nodup_singleton _, fun a ha b hb => ?_⟩
      rw [List.map_singleton, List.mem_singleton] at hb
      rintro rfl
      rw [hb] at ha
      exact habsent ha
    · intro run_id hmem
      have hmem' : (run_id, none) ∈ (LiveRuns.register d.registry registration).runs := hmem
      rw [hruns, List.mem_append, List.mem_singleton] at hmem'
      rcases hmem' with hmem' | heq
      · exact h.running run_id hmem'
      · rw [show run_id = registration.runId from congrArg Prod.fst heq]
        exact hnew
  | release i facts now =>
    show Single _ { d with registry := LiveRuns.release d.registry i facts now }
    cases hentry : d.registry.entries[i]? with
    | none =>
      have hby : reapedBy d (.release i facts now) = [] := by
        unfold reapedBy
        simp only [hentry]
      have hsame : LiveRuns.release d.registry i facts now = d.registry := by
        unfold LiveRuns.release
        rw [hentry]
      rw [hby, List.append_nil, hsame]
      exact h
    | some entry =>
      have hruns := LiveRuns.release_runs hentry facts now
      have hget := LiveRuns.runs_get? hentry
      obtain ⟨hlt, -⟩ := List.getElem?_eq_some_iff.mp hget
      have hnames : (LiveRuns.release d.registry i facts now).runs.map Prod.fst = d.registry.runs.map Prod.fst := by
        rw [hruns]
        exact map_set_of_same hget rfl
      constructor
      · show ((LiveRuns.release d.registry i facts now).runs.map Prod.fst).Nodup
        rw [hnames]
        exact h.distinct
      · intro run_id hmem
        obtain ⟨j, hj⟩ := List.mem_iff_getElem?.mp hmem
        have hj' : (LiveRuns.release d.registry i facts now).runs[j]? = some (run_id, none) := hj
        rw [hruns] at hj'
        -- a registration that is not released is another one, and so of another run
        have hij : i ≠ j := by
          rintro rfl
          rw [List.getElem?_set_self hlt] at hj'
          cases hterminal : entry.terminal <;> rw [hterminal] at hj' <;> cases hj'
        rw [List.getElem?_set_ne hij] at hj'
        have hne : run_id ≠ entry.runId := by
          rintro rfl
          have hfirst : (d.registry.runs.map Prod.fst)[i]? = some entry.runId := by
            rw [List.getElem?_map, hget]
            rfl
          have hsecond : (d.registry.runs.map Prod.fst)[j]? = some entry.runId := by
            rw [List.getElem?_map, hj']
            rfl
          have hbound : i < (d.registry.runs.map Prod.fst).length := by
            rw [List.length_map]
            exact hlt
          exact hij ((List.getElem?_inj hbound h.distinct).mp (hfirst.trans hsecond.symm))
        rw [List.mem_append, not_or]
        refine ⟨h.running run_id (List.mem_of_getElem? hj'), fun hby => ?_⟩
        unfold reapedBy at hby
        simp only [hentry] at hby
        split_ifs at hby
        · rw [List.mem_singleton] at hby
          exact hne (congrArg Prod.snd hby)
        · cases hby
  | cancelAll reason => exact hcancels _ (LiveRuns.cancelAll_cancels _ reason)
  | cancelAndWait runId reason publication => exact hcancels _ (LiveRuns.cancelAndWait_cancels _ _ _ _)
  | control runId kind message session => exact hcancels _ (LiveRuns.control_cancels _ _ _ _ _)

/-- What a device reaps is its own. -/
theorem reapedBy_identity {call : LiveRuns.Call} {entry : DeviceIdentity × String} (h : entry ∈ reapedBy d call) :
    entry.1 = wire d.identity := by
  unfold reapedBy at h
  split at h
  · split at h
    · cases h
    · split_ifs at h
      · rw [List.mem_singleton.mp h]
      · cases h
  all_goals cases h

theorem alone_step (h : Alone s) (a : Action) (honce : RegistersOnce s a) :
    Alone (step dateParses datetime s a) := by
  have hsame : ∀ {s' : System}, s'.devices = s.devices → s'.reaped = s.reaped → Alone s' := by
    intro s' hdevices hreaped
    refine ⟨by rw [hdevices]; exact h.identities, fun d hmem => ?_⟩
    rw [hdevices] at hmem
    rw [hreaped]
    exact h.single d hmem
  cases a with
  | serve request =>
    unfold step
    dsimp only
    split_ifs
    · exact hsame rfl rfl
    · exact h
  | createTask id project_id phase_id => exact hsame rfl rfl
  | createRun id project_id phase_id task_id => exact hsame rfl rfl
  | transitionTask input => exact hsame rfl rfl
  | transitionRun input => exact hsame rfl rfl
  | setFindings findings => exact hsame rfl rfl
  | sendRequest run_id =>
    unfold step
    dsimp only
    split
    · exact h
    · exact hsame rfl rfl
  | receiveEvidence k verified event_ids =>
    unfold step
    dsimp only
    split
    · exact h
    · split_ifs
      · unfold System.receiveEvidence
        split
        · exact h
        · split
          · exact h
          · exact hsame rfl rfl
      · exact h
  | start i outcome =>
    refine h.onDevice i _ fun d => ?_
    split_ifs <;> exact ⟨rfl, .inl rfl⟩
  | exit i => exact h.onDevice i _ fun d => ⟨rfl, .inr rfl⟩
  | connect i =>
    refine h.onDevice i _ fun d => ?_
    split_ifs <;> exact ⟨rfl, .inl rfl⟩
  | disconnect i => exact h.onDevice i _ fun d => ⟨rfl, .inl rfl⟩
  | call i call =>
    unfold step
    dsimp only
    cases hget : s.devices[i]? with
    | none => exact h
    | some d =>
      dsimp only
      split_ifs
      · obtain ⟨hlt, -⟩ := List.getElem?_eq_some_iff.mp hget
        have hmoved : Single (s.reaped ++ reapedBy d call) { d with registry := LiveRuns.step d.registry call } := by
          refine (h.single d (List.mem_of_getElem? hget)).call fun registration hcall => ?_
          subst hcall
          exact honce d hget
        have hset : (s.devices.set i { d with registry := LiveRuns.step d.registry call }).map
            (fun d => wire d.identity) = s.devices.map fun d => wire d.identity := map_set_of_same hget rfl
        constructor
        · show (List.map _ (s.devices.set i _)).Nodup
          rw [hset]
          exact h.identities
        · intro d' hmem
          obtain ⟨j, hj⟩ := List.mem_iff_getElem?.mp hmem
          have hj' : (s.devices.set i { d with registry := LiveRuns.step d.registry call })[j]? = some d' := hj
          by_cases hij : i = j
          · subst hij
            rw [List.getElem?_set_self hlt] at hj'
            cases hj'
            exact hmoved
          · rw [List.getElem?_set_ne hij] at hj'
            have hother := h.single d' (List.mem_of_getElem? hj')
            refine ⟨hother.distinct, fun run_id hrun => ?_⟩
            show _ ∉ s.reaped ++ reapedBy d call
            rw [List.mem_append, not_or]
            refine ⟨hother.running run_id hrun, fun hby => hij ?_⟩
            have hidentity : wire d'.identity = wire d.identity := reapedBy_identity hby
            have hfirst : (s.devices.map fun d => wire d.identity)[i]? = some (wire d.identity) := by
              rw [List.getElem?_map, hget]
              rfl
            have hsecond : (s.devices.map fun d => wire d.identity)[j]? = some (wire d.identity) := by
              rw [List.getElem?_map, hj', ← hidentity]
              rfl
            have hbound : i < (s.devices.map fun d => wire d.identity).length := by
              rw [List.length_map]
              exact hlt
            exact (List.getElem?_inj hbound h.identities).mp (hfirst.trans hsecond.symm)
      · exact h
  | receiveRequest i k now outcome =>
    unfold step
    dsimp only
    split
    · exact h
    · rename_i frame hget
      refine h.onDevice i _ fun d => ?_
      split_ifs
      · exact leaves_receiveRequest d frame now outcome
      · exact .refl d
  | stopAnswered i run_id now outcome => exact h.onDevice i _ fun d => leaves_stopAnswered d run_id now outcome
  | stopTimedOut i run_id => exact h.onDevice i _ fun d => leaves_stopTimedOut d run_id
  | lateAnswered i j now outcome => exact h.onDevice i _ fun d => leaves_lateAnswered d j now outcome
  | flush i =>
    unfold step
    dsimp only
    split
    · exact h
    · exact hsame rfl rfl
  | receiveAck i k outcome =>
    unfold step
    dsimp only
    split
    · exact h
    · rename_i frame hget
      refine h.onDevice i _ fun d => ?_
      split_ifs
      · exact leaves_receiveAck d frame outcome
      · exact .refl d

theorem alone_initial {identities : List DeviceWssIdentity} (h : (identities.map wire).Nodup) :
    Alone (initial identities) := by
  constructor
  · show ((identities.map fun identity => ({ identity } : Device)).map fun d => wire d.identity).Nodup
    rw [List.map_map]
    exact h
  · intro d hmem
    obtain ⟨identity, -, rfl⟩ := List.mem_map.mp hmem
    exact ⟨List.nodup_nil, fun _ hrun => by cases hrun⟩

/-- **Nothing runs on.** Where the installations have different identities and each run is registered once, a run
whose cancellation is recorded as exited is live on no installation of the device that the cancellation names. -/
theorem exit_not_live (dateParses : String → Bool) (datetime : String → Option ℤ)
    (identities : List DeviceWssIdentity) (hidentities : (identities.map wire).Nodup) (as : List Action)
    (honce : Along (step dateParses datetime) RegistersOnce (initial identities) as) {run_id : String}
    {row : StoredRow}
    (hrow : (run (step dateParses datetime) (initial identities) as).db.cancellations.get? run_id = some row)
    (hexited : row.state = .process_exited) :
    ∀ d ∈ (run (step dateParses datetime) (initial identities) as).devices, wire d.identity = row.identity →
      d.registry.live.get? run_id = none := by
  have htruthful := run_truthful dateParses datetime identities as
  have halone : Alone (run (step dateParses datetime) (initial identities) as) :=
    run_induct (I := Alone) (fun _ a h honce => alone_step h a honce) (alone_initial hidentities) honce
  generalize run (step dateParses datetime) (initial identities) as = s at hrow htruthful halone ⊢
  intro d hmem hidentity
  cases hlive : d.registry.live.get? run_id with
  | none => rfl
  | some i =>
    have hunreleased := ((htruthful.devices d hmem).exact run_id i).mp hlive
    have hrunning := (halone.single d hmem).running run_id (List.mem_of_getElem? hunreleased.1)
    rw [hidentity] at hrunning
    exact absurd (htruthful.proved run_id row hrow ((exited_iff row).mp hexited)) hrunning

theorem exit_not_live_sample : ∃ row : StoredRow,
    ∀ d ∈ (run (step sampleParses sampleTimes) (initial [sampleIdentity]) sampleActions).devices,
      wire d.identity = row.identity → d.registry.live.get? "run-1" = none := by
  obtain ⟨row, hrow, hexited⟩ := Option.map_eq_some_iff.mp sample_exited
  exact ⟨row, exit_not_live sampleParses sampleTimes [sampleIdentity] (by decide +kernel) sampleActions
    (by decide +kernel) hrow hexited⟩

end

/-! ### What a device has recorded -/

section

variable {dateParses : String → Bool} {datetime : String → Option ℤ} {s s' : System} {d d' : Device}
  {db db' : Database} {confirmed : String → Prop}

/-- The exit of the run is recorded for the device. -/
def Exited (db : Database) (identity : DeviceIdentity) (run_id : String) : Prop :=
  ∃ row, db.cancellations.get? run_id = some row ∧ row.identity = identity ∧ row.state = .process_exited

theorem Exited.kept {identity : DeviceIdentity} {run_id : String} (h : Exited db identity run_id)
    (hrows : RowsKept db db') : Exited db' identity run_id := by
  obtain ⟨row, hrow, hidentity, hstate⟩ := h
  obtain ⟨row', hrow', hguarded⟩ := hrows run_id row hrow
  obtain ⟨t, ht⟩ := Option.isSome_iff_exists.mp ((exited_iff row).mp hstate)
  refine ⟨row', hrow', hguarded.identity.trans hidentity, (exited_iff row').mpr ?_⟩
  rw [hguarded.exited t ht]
  rfl

variable (dateParses confirmed) in
/-- What an action of a device does to its journal. -/
inductive Journals (d : Device) : Journal.State → Prop
  | same : Journals d d.journal
  | shut : Journals d { d.journal with memory := none }
  | performed (op : Journal.Op) (confirms : Journal.Confirms confirmed op) :
    Journals d (Journal.perform d.identity dateParses d.journal op).2

theorem journals_fence (d : Device) (reason : String) : Journals dateParses confirmed d (d.fence reason).journal := by
  unfold Device.fence
  split_ifs <;> exact .same

theorem journals_receiveRequest (d : Device) (frame : RequestFrame) (now : String) (outcome : Persist) :
    Journals dateParses confirmed d (d.receiveRequest dateParses frame now outcome).journal := by
  unfold Device.receiveRequest
  split_ifs
  · exact .same
  · exact journals_fence d _
  · have hperformed : Journals dateParses confirmed d (Journal.perform d.identity dateParses d.journal
        (.acknowledge frame.run_id now outcome)).2 := .performed (.acknowledge frame.run_id now outcome) trivial
    unfold Device.receiveCancellation
    dsimp only
    generalize Journal.perform d.identity dateParses d.journal (.acknowledge frame.run_id now outcome) = result
      at hperformed ⊢
    obtain ⟨error | answer, journal⟩ := result
    · exact hperformed
    · dsimp only
      split_ifs <;> exact hperformed

theorem journals_stopAnswered (d : Device) (run_id now : String) (outcome : Persist) :
    Journals dateParses confirmed d (d.stopAnswered dateParses run_id now outcome).journal := by
  unfold Device.stopAnswered
  split
  · exact .same
  · split
    · exact .same
    · dsimp only
      split_ifs
      · exact .performed (.recordProcessExited run_id now outcome) trivial
      · exact .same

theorem journals_stopTimedOut (d : Device) (run_id : String) :
    Journals dateParses confirmed d (d.stopTimedOut run_id).journal := by
  unfold Device.stopTimedOut
  split <;> exact .same

theorem journals_lateAnswered (d : Device) (j : ℕ) (now : String) (outcome : Persist) :
    Journals dateParses confirmed d (d.lateAnswered dateParses j now outcome).journal := by
  unfold Device.lateAnswered
  split
  · exact .same
  · split
    · exact .same
    · dsimp only
      split_ifs
      · exact .performed (.recordProcessExited _ now outcome) trivial
      · exact .same

theorem journals_receiveAck (d : Device) (frame : AckFrame) (outcome : Persist)
    (hexited : frame.evidence_state = .process_exited → confirmed frame.run_id) :
    Journals dateParses confirmed d (d.receiveAck dateParses frame outcome).journal := by
  unfold Device.receiveAck
  split_ifs
  · exact .same
  · exact journals_fence d _
  · refine .performed (.markServerAcknowledged frame.run_id (deviceState frame.evidence_state) outcome) ?_
    cases hstate : frame.evidence_state with
    | runner_acknowledged => trivial
    | process_exited => exact hexited hstate

/-- The files go on, and what they hold is not lost before its exit is confirmed. -/
theorem Journals.ahead {journal : Journal.State} (h : Journals dateParses confirmed d journal)
    (hintact : Journal.Intact d.identity dateParses d.journal) (hahead : Journal.Ahead dateParses confirmed d.journal) :
    Journal.Ahead dateParses confirmed journal ∧
      Journal.Outlasts confirmed (Journal.onDisk dateParses d.journal) (Journal.onDisk dateParses journal) := by
  cases h with
  | same => exact ⟨hahead, .refl _⟩
  | shut => exact ⟨hahead.shut, .refl _⟩
  | performed op confirms => exact hahead.perform hintact confirms

variable (dateParses) in
/-- An exit is acknowledged, and marked by a device, only where it is recorded. -/
structure Confirmed (s : System) : Prop where
  acks : ∀ ack ∈ s.acks, ack.evidence_state = .process_exited → Exited s.db ack.identity ack.run_id
  ahead : ∀ d ∈ s.devices, Journal.Ahead dateParses (Exited s.db (wire d.identity)) d.journal

variable (dateParses) in
/-- What steps keep: the rows, and what the files of the devices hold. -/
structure Goes (s s' : System) : Prop where
  rows : RowsKept s.db s'.db
  devices : ∀ (i : ℕ) (d : Device), s.devices[i]? = some d → ∃ d' : Device, s'.devices[i]? = some d' ∧
    d'.identity = d.identity ∧
    Journal.Outlasts (Exited s'.db (wire d.identity)) (Journal.onDisk dateParses d.journal)
      (Journal.onDisk dateParses d'.journal)

theorem Goes.refl (s : System) : Goes dateParses s s :=
  ⟨.refl _, fun _ d h => ⟨d, h, rfl, .refl _⟩⟩

theorem Goes.trans {a b c : System} (h : Goes dateParses a b) (h' : Goes dateParses b c) : Goes dateParses a c := by
  refine ⟨h.rows.trans h'.rows, fun i d hget => ?_⟩
  obtain ⟨d', hget', hidentity, houtlasts⟩ := h.devices i d hget
  obtain ⟨d'', hget'', hidentity', houtlasts'⟩ := h'.devices i d' hget'
  rw [hidentity] at houtlasts'
  exact ⟨d'', hget'', hidentity'.trans hidentity,
    (houtlasts.mono fun run_id hexited => hexited.kept h'.rows).trans houtlasts'⟩

theorem goes_of_same (hrows : RowsKept s.db s'.db) (hdevices : s'.devices = s.devices) : Goes dateParses s s' :=
  ⟨hrows, fun i d hget => ⟨d, by rw [hdevices]; exact hget, rfl, .refl _⟩⟩

/-- The server's database goes on. -/
theorem Confirmed.server (h : Confirmed dateParses s) (hrows : RowsKept s.db s'.db) (hdevices : s'.devices = s.devices)
    (hacks : ∀ ack ∈ s'.acks, ack ∈ s.acks ∨
      (ack.evidence_state = .process_exited → Exited s'.db ack.identity ack.run_id)) :
    Confirmed dateParses s' ∧ Goes dateParses s s' := by
  refine ⟨⟨fun ack hmem hstate => ?_, fun d hmem => ?_⟩, goes_of_same hrows hdevices⟩
  · rcases hacks ack hmem with hold | hnew
    · exact (h.acks ack hold hstate).kept hrows
    · exact hnew hstate
  · rw [hdevices] at hmem
    exact (h.ahead d hmem).mono fun run_id hexited => hexited.kept hrows

/-- An action of one device. -/
theorem Confirmed.onDevice (h : Confirmed dateParses s) (htruthful : Truthful dateParses s) (i : ℕ)
    (f : Device → Device) (hidentity : ∀ d, (f d).identity = d.identity)
    (hf : ∀ d, Journals dateParses (Exited s.db (wire d.identity)) d (f d).journal) :
    Confirmed dateParses (s.onDevice i f) ∧ Goes dateParses s (s.onDevice i f) := by
  unfold System.onDevice
  cases hget : s.devices[i]? with
  | none => exact ⟨h, .refl s⟩
  | some d =>
    obtain ⟨hlt, -⟩ := List.getElem?_eq_some_iff.mp hget
    have hmem := List.mem_of_getElem? hget
    obtain ⟨hahead, houtlasts⟩ := (hf d).ahead (htruthful.devices d hmem).intact (h.ahead d hmem)
    refine ⟨⟨h.acks, fun d' hmem' => ?_⟩, .refl _, fun j other hother => ?_⟩
    · rcases List.mem_or_eq_of_mem_set hmem' with hmem' | rfl
      · exact h.ahead d' hmem'
      · rw [hidentity d]
        exact hahead
    · by_cases hij : i = j
      · subst hij
        cases hget.symm.trans hother
        exact ⟨f d, List.getElem?_set_self hlt, hidentity d, houtlasts⟩
      · exact ⟨other, (List.getElem?_set_ne hij).trans hother, rfl, .refl _⟩

/-- The server answers evidence that it has recorded. -/
theorem Confirmed.evidence (h : Confirmed dateParses s) (frame : EvidenceFrame) (event_ids : String × String) :
    Confirmed dateParses (s.receiveEvidence datetime frame event_ids) ∧
      Goes dateParses s (s.receiveEvidence datetime frame event_ids) := by
  unfold System.receiveEvidence
  split
  · exact ⟨h, .refl s⟩
  · rename_i request hrequest
    split
    · exact ⟨h, .refl s⟩
    · rename_i db hserve
      obtain ⟨input, row, new, hevidence, hrun, hidentity, -, -⟩ := frame_evidenced hrequest hserve
      refine h.server hevidence.rowsKept rfl fun ack hmem => ?_
      rcases List.mem_append.mp hmem with hmem | hmem
      · exact .inl hmem
      · rw [List.mem_singleton.mp hmem]
        refine .inr fun hstate => ⟨new, ?_, ?_, (exited_iff new).mpr (hevidence.times.2.1 hstate)⟩
        · show db.cancellations.get? frame.run_id = some new
          rw [hevidence.set, hrun]
          exact OrdMap.get?_set_self _ _ _
        · exact (hevidence.guarded.identity.trans hevidence.identity).trans hidentity

theorem confirmed_step (h : Confirmed dateParses s) (htruthful : Truthful dateParses s) (a : Action) :
    Confirmed dateParses (step dateParses datetime s a) ∧ Goes dateParses s (step dateParses datetime s a) := by
  have hserver : ∀ {db : Database}, RowsKept s.db db →
      Confirmed dateParses { s with db := db } ∧ Goes dateParses s { s with db := db } :=
    fun hrows => h.server hrows rfl fun ack hmem => .inl hmem
  have hsame : ∀ {db : Database}, db.cancellations = s.db.cancellations → RowsKept s.db db :=
    fun hcancellations => (allQuiet_of_same hcancellations).rowsKept
  have hidle : Confirmed dateParses s ∧ Goes dateParses s s := ⟨h, .refl s⟩
  cases a with
  | serve request =>
    unfold step
    dsimp only
    split_ifs
    · exact hserver (serveStep_rowsKept s.db request)
    · exact hidle
  | createTask id project_id phase_id => exact hserver (hsame rfl)
  | createRun id project_id phase_id task_id => exact hserver (hsame rfl)
  | transitionTask input =>
    exact hserver (hsame (commit_induct (P := fun db => db.cancellations = s.db.cancellations) rfl
      fun db' hok => (transitionTask_ok hok).1))
  | transitionRun input =>
    exact hserver (hsame (commit_induct (P := fun db => db.cancellations = s.db.cancellations) rfl
      fun db' hok => (transitionRun_ok hok).1))
  | setFindings findings => exact hserver (hsame rfl)
  | sendRequest run_id =>
    unfold step
    dsimp only
    split
    · exact hidle
    · exact h.server (.refl _) rfl fun ack hmem => .inl hmem
  | receiveEvidence k verified event_ids =>
    unfold step
    dsimp only
    split
    · exact hidle
    · split_ifs
      · exact h.evidence _ event_ids
      · exact hidle
  | start i outcome =>
    refine h.onDevice htruthful i _ (fun d => ?_) fun d => ?_
    · split_ifs <;> rfl
    · split_ifs
      · exact .same
      · exact .performed (.open_ outcome) trivial
  | exit i => exact h.onDevice htruthful i _ (fun d => rfl) fun d => .shut
  | connect i =>
    refine h.onDevice htruthful i _ (fun d => ?_) fun d => ?_
    · split_ifs <;> rfl
    · split_ifs <;> exact .same
  | disconnect i => exact h.onDevice htruthful i _ (fun d => rfl) fun d => .same
  | call i call =>
    have hcall : Confirmed dateParses (s.onDevice i fun d => { d with registry := LiveRuns.step d.registry call }) ∧
        Goes dateParses s (s.onDevice i fun d => { d with registry := LiveRuns.step d.registry call }) :=
      h.onDevice htruthful i _ (fun d => rfl) fun d => .same
    unfold System.onDevice at hcall
    unfold step
    dsimp only
    split
    · exact hidle
    · rename_i d hget
      rw [hget] at hcall
      split_ifs
      · exact ⟨⟨hcall.1.acks, hcall.1.ahead⟩, hcall.2.rows, hcall.2.devices⟩
      · exact hidle
  | receiveRequest i k now outcome =>
    unfold step
    dsimp only
    split
    · exact hidle
    · rename_i frame hget
      refine h.onDevice htruthful i _ (fun d => ?_) fun d => ?_
      · split_ifs
        · exact (leaves_receiveRequest d frame now outcome).identity
        · rfl
      · split_ifs
        · exact journals_receiveRequest d frame now outcome
        · exact .same
  | stopAnswered i run_id now outcome =>
    exact h.onDevice htruthful i _ (fun d => (leaves_stopAnswered d run_id now outcome).identity)
      fun d => journals_stopAnswered d run_id now outcome
  | stopTimedOut i run_id =>
    exact h.onDevice htruthful i _ (fun d => (leaves_stopTimedOut d run_id).identity)
      fun d => journals_stopTimedOut d run_id
  | lateAnswered i j now outcome =>
    exact h.onDevice htruthful i _ (fun d => (leaves_lateAnswered d j now outcome).identity)
      fun d => journals_lateAnswered d j now outcome
  | flush i =>
    unfold step
    dsimp only
    split
    · exact hidle
    · exact h.server (.refl _) rfl fun ack hmem => .inl hmem
  | receiveAck i k outcome =>
    unfold step
    dsimp only
    split
    · exact hidle
    · rename_i frame hget
      refine h.onDevice htruthful i _ (fun d => ?_) fun d => ?_
      · split_ifs
        · exact (leaves_receiveAck d frame outcome).identity
        · rfl
      · split_ifs with hroute
        · refine journals_receiveAck d frame outcome fun hstate => ?_
          rw [← hroute.1]
          exact h.acks frame (List.mem_of_getElem? hget) hstate
        · exact .same

theorem confirmed_initial (identities : List DeviceWssIdentity) : Confirmed dateParses (initial identities) := by
  refine ⟨fun ack hmem => (by cases hmem), fun d hmem => ?_⟩
  obtain ⟨identity, -, rfl⟩ := List.mem_map.mp hmem
  constructor
  · constructor
    · rintro _ ⟨⟩
    · intro run_id record hget
      cases hget
  · rintro _ ⟨⟩

/-- **No evidence is lost.** What the file of a device holds of a run it holds, or more than that, in every later
state, through crashes, failed writes, and frames that are lost, repeated or late, until the server has recorded
that the run's processes exited on that device. -/
theorem evidence_kept (dateParses : String → Bool) (datetime : String → Option ℤ)
    (identities : List DeviceWssIdentity) (as bs : List Action) {i : ℕ} {d : Device} {run_id : String}
    {record : Journal.Evidence}
    (hd : (run (step dateParses datetime) (initial identities) as).devices[i]? = some d)
    (hrecord : (Journal.onDisk dateParses d.journal).get? run_id = some record) :
    ∃ d', (run (step dateParses datetime) (initial identities) (as ++ bs)).devices[i]? = some d' ∧
      d'.identity = d.identity ∧
      ((∃ record', (Journal.onDisk dateParses d'.journal).get? run_id = some record' ∧ record.Le record') ∨
        ∃ row, (run (step dateParses datetime) (initial identities) (as ++ bs)).db.cancellations.get? run_id =
          some row ∧ row.identity = wire d.identity ∧ row.state = .process_exited) := by
  have hconfirmed : Truthful dateParses (run (step dateParses datetime) (initial identities) as) ∧
      Confirmed dateParses (run (step dateParses datetime) (initial identities) as) :=
    run_induct' (I := fun s => Truthful dateParses s ∧ Confirmed dateParses s)
      (fun _ a h => ⟨truthful_step h.1 a, (confirmed_step h.2 h.1 a).1⟩)
      ⟨truthful_initial identities, confirmed_initial identities⟩ as
  rw [run_append]
  generalize run (step dateParses datetime) (initial identities) as = s at hd hconfirmed ⊢
  have hgoes : (Truthful dateParses (run (step dateParses datetime) s bs) ∧
      Confirmed dateParses (run (step dateParses datetime) s bs)) ∧
      Goes dateParses s (run (step dateParses datetime) s bs) :=
    run_induct' (I := fun s' => (Truthful dateParses s' ∧ Confirmed dateParses s') ∧ Goes dateParses s s')
      (fun _ a h => ⟨⟨truthful_step h.1.1 a, (confirmed_step h.1.2 h.1.1 a).1⟩,
        h.2.trans (confirmed_step h.1.2 h.1.1 a).2⟩) ⟨hconfirmed, .refl s⟩ bs
  obtain ⟨d', hd', hidentity, houtlasts⟩ := hgoes.2.devices i d hd
  exact ⟨d', hd', hidentity, (houtlasts run_id record hrecord).symm⟩

/-- A device that has recorded an exit ends, and cannot open its journal at first. -/
def sampleRestart : List Action := [.exit 0, .start 0 .failed, .start 0 .written, .connect 0]

theorem evidence_kept_sample : ∃ (d : Device) (record : Journal.Evidence),
    (Journal.onDisk sampleParses d.journal).get? "run-1" = some record ∧
    ∃ d', (run (step sampleParses sampleTimes) (initial [sampleIdentity])
        (sampleActions.take 13 ++ sampleRestart)).devices[0]? = some d' ∧
      d'.identity = d.identity ∧
      ((∃ record', (Journal.onDisk sampleParses d'.journal).get? "run-1" = some record' ∧ record.Le record') ∨
        ∃ row, (run (step sampleParses sampleTimes) (initial [sampleIdentity])
          (sampleActions.take 13 ++ sampleRestart)).db.cancellations.get? "run-1" = some row ∧
          row.identity = wire d.identity ∧ row.state = .process_exited) := by
  have hsome : ((run (step sampleParses sampleTimes) (initial [sampleIdentity])
      (sampleActions.take 13)).devices[0]?.bind fun d =>
        (Journal.onDisk sampleParses d.journal).get? "run-1").isSome = true := by decide +kernel
  obtain ⟨record, hfound⟩ := Option.isSome_iff_exists.mp hsome
  obtain ⟨d, hd, hrecord⟩ := Option.bind_eq_some_iff.mp hfound
  exact ⟨d, record, hrecord, evidence_kept sampleParses sampleTimes [sampleIdentity] (sampleActions.take 13)
    sampleRestart hd hrecord⟩

end

end Norns.Devices.CancellationRuns
