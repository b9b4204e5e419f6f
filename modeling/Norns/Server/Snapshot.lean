import Mathlib
import Norns.Lib.Run
import Norns.Server.Stores

/-! # Snapshots of the relay stores

The class `RelayStores` of `stores.ts` with everything it keeps: the durable `StoreState`, the cached
text of its last snapshot, and the memory of the rate limiter, which no snapshot contains. Every
operation invalidates the cache where the code does (`write`), and `restore` compacts an audit log
of at least ten thousand entries.

* `Coherent`: the cached text is the text of the state; every operation keeps it;
* `Compacts`: what a compaction may remove;
* `perform_prepend`: an operation other than a read of the audit log does not depend on the log;
* `snapshot_restore`: a restored store behaves like the original with an empty rate limiter.

A JavaScript record is an ordered map, with the restrictions that `Server.Stores` names. -/

namespace Norns.Server.Snapshot

open Norns.Lib Norns.Lib.Run Norns.Contracts.Protocol Norns.Server.Stores

/-- Times are in milliseconds. -/
structure AuditEntry where
  /-- `at` -/
  at_ : ℤ
  actor : String
  action : String
  detail : String
  deriving DecidableEq, Repr

structure PairingRecord where
  code : String
  expires_at : ℤ
  deriving DecidableEq, Repr

structure StoreState where
  /-- `runners`, `commands`, `eventsByRunner` and `watermark` -/
  stores : RelayStores
  audit : List AuditEntry
  pairings : OrdMap String PairingRecord
  killSwitch : Bool
  deriving DecidableEq

/-- `JSON.stringify` and `JSON.parse` on states: what was written is read back. -/
structure StateJson (Text : Type) where
  stringify : StoreState → Text
  parse : Text → Option StoreState
  parse_stringify : ∀ s, parse (stringify s) = some s

/-- The class `RelayStores`. -/
structure DurableStores (Text : Type) where
  state : StoreState
  serializedSnapshot : Option Text
  /-- Process memory: no snapshot contains it. -/
  rateLimitedAuditAt : OrdMap String ℤ

def RUNNER_EVENT_REJECTED_ACTION : String := "runner.event_rejected"

def RUNNER_EVENT_REJECTION_AUDIT_WINDOW_MS : ℤ := 60000

def RELAY_AUDIT_COMPACTION_THRESHOLD : ℕ := 10000

/-- The character `\u0000` between the parts of a key. -/
def nul : String := "\x00"

/-! ### Compaction -/

/-- The minute of an entry. -/
def AuditEntry.bucket (entry : AuditEntry) : ℤ :=
  entry.at_ / RUNNER_EVENT_REJECTION_AUDIT_WINDOW_MS

def AuditEntry.key (entry : AuditEntry) : String :=
  entry.actor ++ nul ++ entry.detail ++ nul ++ toString entry.bucket

/-- The variables of the loop. -/
structure Collapse where
  rejectionBuckets : List String
  compacted : List AuditEntry
  removed : ℕ
  deriving DecidableEq

/-- One entry. The time of an entry was written by `toISOString`, so that it can be parsed. -/
def Collapse.next (c : Collapse) (entry : AuditEntry) : Collapse :=
  if entry.action ≠ RUNNER_EVENT_REJECTED_ACTION then
    { c with compacted := c.compacted ++ [entry] }
  else if entry.key ∈ c.rejectionBuckets then { c with removed := c.removed + 1 }
  else
    { c with
      rejectionBuckets := c.rejectionBuckets ++ [entry.key]
      compacted := c.compacted ++ [entry] }

def collapse (audit : List AuditEntry) : Collapse := audit.foldl Collapse.next ⟨[], [], 0⟩

/-- The entry that records a compaction. -/
def compactedEntry (audit : List AuditEntry) (removed : ℕ) : AuditEntry where
  at_ := (audit.getLast?.map AuditEntry.at_).getD 0
  actor := "system"
  action := "audit.compacted"
  detail := "Collapsed " ++ toString removed ++ " repeated " ++ RUNNER_EVENT_REJECTED_ACTION ++
    " records into one sample per minute."

/-- The state and whether it was compacted. -/
def compactPathologicalRunnerRejections (state : StoreState) : StoreState × Bool :=
  if state.audit.length < RELAY_AUDIT_COMPACTION_THRESHOLD then (state, false)
  else
    let c := collapse state.audit
    if c.removed = 0 then (state, false)
    else ({ state with audit := c.compacted ++ [compactedEntry state.audit c.removed] }, true)

/-! ### The operations -/

namespace DurableStores

variable {Text : Type} (json : StateJson Text)

def new : DurableStores Text := ⟨⟨.new, [], OrdMap.empty, false⟩, none, OrdMap.empty⟩

variable (s : DurableStores Text)

/-- Write to the state, then `changed()`. -/
def write (state : StoreState) : DurableStores Text :=
  { s with state := state, serializedSnapshot := none }

def snapshot : DurableStores Text × Text :=
  match s.serializedSnapshot with
  | some text => (s, text)
  | none =>
    ({ s with serializedSnapshot := some (json.stringify s.state) }, json.stringify s.state)

def restore (text : Text) : Option (DurableStores Text) :=
  (json.parse text).map fun state =>
    let (state, compacted) := compactPathologicalRunnerRejections state
    ⟨state, if compacted then none else some text, OrdMap.empty⟩

def audit (actor action detail : String) (now : ℤ) : DurableStores Text :=
  s.write { s.state with audit := s.state.audit ++ [⟨now, actor, action, detail⟩] }

def auditRateLimited (actor action detail : String) (now windowMs : ℤ) :
    DurableStores Text × Bool :=
  let key := actor ++ nul ++ action ++ nul ++ detail
  if (s.rateLimitedAuditAt.get? key).any fun prior => decide (now - prior < windowMs) then
    (s, false)
  else
    ({ s with rateLimitedAuditAt := s.rateLimitedAuditAt.set key now }.audit actor action detail now,
      true)

def createPairing (code : String) (expiresAt : ℤ) : DurableStores Text :=
  s.write { s.state with pairings := s.state.pairings.set code ⟨code, expiresAt⟩ }

def consumePairing (code : String) (now : ℤ) : DurableStores Text × Bool :=
  match s.state.pairings.get? code with
  | none => (s, false)
  | some record =>
    (s.write { s.state with pairings := s.state.pairings.delete code },
      decide (now < record.expires_at))

/-- Replace the relay's part of the state. -/
def writeStores (stores : RelayStores) : DurableStores Text :=
  s.write { s.state with stores := stores }

def registerRunner (runnerId publicKeyPem : String) : DurableStores Text × RunnerRecord :=
  let (stores, record) := s.state.stores.registerRunner runnerId publicKeyPem
  (s.writeStores stores, record)

def reserveRunnerGeneration (runnerId : String) : DurableStores Text × ℕ :=
  let (stores, generation) := s.state.stores.reserveRunnerGeneration runnerId
  (s.writeStores stores, generation)

/-- A reservation that has moved on changes nothing. -/
def enrollRunnerAtGeneration (runnerId publicKeyPem : String) (generation : ℕ) :
    DurableStores Text × Option RunnerRecord :=
  let (stores, record) :=
    s.state.stores.enrollRunnerAtGeneration runnerId publicKeyPem generation
  match s.state.stores.runners.get? runnerId with
  | none => (s.writeStores stores, record)
  | some existing =>
    if existing.generation ≠ generation then (s, none)
    else if existing.public_key_pem ≠ "" ∧ existing.public_key_pem ≠ publicKeyPem then (s, none)
    else (s.writeStores stores, record)

def restoreDurableRunnerIdentity (runnerId publicKeyPem : String) (generation : ℕ) :
    DurableStores Text × RunnerRecord :=
  let (stores, record) :=
    s.state.stores.restoreDurableRunnerIdentity runnerId publicKeyPem generation
  (s.writeStores stores, record)

def runner (runnerId : String) : Option RunnerRecord := s.state.stores.runners.get? runnerId

def runners : List RunnerRecord := s.state.stores.runners.values

def markSeen (runnerId : String) (now : ℕ) : DurableStores Text :=
  match s.state.stores.runners.get? runnerId with
  | none => s
  | some record => s.writeStores { s.state.stores with
      runners := s.state.stores.runners.set runnerId { record with last_seen_at := some now } }

def revokeRunnerSessions (runnerId : String) : Except String (DurableStores Text × ℕ) :=
  match s.state.stores.revokeRunnerSessions runnerId with
  | .error message => .error message
  | .ok (stores, generation) => .ok (s.writeStores stores, generation)

/-- A replay returns the record it finds, and changes nothing. -/
def enqueueCommand (envelope : CommandEnvelope) (now : ℕ) :
    Except String (DurableStores Text × CommandRecord) :=
  match s.state.stores.enqueueCommand envelope now with
  | .error message => .error message
  | .ok (stores, record) =>
    if s.state.stores.commands.has envelope.command_id then .ok (s, record)
    else .ok (s.writeStores stores, record)

def command (commandId : String) : Option CommandRecord := s.state.stores.commands.get? commandId

/-- The record was written in place. -/
def writeCommand (commandId : String) (record : CommandRecord) : DurableStores Text :=
  s.writeStores { s.state.stores with commands := s.state.stores.commands.set commandId record }

def setCommandState (commandId : String) (target : CommandState) (now : ℕ) :
    DurableStores Text × Option CommandRecord :=
  match s.state.stores.commands.get? commandId with
  | none => (s, none)
  | some record =>
    if record.state = target then (s, some record)
    else if record.state.isTerminal then
      if target.isTerminal ∧ record.superseded_terminal ≠ some target then
        let record := { record with superseded_terminal := some target }
        (s.writeCommand commandId record, some record)
      else (s, some record)
    else if !canCommandTransition record.state target then (s, some record)
    else
      let record := { record with state := target, updated_at := now }
      (s.writeCommand commandId record, some record)

/-- One record of the loop of `pendingCommandsFor`. -/
def collectPending (runnerId : String) (executedCommandIds : List String) (now : ℕ)
    (acc : DurableStores Text × List CommandEnvelope) (record : CommandRecord) :
    DurableStores Text × List CommandEnvelope :=
  if record.envelope.runner_id ≠ runnerId then acc
  else if record.state ≠ .queued ∧ record.state ≠ .delivered then acc
  else if record.envelope.command_id ∈ executedCommandIds then acc
  else if isCommandExpired record.envelope now then
    ((acc.1.setCommandState record.envelope.command_id .expired now).1, acc.2)
  else (acc.1, acc.2 ++ [record.envelope])

def pendingCommandsFor (runnerId : String) (executedCommandIds : List String) (now : ℕ) :
    DurableStores Text × List CommandEnvelope :=
  let (s', pending) :=
    s.state.stores.commands.values.foldl (collectPending runnerId executedCommandIds now) (s, [])
  (s', pending.insertionSort fun a b => a.issued_at ≤ b.issued_at)

def acknowledgeEventWatermark (runnerId : String) (eventSequence : ℕ) : DurableStores Text :=
  if eventSequence > RelayStores.maxSafeInteger then s
  else if s.state.stores.inheritsWatermark runnerId = false ∧
      eventSequence ≤ s.state.stores.eventWatermark runnerId then s
  else s.writeStores (s.state.stores.acknowledgeEventWatermark runnerId eventSequence)

def ingestEvent (event : EventEnvelope) : DurableStores Text × IngestOutcome :=
  let (stores, outcome) := s.state.stores.ingestEvent event
  if outcome = .accepted then (s.writeStores stores, outcome) else (s, outcome)

def setKillSwitch (engaged : Bool) : DurableStores Text :=
  if s.state.killSwitch = engaged then s else s.write { s.state with killSwitch := engaged }

end DurableStores

/-! ### Runs -/

/-- The public operations. -/
inductive Op
  | snapshot
  | audit (actor action detail : String) (now : ℤ)
  | auditRateLimited (actor action detail : String) (now windowMs : ℤ)
  | auditEntries
  | createPairing (code : String) (expiresAt : ℤ)
  | consumePairing (code : String) (now : ℤ)
  | registerRunner (runnerId publicKeyPem : String)
  | reserveRunnerGeneration (runnerId : String)
  | enrollRunnerAtGeneration (runnerId publicKeyPem : String) (generation : ℕ)
  | restoreDurableRunnerIdentity (runnerId publicKeyPem : String) (generation : ℕ)
  | runner (runnerId : String)
  | runners
  | markSeen (runnerId : String) (now : ℕ)
  | revokeRunnerSessions (runnerId : String)
  | enqueueCommand (envelope : CommandEnvelope) (now : ℕ)
  | command (commandId : String)
  | setCommandState (commandId : String) (target : CommandState) (now : ℕ)
  | pendingCommandsFor (runnerId : String) (executedCommandIds : List String) (now : ℕ)
  | eventWatermark (runnerId : String)
  | acknowledgeEventWatermark (runnerId : String) (eventSequence : ℕ)
  | ingestEvent (event : EventEnvelope)
  | eventsFor (runnerId : String)
  | killSwitchEngaged
  | setKillSwitch (engaged : Bool)

/-- What an operation returns. -/
inductive Reply (Text : Type)
  | done
  | thrown (message : String)
  | text (text : Text)
  | entries (entries : List AuditEntry)
  | flag (b : Bool)
  | number (n : ℕ)
  | runner (record : Option RunnerRecord)
  | runners (records : List RunnerRecord)
  | command (record : Option CommandRecord)
  | commands (envelopes : List CommandEnvelope)
  | outcome (outcome : IngestOutcome)
  | events (events : List EventEnvelope)

section

variable {Text : Type} (json : StateJson Text)

def perform (s : DurableStores Text) : Op → DurableStores Text × Reply Text
  | .snapshot => let (s, text) := s.snapshot json; (s, .text text)
  | .audit actor action detail now => (s.audit actor action detail now, .done)
  | .auditRateLimited actor action detail now windowMs =>
    let (s, recorded) := s.auditRateLimited actor action detail now windowMs
    (s, .flag recorded)
  | .auditEntries => (s, .entries s.state.audit)
  | .createPairing code expiresAt => (s.createPairing code expiresAt, .done)
  | .consumePairing code now => let (s, live) := s.consumePairing code now; (s, .flag live)
  | .registerRunner runnerId publicKeyPem =>
    let (s, record) := s.registerRunner runnerId publicKeyPem
    (s, .runner record)
  | .reserveRunnerGeneration runnerId =>
    let (s, generation) := s.reserveRunnerGeneration runnerId
    (s, .number generation)
  | .enrollRunnerAtGeneration runnerId publicKeyPem generation =>
    let (s, record) := s.enrollRunnerAtGeneration runnerId publicKeyPem generation
    (s, .runner record)
  | .restoreDurableRunnerIdentity runnerId publicKeyPem generation =>
    let (s, record) := s.restoreDurableRunnerIdentity runnerId publicKeyPem generation
    (s, .runner record)
  | .runner runnerId => (s, .runner (s.runner runnerId))
  | .runners => (s, .runners s.runners)
  | .markSeen runnerId now => (s.markSeen runnerId now, .done)
  | .revokeRunnerSessions runnerId =>
    match s.revokeRunnerSessions runnerId with
    | .ok (s, generation) => (s, .number generation)
    | .error message => (s, .thrown message)
  | .enqueueCommand envelope now =>
    match s.enqueueCommand envelope now with
    | .ok (s, record) => (s, .command record)
    | .error message => (s, .thrown message)
  | .command commandId => (s, .command (s.command commandId))
  | .setCommandState commandId target now =>
    let (s, record) := s.setCommandState commandId target now
    (s, .command record)
  | .pendingCommandsFor runnerId executedCommandIds now =>
    let (s, pending) := s.pendingCommandsFor runnerId executedCommandIds now
    (s, .commands pending)
  | .eventWatermark runnerId => (s, .number (s.state.stores.eventWatermark runnerId))
  | .acknowledgeEventWatermark runnerId eventSequence =>
    (s.acknowledgeEventWatermark runnerId eventSequence, .done)
  | .ingestEvent event => let (s, outcome) := s.ingestEvent event; (s, .outcome outcome)
  | .eventsFor runnerId => (s, .events (s.state.stores.eventsFor runnerId))
  | .killSwitchEngaged => (s, .flag s.state.killSwitch)
  | .setKillSwitch engaged => (s.setKillSwitch engaged, .done)

/-- An operation, or a restart of the process from a snapshot. -/
inductive Event
  | op (op : Op)
  | restart

def step (s : DurableStores Text) : Event → DurableStores Text
  | .op op => (perform json s op).1
  | .restart => (DurableStores.restore json (s.snapshot json).2).getD s

/-- The replies to a sequence of operations. -/
def replies : DurableStores Text → List Op → List (Reply Text)
  | _, [] => []
  | s, op :: ops => (perform json s op).2 :: replies (perform json s op).1 ops

/-- The operation returns the audit log, or a text that contains it. -/
def Op.readsAudit : Op → Bool
  | .snapshot | .auditEntries => true
  | _ => false

/-- The replies, except those that contain the audit log. -/
def repliesBesidesAudit : DurableStores Text → List Op → List (Reply Text)
  | _, [] => []
  | s, op :: ops =>
    (if op.readsAudit then .done else (perform json s op).2) ::
      repliesBesidesAudit (perform json s op).1 ops

/-- The store without an audit log, a cache and a rate limiter's memory. -/
def DurableStores.bare (s : DurableStores Text) : DurableStores Text :=
  ⟨{ s.state with audit := [] }, none, OrdMap.empty⟩

/-- The store after its rate limiter forgot everything. -/
def DurableStores.cooled (s : DurableStores Text) : DurableStores Text :=
  { s with rateLimitedAuditAt := OrdMap.empty }

/-! ### The cache is never stale -/

/-- The cached text is the text of the state. -/
def Coherent (s : DurableStores Text) : Prop :=
  ∀ text, s.serializedSnapshot = some text → text = json.stringify s.state

/-- The cache was invalidated, or neither the state nor the cache changed. -/
def Invalidates (s s' : DurableStores Text) : Prop :=
  s'.serializedSnapshot = none ∨
    (s'.state = s.state ∧ s'.serializedSnapshot = s.serializedSnapshot)

variable {json} {s s' s'' : DurableStores Text}

theorem Invalidates.refl : Invalidates s s := .inr ⟨rfl, rfl⟩

theorem Invalidates.trans (h : Invalidates s s') (h' : Invalidates s' s'') : Invalidates s s'' := by
  rcases h' with h' | ⟨hstate, hcache⟩
  · exact .inl h'
  · rcases h with h | ⟨hstate', hcache'⟩
    · exact .inl (hcache.trans h)
    · exact .inr ⟨hstate.trans hstate', hcache.trans hcache'⟩

theorem Invalidates.coherent (h : Invalidates s s') (hs : Coherent json s) : Coherent json s' := by
  intro text ht
  rcases h with h | ⟨hstate, hcache⟩
  · exact absurd (h.symm.trans ht) (by simp)
  · rw [hstate]
    exact hs text (hcache.symm.trans ht)

theorem invalidates_setCommandState (commandId : String) (target : CommandState) (now : ℕ) :
    Invalidates s (s.setCommandState commandId target now).1 := by
  unfold DurableStores.setCommandState
  rcases s.state.stores.commands.get? commandId with _ | record
  · exact .refl
  · dsimp only
    split_ifs
    · exact .refl
    · exact .inl rfl
    · exact .refl
    · exact .refl
    · exact .inl rfl

theorem invalidates_collectPending (runnerId : String) (executedCommandIds : List String)
    (now : ℕ) (acc : DurableStores Text × List CommandEnvelope) (record : CommandRecord) :
    Invalidates acc.1
      (DurableStores.collectPending runnerId executedCommandIds now acc record).1 := by
  unfold DurableStores.collectPending
  split_ifs
  · exact .refl
  · exact .refl
  · exact .refl
  · exact invalidates_setCommandState _ _ _
  · exact .refl

theorem invalidates_foldl_collectPending (runnerId : String) (executedCommandIds : List String)
    (now : ℕ) (records : List CommandRecord) : ∀ acc : DurableStores Text × List CommandEnvelope,
    Invalidates acc.1
      (records.foldl (DurableStores.collectPending runnerId executedCommandIds now) acc).1 := by
  induction records with
  | nil => intro acc; exact .refl
  | cons record records ih =>
    intro acc
    exact (invalidates_collectPending runnerId executedCommandIds now acc record).trans (ih _)

/-- **Every operation but `snapshot`** invalidates the cache when it changes the state. -/
theorem invalidates_perform (op : Op) (h : op ≠ .snapshot) :
    Invalidates s (perform json s op).1 := by
  rcases op with _ | ⟨actor, action, detail, now⟩ | ⟨actor, action, detail, now, windowMs⟩ | _ |
    ⟨code, expiresAt⟩ | ⟨code, now⟩ | ⟨runnerId, key⟩ | runnerId | ⟨runnerId, key, generation⟩ |
    ⟨runnerId, key, generation⟩ | runnerId | _ | ⟨runnerId, now⟩ | runnerId | ⟨envelope, now⟩ |
    commandId | ⟨commandId, target, now⟩ | ⟨runnerId, ids, now⟩ | runnerId | ⟨runnerId, n⟩ | event |
    runnerId | _ | engaged
  · exact absurd rfl h
  · exact .inl rfl
  · show Invalidates s (s.auditRateLimited actor action detail now windowMs).1
    unfold DurableStores.auditRateLimited
    dsimp only
    split_ifs
    · exact .refl
    · exact .inl rfl
  · exact .refl
  · exact .inl rfl
  · show Invalidates s (s.consumePairing code now).1
    unfold DurableStores.consumePairing
    rcases s.state.pairings.get? code with _ | record
    · exact .refl
    · exact .inl rfl
  · exact .inl rfl
  · exact .inl rfl
  · show Invalidates s (s.enrollRunnerAtGeneration runnerId key generation).1
    unfold DurableStores.enrollRunnerAtGeneration
    rcases s.state.stores.runners.get? runnerId with _ | existing
    · exact .inl rfl
    · dsimp only
      split_ifs
      · exact .refl
      · exact .refl
      · exact .inl rfl
  · exact .inl rfl
  · exact .refl
  · exact .refl
  · show Invalidates s (s.markSeen runnerId now)
    unfold DurableStores.markSeen
    rcases s.state.stores.runners.get? runnerId with _ | record
    · exact .refl
    · exact .inl rfl
  · unfold perform DurableStores.revokeRunnerSessions
    dsimp only
    rcases s.state.stores.revokeRunnerSessions runnerId with message | ⟨stores, generation⟩
    · exact .refl
    · exact .inl rfl
  · unfold perform DurableStores.enqueueCommand
    dsimp only
    rcases s.state.stores.enqueueCommand envelope now with message | ⟨stores, record⟩
    · exact .refl
    · dsimp only
      rcases s.state.stores.commands.has envelope.command_id with _ | _
      · exact .inl rfl
      · exact .refl
  · exact .refl
  · exact invalidates_setCommandState commandId target now
  · exact invalidates_foldl_collectPending runnerId ids now _ (s, [])
  · exact .refl
  · show Invalidates s (s.acknowledgeEventWatermark runnerId n)
    unfold DurableStores.acknowledgeEventWatermark
    split_ifs
    · exact .refl
    · exact .refl
    · exact .inl rfl
  · show Invalidates s (s.ingestEvent event).1
    unfold DurableStores.ingestEvent
    dsimp only
    split_ifs
    · exact .inl rfl
    · exact .refl
  · exact .refl
  · exact .refl
  · show Invalidates s (s.setKillSwitch engaged)
    unfold DurableStores.setKillSwitch
    split_ifs
    · exact .refl
    · exact .inl rfl

/-- The text of a snapshot is the text of the state. -/
theorem snapshot_text (h : Coherent json s) : (s.snapshot json).2 = json.stringify s.state := by
  unfold DurableStores.snapshot
  rcases hc : s.serializedSnapshot with _ | text
  · rfl
  · exact h text hc

/-- A snapshot fills the cache and nothing else. -/
theorem snapshot_fst (h : Coherent json s) : (s.snapshot json).1.state = s.state ∧
    (s.snapshot json).1.rateLimitedAuditAt = s.rateLimitedAuditAt ∧
      Coherent json (s.snapshot json).1 := by
  unfold DurableStores.snapshot
  rcases hc : s.serializedSnapshot with _ | text
  · exact ⟨rfl, rfl, fun text ht => (Option.some.inj ht).symm⟩
  · exact ⟨rfl, rfl, h⟩

theorem coherent_perform (h : Coherent json s) (op : Op) : Coherent json (perform json s op).1 := by
  by_cases hop : op = .snapshot
  · rw [hop]
    exact (snapshot_fst h).2.2
  · exact (invalidates_perform op hop).coherent h

variable (json) in
/-- What `restore` makes of a snapshot. -/
def compactedStores (s : DurableStores Text) : DurableStores Text where
  state := (compactPathologicalRunnerRejections s.state).1
  serializedSnapshot :=
    if (compactPathologicalRunnerRejections s.state).2 then none
    else some (json.stringify s.state)
  rateLimitedAuditAt := OrdMap.empty

theorem restore_snapshot (h : Coherent json s) :
    DurableStores.restore json (s.snapshot json).2 = some (compactedStores json s) := by
  unfold DurableStores.restore
  rw [snapshot_text h, json.parse_stringify]
  rfl

/-- A compaction that reports nothing changed nothing. -/
theorem compact_false {state : StoreState}
    (h : (compactPathologicalRunnerRejections state).2 = false) :
    (compactPathologicalRunnerRejections state).1 = state := by
  unfold compactPathologicalRunnerRejections at h ⊢
  dsimp only at h ⊢
  split_ifs at h ⊢
  · rfl
  · rfl

theorem coherent_compactedStores :
    Coherent json (compactedStores json s) := by
  intro text ht
  unfold compactedStores at ht ⊢
  rcases hc : (compactPathologicalRunnerRejections s.state).2 with _ | _
  · rw [hc] at ht
    rw [compact_false hc]
    exact (Option.some.inj ht).symm
  · rw [hc] at ht
    exact absurd ht (by simp)

theorem coherent_step (h : Coherent json s) (event : Event) : Coherent json (step json s event) := by
  rcases event with op | _
  · exact coherent_perform h op
  · show Coherent json ((DurableStores.restore json (s.snapshot json).2).getD s)
    rw [restore_snapshot h]
    exact coherent_compactedStores

variable (json) in
theorem coherent_run (events : List Event) :
    Coherent json (run (step json) (DurableStores.new : DurableStores Text) events) := by
  refine run_induct' (I := Coherent json) (fun _ event h => coherent_step h event) ?_ events
  intro text ht
  exact absurd ht (by simp [DurableStores.new])

/-! ### The relay's part of the state

The operations above branch where the code calls `changed()`; on the relay's part of the state they
are the operations of `RelayStores`. -/

/-! ### The audit log is written, not read -/

/-- `s'` is `s` with more entries in front of its audit log; the caches may differ. -/
structure Prepended (p : List AuditEntry) (s s' : DurableStores Text) : Prop where
  state : s'.state = { s.state with audit := p ++ s.state.audit }
  limiter : s'.rateLimitedAuditAt = s.rateLimitedAuditAt

variable {p : List AuditEntry}

theorem Prepended.stores (h : Prepended p s s') : s'.state.stores = s.state.stores := by
  rw [h.state]

/-- A write that computes the new state from the old one, whatever stands before the log. -/
theorem Prepended.write (h : Prepended p s s') {f : StoreState → StoreState}
    (hf : ∀ state : StoreState, f { state with audit := p ++ state.audit } =
      { f state with audit := p ++ (f state).audit }) :
    Prepended p (s.write (f s.state)) (s'.write (f s'.state)) := by
  refine ⟨?_, h.limiter⟩
  show f s'.state = _
  rw [h.state, hf]
  rfl

theorem Prepended.writeStores (h : Prepended p s s') (stores : RelayStores) :
    Prepended p (s.writeStores stores) (s'.writeStores stores) :=
  h.write (f := fun state => { state with stores }) fun _ => rfl

theorem Prepended.audit (h : Prepended p s s') (actor action detail : String) (now : ℤ) :
    Prepended p (s.audit actor action detail now) (s'.audit actor action detail now) := by
  refine h.write (f := fun state => { state with
    audit := state.audit ++ [⟨now, actor, action, detail⟩] }) fun state => ?_
  dsimp only
  rw [List.append_assoc]

/-- Two stores after one operation, with what it returned. -/
def Tracks {β : Type} (p : List AuditEntry) (r r' : DurableStores Text × β) : Prop :=
  Prepended p r.1 r'.1 ∧ r'.2 = r.2

theorem Prepended.setCommandState (h : Prepended p s s') (commandId : String)
    (target : CommandState) (now : ℕ) :
    Tracks p (s.setCommandState commandId target now) (s'.setCommandState commandId target now) := by
  have hwrite : ∀ record : CommandRecord,
      Prepended p (s.writeCommand commandId record) (s'.writeCommand commandId record) := by
    intro record
    unfold DurableStores.writeCommand
    rw [h.stores]
    exact h.writeStores _
  unfold DurableStores.setCommandState
  rw [h.stores]
  rcases s.state.stores.commands.get? commandId with _ | record
  · exact ⟨h, rfl⟩
  · dsimp only
    split_ifs
    · exact ⟨h, rfl⟩
    · exact ⟨hwrite _, rfl⟩
    · exact ⟨h, rfl⟩
    · exact ⟨h, rfl⟩
    · exact ⟨hwrite _, rfl⟩

theorem Tracks.collectPending {acc acc' : DurableStores Text × List CommandEnvelope}
    (h : Tracks p acc acc') (runnerId : String) (executedCommandIds : List String) (now : ℕ)
    (record : CommandRecord) :
    Tracks p (DurableStores.collectPending runnerId executedCommandIds now acc record)
      (DurableStores.collectPending runnerId executedCommandIds now acc' record) := by
  unfold DurableStores.collectPending
  split_ifs
  · exact h
  · exact h
  · exact h
  · exact ⟨(h.1.setCommandState _ _ _).1, h.2⟩
  · exact ⟨h.1, by rw [h.2]⟩

theorem Prepended.pendingCommandsFor (h : Prepended p s s') (runnerId : String)
    (executedCommandIds : List String) (now : ℕ) :
    Tracks p (s.pendingCommandsFor runnerId executedCommandIds now)
      (s'.pendingCommandsFor runnerId executedCommandIds now) := by
  have main : ∀ (records : List CommandRecord) (acc acc' : DurableStores Text × _),
      Tracks p acc acc' →
        Tracks p (records.foldl (DurableStores.collectPending runnerId executedCommandIds now) acc)
          (records.foldl (DurableStores.collectPending runnerId executedCommandIds now) acc') := by
    intro records
    induction records with
    | nil => intro acc acc' hacc; exact hacc
    | cons record records ih =>
      intro acc acc' hacc
      exact ih _ _ (hacc.collectPending runnerId executedCommandIds now record)
  unfold DurableStores.pendingCommandsFor
  rw [h.stores]
  have hfold := main s.state.stores.commands.values (s, []) (s', []) ⟨h, rfl⟩
  exact ⟨hfold.1, by dsimp only; rw [hfold.2]⟩

/-- **An operation that does not return the audit log does not depend on it**, nor on the cache. -/
theorem perform_prepend (h : Prepended p s s') {op : Op} (hop : op.readsAudit = false) :
    Tracks p (perform json s op) (perform json s' op) := by
  have hw : ∀ stores : RelayStores, Prepended p (s.writeStores stores) (s'.writeStores stores) :=
    h.writeStores
  rcases op with _ | ⟨actor, action, detail, now⟩ | ⟨actor, action, detail, now, windowMs⟩ | _ |
    ⟨code, expiresAt⟩ | ⟨code, now⟩ | ⟨runnerId, key⟩ | runnerId | ⟨runnerId, key, generation⟩ |
    ⟨runnerId, key, generation⟩ | runnerId | _ | ⟨runnerId, now⟩ | runnerId | ⟨envelope, now⟩ |
    commandId | ⟨commandId, target, now⟩ | ⟨runnerId, ids, now⟩ | runnerId | ⟨runnerId, n⟩ | event |
    runnerId | _ | engaged
  · exact absurd hop (by decide)
  · exact ⟨h.audit actor action detail now, rfl⟩
  · unfold perform DurableStores.auditRateLimited
    dsimp only
    rw [h.limiter]
    have hset : Prepended p
        { s with rateLimitedAuditAt :=
            s.rateLimitedAuditAt.set (actor ++ nul ++ action ++ nul ++ detail) now }
        { s' with rateLimitedAuditAt :=
            s.rateLimitedAuditAt.set (actor ++ nul ++ action ++ nul ++ detail) now } :=
      ⟨h.state, rfl⟩
    split_ifs
    · exact ⟨h, rfl⟩
    · exact ⟨hset.audit actor action detail now, rfl⟩
  · exact absurd hop (by decide)
  · exact ⟨h.write (f := fun state => { state with
      pairings := state.pairings.set code ⟨code, expiresAt⟩ }) fun _ => rfl, rfl⟩
  · have hp : s'.state.pairings = s.state.pairings := by rw [h.state]
    have hdelete := h.write (f := fun state => { state with
      pairings := state.pairings.delete code }) fun _ => rfl
    unfold perform DurableStores.consumePairing
    dsimp only
    rw [show s'.state.pairings.get? code = s.state.pairings.get? code by rw [hp]]
    rcases s.state.pairings.get? code with _ | record
    · exact ⟨h, rfl⟩
    · exact ⟨hdelete, rfl⟩
  · unfold perform DurableStores.registerRunner
    rw [h.stores]
    exact ⟨hw _, rfl⟩
  · unfold perform DurableStores.reserveRunnerGeneration
    rw [h.stores]
    exact ⟨hw _, rfl⟩
  · unfold perform DurableStores.enrollRunnerAtGeneration
    dsimp only
    rw [h.stores]
    rcases s.state.stores.runners.get? runnerId with _ | existing
    · exact ⟨hw _, rfl⟩
    · dsimp only
      split_ifs
      · exact ⟨h, rfl⟩
      · exact ⟨h, rfl⟩
      · exact ⟨hw _, rfl⟩
  · unfold perform DurableStores.restoreDurableRunnerIdentity
    rw [h.stores]
    exact ⟨hw _, rfl⟩
  · refine ⟨h, ?_⟩
    show Reply.runner (s'.state.stores.runners.get? runnerId) = _
    rw [h.stores]; rfl
  · refine ⟨h, ?_⟩
    show Reply.runners s'.state.stores.runners.values = _
    rw [h.stores]; rfl
  · unfold perform DurableStores.markSeen
    dsimp only
    rw [h.stores]
    rcases s.state.stores.runners.get? runnerId with _ | record
    · exact ⟨h, rfl⟩
    · exact ⟨hw _, rfl⟩
  · unfold perform DurableStores.revokeRunnerSessions
    dsimp only
    rw [h.stores]
    rcases s.state.stores.revokeRunnerSessions runnerId with message | ⟨stores, generation⟩
    · exact ⟨h, rfl⟩
    · exact ⟨hw _, rfl⟩
  · unfold perform DurableStores.enqueueCommand
    dsimp only
    rw [h.stores]
    rcases s.state.stores.enqueueCommand envelope now with message | ⟨stores, record⟩
    · exact ⟨h, rfl⟩
    · dsimp only
      rcases s.state.stores.commands.has envelope.command_id with _ | _
      · exact ⟨hw _, rfl⟩
      · exact ⟨h, rfl⟩
  · refine ⟨h, ?_⟩
    show Reply.command (s'.state.stores.commands.get? commandId) = _
    rw [h.stores]; rfl
  · obtain ⟨hs, hr⟩ := h.setCommandState commandId target now
    exact ⟨hs, congrArg Reply.command hr⟩
  · obtain ⟨hs, hr⟩ := h.pendingCommandsFor runnerId ids now
    exact ⟨hs, congrArg Reply.commands hr⟩
  · refine ⟨h, ?_⟩
    show Reply.number (s'.state.stores.eventWatermark runnerId) = _
    rw [h.stores]; rfl
  · unfold perform DurableStores.acknowledgeEventWatermark
    dsimp only
    rw [h.stores]
    split_ifs
    · exact ⟨h, rfl⟩
    · exact ⟨h, rfl⟩
    · exact ⟨hw _, rfl⟩
  · unfold perform DurableStores.ingestEvent
    dsimp only
    rw [h.stores]
    split_ifs
    · exact ⟨hw _, rfl⟩
    · exact ⟨h, rfl⟩
  · refine ⟨h, ?_⟩
    show Reply.events (s'.state.stores.eventsFor runnerId) = _
    rw [h.stores]; rfl
  · refine ⟨h, ?_⟩
    show Reply.flag s'.state.killSwitch = _
    rw [h.state]; rfl
  · have hk : s'.state.killSwitch = s.state.killSwitch := by rw [h.state]
    unfold perform DurableStores.setKillSwitch
    dsimp only
    rw [hk]
    split_ifs
    · exact ⟨h, rfl⟩
    · exact ⟨h.write (f := fun state => { state with killSwitch := engaged }) fun _ => rfl, rfl⟩

/-- A read of the audit log changes at most the cache. -/
theorem perform_reads (h : Coherent json s) {op : Op} (hop : op.readsAudit = true) :
    (perform json s op).1.state = s.state ∧
      (perform json s op).1.rateLimitedAuditAt = s.rateLimitedAuditAt ∧
      ((perform json s op).2 = .entries s.state.audit ∧ op = .auditEntries ∨
        (perform json s op).2 = .text (json.stringify s.state) ∧ op = .snapshot) := by
  unfold Op.readsAudit at hop
  split at hop
  · obtain ⟨hstate, hlimiter, -⟩ := snapshot_fst h
    exact ⟨hstate, hlimiter, .inr ⟨congrArg Reply.text (snapshot_text h), rfl⟩⟩
  · exact ⟨rfl, rfl, .inl ⟨rfl, rfl⟩⟩
  · exact absurd hop (by simp)

theorem Prepended.perform (h : Prepended p s s') (hs : Coherent json s) (hs' : Coherent json s')
    (op : Op) : Prepended p (perform json s op).1 (perform json s' op).1 := by
  rcases hop : op.readsAudit with _ | _
  · exact (perform_prepend h hop).1
  · obtain ⟨hstate, hlimiter, -⟩ := perform_reads hs hop
    obtain ⟨hstate', hlimiter', -⟩ := perform_reads hs' hop
    exact ⟨by rw [hstate', hstate]; exact h.state, by rw [hlimiter', hlimiter]; exact h.limiter⟩

/-- The store after a sequence of operations. -/
def afterOps (json : StateJson Text) (s : DurableStores Text) (ops : List Op) :
    DurableStores Text :=
  run (fun s op => (perform json s op).1) s ops

/-- **Stores that differ in the front of their audit logs** reply alike and stay so. -/
theorem Prepended.run (ops : List Op) : ∀ {s s' : DurableStores Text}, Prepended p s s' →
    Coherent json s → Coherent json s' →
      repliesBesidesAudit json s' ops = repliesBesidesAudit json s ops ∧
        Prepended p (afterOps json s ops) (afterOps json s' ops) := by
  induction ops with
  | nil => intro s s' h _ _; exact ⟨rfl, h⟩
  | cons op ops ih =>
    intro s s' h hs hs'
    obtain ⟨hreplies, hafter⟩ :=
      ih (h.perform hs hs' op) (coherent_perform hs op) (coherent_perform hs' op)
    refine ⟨?_, hafter⟩
    unfold repliesBesidesAudit
    rw [hreplies]
    congr 1
    rcases hop : op.readsAudit with _ | _
    · exact (perform_prepend h hop).2
    · rfl

/-- **Stores with the same state** reply alike, whatever their caches hold. -/
theorem replies_of_state (ops : List Op) : ∀ {s s' : DurableStores Text}, Prepended [] s s' →
    Coherent json s → Coherent json s' → replies json s' ops = replies json s ops := by
  induction ops with
  | nil => intro s s' _ _ _; rfl
  | cons op ops ih =>
    intro s s' h hs hs'
    unfold replies
    rw [ih (h.perform hs hs' op) (coherent_perform hs op) (coherent_perform hs' op)]
    congr 1
    have hstate : s'.state = s.state := h.state
    rcases hop : op.readsAudit with _ | _
    · exact (perform_prepend h hop).2
    · obtain ⟨-, -, hr⟩ := perform_reads hs hop
      obtain ⟨-, -, hr'⟩ := perform_reads hs' hop
      rcases hr with ⟨hr, rfl⟩ | ⟨hr, rfl⟩
      · rcases hr' with ⟨hr', -⟩ | ⟨-, hop'⟩
        · rw [hr, hr', hstate]
        · exact Op.noConfusion hop'
      · rcases hr' with ⟨-, hop'⟩ | ⟨hr', -⟩
        · exact Op.noConfusion hop'
        · rw [hr, hr', hstate]

end

/-! ### What a compaction removes -/

/-- The keys of the rejections, in order. -/
def rejectionKeys (audit : List AuditEntry) : List String :=
  (audit.filter fun entry => decide (entry.action = RUNNER_EVENT_REJECTED_ACTION)).map
    AuditEntry.key

/-- Every entry with a mark that tells whether it was kept. -/
def keptOf (marks : List (AuditEntry × Bool)) : List AuditEntry :=
  (marks.filter Prod.snd).map Prod.fst

/-- The entry at `i` was removed as the repetition of a kept one before it. -/
def Repeats (marks : List (AuditEntry × Bool)) (i : ℕ) (entry : AuditEntry) : Prop :=
  entry.action = RUNNER_EVENT_REJECTED_ACTION ∧ ∃ j < i, ∃ sample, marks[j]? = some (sample, true) ∧
    sample.action = RUNNER_EVENT_REJECTED_ACTION ∧ sample.key = entry.key

/-- The loop, with the marks it gave. -/
structure Collapses (marks : List (AuditEntry × Bool)) (c : Collapse) : Prop where
  compacted : c.compacted = keptOf marks
  buckets : c.rejectionBuckets = rejectionKeys (keptOf marks)
  nodup : c.rejectionBuckets.Nodup
  removed : ∀ i entry, marks[i]? = some (entry, false) → Repeats marks i entry

theorem rejectionKeys_append (audit audit' : List AuditEntry) :
    rejectionKeys (audit ++ audit') = rejectionKeys audit ++ rejectionKeys audit' := by
  unfold rejectionKeys
  rw [List.filter_append, List.map_append]

theorem keptOf_append (marks marks' : List (AuditEntry × Bool)) :
    keptOf (marks ++ marks') = keptOf marks ++ keptOf marks' := by
  unfold keptOf
  rw [List.filter_append, List.map_append]

/-- The marks given so far stay as they are. -/
theorem Collapses.removed_append {marks : List (AuditEntry × Bool)} {c : Collapse}
    (h : Collapses marks c) {entry : AuditEntry} {kept : Bool}
    (hnew : kept = false → Repeats marks marks.length entry) :
    ∀ i e, (marks ++ [(entry, kept)])[i]? = some (e, false) →
      Repeats (marks ++ [(entry, kept)]) i e := by
  have extend : ∀ i e, i ≤ marks.length → Repeats marks i e →
      Repeats (marks ++ [(entry, kept)]) i e := by
    rintro i e hi ⟨haction, j, hj, sample, hsample, hrest⟩
    refine ⟨haction, j, hj, sample, ?_, hrest⟩
    rw [List.getElem?_append_left (by omega)]
    exact hsample
  intro i e hi
  rcases Nat.lt_trichotomy i marks.length with hlt | heq | hgt
  · rw [List.getElem?_append_left hlt] at hi
    exact extend i e hlt.le (h.removed i e hi)
  · rw [heq, List.getElem?_concat_length, Option.some.injEq, Prod.mk.injEq] at hi
    obtain ⟨rfl, hkept⟩ := hi
    rw [heq]
    exact extend marks.length entry le_rfl (hnew hkept)
  · rw [List.getElem?_eq_none (by simp; omega)] at hi
    exact absurd hi (by simp)

/-- One iteration. -/
theorem Collapses.next {marks : List (AuditEntry × Bool)} {c : Collapse} (h : Collapses marks c)
    (entry : AuditEntry) : ∃ kept, Collapses (marks ++ [(entry, kept)]) (c.next entry) := by
  unfold Collapse.next
  split_ifs with haction hkey
  · -- not a rejection: kept, and no key of its own
    refine ⟨true, ?_, ?_, h.nodup, h.removed_append (by simp)⟩
    · show c.compacted ++ [entry] = _
      rw [keptOf_append, h.compacted]; rfl
    · have hnone : rejectionKeys (keptOf [(entry, true)]) = [] := by
        show rejectionKeys [entry] = []
        unfold rejectionKeys
        rw [List.filter_cons_of_neg (by simpa using haction)]
        rfl
      show c.rejectionBuckets = _
      rw [keptOf_append, rejectionKeys_append, hnone, List.append_nil]
      exact h.buckets
  · -- a repetition: the kept sample is the one that made the bucket
    have hsample : Repeats marks marks.length entry := by
      refine ⟨not_not.mp haction, ?_⟩
      rw [h.buckets] at hkey
      unfold rejectionKeys keptOf at hkey
      obtain ⟨sample, hmem, hsame⟩ := List.mem_map.mp hkey
      obtain ⟨hmem, hrejected⟩ := List.mem_filter.mp hmem
      obtain ⟨⟨sample', kept⟩, hmark, rfl⟩ := List.mem_map.mp hmem
      obtain ⟨hmark, rfl⟩ := List.mem_filter.mp hmark
      obtain ⟨j, hj⟩ := List.mem_iff_getElem?.mp hmark
      have hlt : j < marks.length := (List.getElem?_eq_some_iff.mp hj).1
      exact ⟨j, hlt, sample', hj, by simpa using hrejected, hsame⟩
    refine ⟨false, ?_, ?_, h.nodup, h.removed_append fun _ => hsample⟩
    · rw [keptOf_append]
      exact h.compacted.trans (List.append_nil _).symm
    · rw [keptOf_append]
      exact h.buckets.trans (congrArg rejectionKeys (List.append_nil _).symm)
  · -- the first of its bucket
    refine ⟨true, ?_, ?_, ?_, h.removed_append (by simp)⟩
    · show c.compacted ++ [entry] = _
      rw [keptOf_append, h.compacted]; rfl
    · have hone : rejectionKeys (keptOf [(entry, true)]) = [entry.key] := by
        show rejectionKeys [entry] = _
        unfold rejectionKeys
        rw [List.filter_cons_of_pos (by simpa using haction)]
        rfl
      show c.rejectionBuckets ++ [entry.key] = _
      rw [keptOf_append, rejectionKeys_append, hone, h.buckets]
    · exact List.nodup_append.mpr ⟨h.nodup, List.nodup_singleton _, fun a ha b hb hab =>
        hkey (by rw [← List.mem_singleton.mp hb, ← hab]; exact ha)⟩

theorem collapses (audit : List AuditEntry) :
    ∃ marks, marks.map Prod.fst = audit ∧ Collapses marks (collapse audit) := by
  induction audit using List.reverseRecOn with
  | nil => exact ⟨[], rfl, rfl, rfl, List.nodup_nil, fun i e h => absurd h (by simp)⟩
  | append_singleton audit entry ih =>
    obtain ⟨marks, hmarks, h⟩ := ih
    obtain ⟨kept, hnext⟩ := h.next entry
    refine ⟨marks ++ [(entry, kept)], by rw [List.map_append, hmarks]; rfl, ?_⟩
    unfold collapse
    rw [List.foldl_append]
    exact hnext

/-- Nothing is removed from a log whose rejections have pairwise different keys. -/
theorem foldl_next_removed (audit : List AuditEntry) : ∀ c : Collapse,
    (c.rejectionBuckets ++ rejectionKeys audit).Nodup →
      (audit.foldl Collapse.next c).removed = c.removed := by
  induction audit with
  | nil => intro c _; rfl
  | cons entry audit ih =>
    intro c h
    rw [List.foldl_cons]
    by_cases haction : entry.action = RUNNER_EVENT_REJECTED_ACTION
    · have hkeys : rejectionKeys (entry :: audit) = entry.key :: rejectionKeys audit := by
        unfold rejectionKeys
        rw [List.filter_cons_of_pos (by simpa using haction)]; rfl
      rw [hkeys] at h
      have hnew : entry.key ∉ c.rejectionBuckets := by
        intro hmem
        exact (List.nodup_append.mp h).2.2 _ hmem _ List.mem_cons_self rfl
      have hnext : c.next entry = { c with
          rejectionBuckets := c.rejectionBuckets ++ [entry.key]
          compacted := c.compacted ++ [entry] } := by
        unfold Collapse.next
        rw [if_neg (by simpa using haction), if_neg hnew]
      rw [ih, hnext]
      rw [hnext]
      show (c.rejectionBuckets ++ [entry.key] ++ rejectionKeys audit).Nodup
      rw [List.append_assoc]
      exact h
    · have hkeys : rejectionKeys (entry :: audit) = rejectionKeys audit := by
        unfold rejectionKeys
        rw [List.filter_cons_of_neg (by simpa using haction)]
      have hnext : c.next entry = { c with compacted := c.compacted ++ [entry] } := by
        unfold Collapse.next
        rw [if_pos haction]
      rw [hkeys] at h
      rw [ih, hnext]
      rw [hnext]
      exact h

/-- Neither the actor nor the detail contains the separator. -/
def AuditEntry.NulFree (entry : AuditEntry) : Prop :=
  '\x00' ∉ entry.actor.toList ∧ '\x00' ∉ entry.detail.toList

theorem nul_split {a a' r r' : List Char} (ha : '\x00' ∉ a) (ha' : '\x00' ∉ a')
    (h : a ++ '\x00' :: r = a' ++ '\x00' :: r') : a = a' ∧ r = r' := by
  induction a generalizing a' with
  | nil =>
    rcases a' with _ | ⟨d, a'⟩
    · exact ⟨rfl, (List.cons.inj h).2⟩
    · exact absurd (List.cons.inj h).1 fun hd => ha' (hd ▸ List.mem_cons_self)
  | cons c a ih =>
    rcases a' with _ | ⟨d, a'⟩
    · exact absurd (List.cons.inj h).1 fun hd => ha (hd ▸ List.mem_cons_self)
    · obtain ⟨rfl, htail⟩ := List.cons.inj h
      obtain ⟨rfl, hr⟩ := ih (fun hm => ha (List.mem_cons_of_mem _ hm))
        (fun hm => ha' (List.mem_cons_of_mem _ hm)) htail
      exact ⟨rfl, hr⟩

theorem nul_notMem_repr (n : ℕ) : '\x00' ∉ (Nat.repr n).toList := by
  intro h
  rw [Nat.toList_repr] at h
  exact absurd (Nat.isDigit_of_mem_toDigits (by decide) (by decide) h) (by decide)

theorem nul_notMem_toString (n : ℤ) : '\x00' ∉ (toString n).toList := by
  rcases n with n | n
  · exact nul_notMem_repr n
  · intro h
    have hneg : '\x00' ∈ ("-" ++ Nat.repr (n + 1)).toList := h
    rw [String.toList_append] at hneg
    rcases List.mem_append.mp hneg with hminus | hdigit
    · exact absurd hminus (by decide)
    · exact nul_notMem_repr (n + 1) hdigit

theorem AuditEntry.toList_key (entry : AuditEntry) : entry.key.toList = entry.actor.toList ++
    '\x00' :: (entry.detail.toList ++ '\x00' :: (toString entry.bucket).toList) := by
  unfold AuditEntry.key nul
  simp [String.toList_append]

/-- The key of an entry has two separators, and one more for each that its actor or detail has. -/
theorem AuditEntry.count_key (entry : AuditEntry) : entry.key.toList.count '\x00' =
    entry.actor.toList.count '\x00' + entry.detail.toList.count '\x00' + 2 := by
  rw [entry.toList_key, List.count_append, List.count_cons_self, List.count_append,
    List.count_cons_self, List.count_eq_zero.mpr (nul_notMem_toString entry.bucket)]
  omega

/-- Without separators in actor and detail, the key tells actor, detail and minute. -/
theorem AuditEntry.key_cancel {entry sample : AuditEntry} (hfree : entry.NulFree)
    (h : sample.key = entry.key) : sample.actor = entry.actor ∧ sample.detail = entry.detail ∧
      sample.bucket = entry.bucket := by
  have hcount := congrArg (fun k => k.toList.count '\x00') h
  simp only [AuditEntry.count_key] at hcount
  rw [List.count_eq_zero.mpr hfree.1, List.count_eq_zero.mpr hfree.2] at hcount
  have hactor : '\x00' ∉ sample.actor.toList := List.count_eq_zero.mp (by omega)
  have hdetail : '\x00' ∉ sample.detail.toList := List.count_eq_zero.mp (by omega)
  have hlist := congrArg String.toList h
  rw [sample.toList_key, entry.toList_key] at hlist
  obtain ⟨ha, hrest⟩ := nul_split hactor hfree.1 hlist
  obtain ⟨hd, hbucket⟩ := nul_split hdetail hfree.2 hrest
  exact ⟨String.toList_injective ha, String.toList_injective hd,
    Int.repr_injective (String.toList_injective hbucket)⟩

/-- **What a compaction may do**: every entry that was removed is a repeated rejection, a sample of
which was kept before it, in the same minute if no separator confuses the keys; one entry that
records the compaction is added at the end. -/
def Compacts (audit audit' : List AuditEntry) : Prop :=
  ∃ marks : List (AuditEntry × Bool), ∃ summary : AuditEntry,
    marks.map Prod.fst = audit ∧ audit' = keptOf marks ++ [summary] ∧
      summary.action = "audit.compacted" ∧
      ∀ (i : ℕ) (entry : AuditEntry), marks[i]? = some (entry, false) →
        entry.action = RUNNER_EVENT_REJECTED_ACTION ∧
        ∃ j < i, ∃ sample : AuditEntry, marks[j]? = some (sample, true) ∧
          sample.action = RUNNER_EVENT_REJECTED_ACTION ∧ (entry.NulFree →
            sample.actor = entry.actor ∧ sample.detail = entry.detail ∧
              sample.bucket = entry.bucket)

theorem compact_cases (state : StoreState) :
    (compactPathologicalRunnerRejections state).1 = state ∨
    (RELAY_AUDIT_COMPACTION_THRESHOLD ≤ state.audit.length ∧
      Compacts state.audit (compactPathologicalRunnerRejections state).1.audit ∧
      (rejectionKeys (compactPathologicalRunnerRejections state).1.audit).Nodup ∧
      (compactPathologicalRunnerRejections state).1 =
        { state with audit := (compactPathologicalRunnerRejections state).1.audit }) := by
  unfold compactPathologicalRunnerRejections
  dsimp only
  split_ifs with hlength hremoved
  · exact .inl rfl
  · exact .inl rfl
  · obtain ⟨marks, hmarks, h⟩ := collapses state.audit
    refine .inr ⟨by omega, ⟨marks, _, hmarks, by rw [h.compacted], rfl, ?_⟩, ?_, rfl⟩
    · intro i entry hi
      obtain ⟨haction, j, hj, sample, hsample, hsampled, hkey⟩ := h.removed i entry hi
      exact ⟨haction, j, hj, sample, hsample, hsampled, fun hfree => entry.key_cancel hfree hkey⟩
    · show (rejectionKeys ((collapse state.audit).compacted ++ [compactedEntry _ _])).Nodup
      rw [rejectionKeys_append, h.compacted, ← h.buckets]
      have hnone : rejectionKeys [compactedEntry state.audit (collapse state.audit).removed] = [] :=
        rfl
      rw [hnone, List.append_nil]
      exact h.nodup

/-- Compacting again removes nothing. -/
theorem compact_again (state : StoreState) :
    (compactPathologicalRunnerRejections (compactPathologicalRunnerRejections state).1).1 =
      (compactPathologicalRunnerRejections state).1 := by
  rcases compact_cases state with h | ⟨-, -, hkeys, -⟩
  · rw [h, h]
  · have hremoved : (collapse (compactPathologicalRunnerRejections state).1.audit).removed = 0 :=
      foldl_next_removed _ ⟨[], [], 0⟩ hkeys
    generalize (compactPathologicalRunnerRejections state).1 = compacted at hremoved ⊢
    unfold compactPathologicalRunnerRejections
    dsimp only
    rw [if_pos hremoved]
    split <;> rfl

/-! ### Restarts -/

section

variable {Text : Type} {json : StateJson Text}

/-- **A restored store** against the original, whose rate limiter forgets everything. -/
structure Restores (json : StateJson Text) (s r : DurableStores Text) : Prop where
  besidesAudit : r.state = { s.state with audit := r.state.audit }
  audit : r.state.audit = s.state.audit ∨
    (RELAY_AUDIT_COMPACTION_THRESHOLD ≤ s.state.audit.length ∧
      Compacts s.state.audit r.state.audit)
  /-- A second restart changes nothing. -/
  again : ∃ r', DurableStores.restore json (r.snapshot json).2 = some r' ∧ r'.state = r.state
  /-- Every reply that does not contain the audit log is the same, … -/
  replies : ∀ ops, repliesBesidesAudit json r ops = repliesBesidesAudit json s.cooled ops
  /-- … and both logs grow by the same entries, … -/
  grows : ∀ ops, ∃ added, (afterOps json r ops).state.audit = r.state.audit ++ added ∧
    (afterOps json s.cooled ops).state.audit = s.state.audit ++ added
  /-- … so that without a compaction every reply is the same. -/
  same : r.state.audit = s.state.audit →
    ∀ ops, Snapshot.replies json r ops = Snapshot.replies json s.cooled ops

theorem restores_compactedStores {s : DurableStores Text} (h : Coherent json s) :
    Restores json s (compactedStores json s) := by
  have hcooled : Coherent json s.cooled := h
  have hr : Coherent json (compactedStores json s) := coherent_compactedStores
  have hstate : (compactedStores json s).state =
      { s.state with audit := (compactedStores json s).state.audit } := by
    show (compactPathologicalRunnerRejections s.state).1 = _
    rcases compact_cases s.state with hc | ⟨-, -, -, hc⟩
    · unfold compactedStores
      rw [hc]
    · exact hc
  -- both are the store without an audit log, with their logs put in front
  have hbase : Coherent json s.bare := fun text ht => absurd ht (by simp [DurableStores.bare])
  have hp : Prepended s.state.audit s.bare s.cooled := ⟨by
    show s.state = { s.state with audit := s.state.audit ++ [] }
    rw [List.append_nil], rfl⟩
  have hp' : Prepended (compactedStores json s).state.audit s.bare
      (compactedStores json s) := ⟨by
    show _ = { s.state with audit := (compactedStores json s).state.audit ++ [] }
    rw [List.append_nil]
    exact hstate, rfl⟩
  refine ⟨hstate, ?_, ⟨_, restore_snapshot hr, compact_again s.state⟩, fun ops => ?_, fun ops => ?_,
    fun haudit ops => ?_⟩
  · rcases compact_cases s.state with hc | ⟨hlength, hcompacts, -, -⟩
    · exact .inl (congrArg StoreState.audit hc)
    · exact .inr ⟨hlength, hcompacts⟩
  · exact (hp'.run ops hbase hr).1.trans (hp.run ops hbase hcooled).1.symm
  · refine ⟨(afterOps json s.bare ops).state.audit, ?_, ?_⟩
    · exact congrArg StoreState.audit (hp'.run ops hbase hr).2.state
    · exact congrArg StoreState.audit (hp.run ops hbase hcooled).2.state
  · refine replies_of_state ops ⟨?_, rfl⟩ hcooled hr
    rw [hstate, haudit]
    rfl

/-- **Snapshots and restarts.** After every sequence of operations and restarts the snapshot is the
text of the current state, and what is restored from it behaves like the original. -/
theorem snapshot_restore (json : StateJson Text) (events : List Event) :
    ((run (step json) .new events).snapshot json).2 =
        json.stringify (run (step json) .new events).state ∧
      ∃ r, DurableStores.restore json ((run (step json) .new events).snapshot json).2 = some r ∧
        Restores json (run (step json) .new events) r := by
  have h := coherent_run json events
  exact ⟨snapshot_text h, _, restore_snapshot h, restores_compactedStores h⟩

end

/-- A text that is the state itself. -/
def plainJson : StateJson StoreState := ⟨id, some, fun _ => rfl⟩

/-- A rejection, repeated a second later. -/
def rejectionAt (now : ℤ) : Op :=
  .auditRateLimited "runner" RUNNER_EVENT_REJECTED_ACTION "malformed frame" now
    RUNNER_EVENT_REJECTION_AUDIT_WINDOW_MS

/-- The repetition is suppressed by the original and recorded by the restored store. -/
theorem restart_forgets_limiter :
    ¬ ∀ (events : List Event) (r : DurableStores StoreState),
      DurableStores.restore plainJson ((run (step plainJson) .new events).snapshot plainJson).2 =
          some r → (run (step plainJson) .new events).state.audit.length <
            RELAY_AUDIT_COMPACTION_THRESHOLD →
        ∀ ops, replies plainJson r ops = replies plainJson (run (step plainJson) .new events) ops := by
  intro h
  have hreply := h [.op (rejectionAt 0)] _ (restore_snapshot (coherent_run plainJson [.op (rejectionAt 0)]))
    (by decide) [rejectionAt 1000]
  have hflag : ∀ b b' : Bool,
      [Reply.flag b] = ([Reply.flag b'] : List (Reply StoreState)) → b = b' := by
    intro b b' hb
    exact Reply.flag.inj (List.cons.inj hb).1
  exact absurd (hflag true false hreply) (by decide)

end Norns.Server.Snapshot
