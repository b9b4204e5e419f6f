import Norns.Lib.Json
import Norns.Lib.OrdMap
import Norns.Lib.Run

/-! # The cancellation journal of a device

`deviceCancellationJournal.ts`: the evidence of cancellations in memory and in its file. An operation
changes the memory and then writes the file; the write may fail before or after the rename. The file is a
JSON value; its text is bounded.

* `parseJournal_toJson`: what is written is read back;
* `persist_cases`, `perform_kept`: what an operation does to the memory and the file;
* `run_durable`: what was reported is in the file, in every run whose early returns are covered by it. -/

namespace Norns.Runner.Journal

open Norns.Lib Norns.Lib.Run

def MAX_CANCELLATION_EVIDENCE_RECORDS : ℕ := 1000

def MAX_CANCELLATION_JOURNAL_BYTES : ℕ := 1024 * 1024

def MAX_SAFE_INTEGER : ℤ := 9007199254740991

/-! ### Identifiers and records -/

def opaqueChar (c : Char) : Bool := c.isAlphanum || c ∈ ['.', '_', ':', '-']

def hexChar (c : Char) : Bool := c.isDigit || ('A' ≤ c && c ≤ 'F') || ('a' ≤ c && c ≤ 'f')

/-- `^(?:[A-Za-z0-9._:-]|%[0-9A-Fa-f]{2})*$` -/
def opaqueText : List Char → Bool
  | [] => true
  | '%' :: a :: b :: rest => hexChar a && hexChar b && opaqueText rest
  | c :: rest => opaqueChar c && opaqueText rest

def validOpaqueId (value : String) : Bool :=
  decide (0 < value.length) && decide (value.length ≤ 200) && opaqueText value.toList

/-- The identity of the device's credential; its store checks it. -/
structure DeviceWssIdentity where
  device_id : String
  credential_id : String
  generation : ℤ
  device_valid : validOpaqueId device_id = true
  credential_valid : validOpaqueId credential_id = true
  generation_safe : 0 ≤ generation ∧ generation ≤ MAX_SAFE_INTEGER

/-- The evidence of a run; the run is its key. -/
structure Evidence where
  acknowledged_at : String
  acknowledged_server_acked : Bool := false
  process_exited_at : Option String := none
  process_tree_reaped : Bool := false
  process_exited_server_acked : Bool := false
  deriving DecidableEq

structure PersistedCancellationJournal where
  device_id : String
  credential_id : String
  generation : ℤ
  evidence : OrdMap String Evidence

inductive DeviceCancellationEvidenceState
  | runner_acknowledged | process_exited
  deriving DecidableEq, Repr

inductive JournalError
  | invalidAcknowledgement | full | invalidExit | unacknowledged | unproven | tooLarge | malformed
  | foreign | system
  deriving DecidableEq, Repr

def JournalError.text : JournalError → String
  | .invalidAcknowledgement => "invalid cancellation acknowledgement"
  | .full => "device cancellation journal is full; refusing untracked evidence"
  | .invalidExit => "invalid process-exit timestamp"
  | .unacknowledged => "cancellation must be acknowledged before process exit"
  | .unproven => "server acknowledged process exit without local reaping proof"
  | .tooLarge => "device cancellation journal exceeds its safe size limit"
  | .malformed => "device cancellation journal is malformed"
  | .foreign => "device cancellation journal belongs to another credential generation"
  | .system => ""

/-! ### The file -/

def optional : Option String → Json ℤ
  | none => .null
  | some text => .str text

def recordJson (entry : String × Evidence) : Json ℤ :=
  .obj [("run_id", .str entry.1), ("acknowledged_at", .str entry.2.acknowledged_at),
    ("acknowledged_server_acked", .bool entry.2.acknowledged_server_acked),
    ("process_exited_at", optional entry.2.process_exited_at),
    ("process_tree_reaped", .bool entry.2.process_tree_reaped),
    ("process_exited_server_acked", .bool entry.2.process_exited_server_acked)]

def PersistedCancellationJournal.toJson (journal : PersistedCancellationJournal) : Json ℤ :=
  .obj [("version", .num 1), ("device_id", .str journal.device_id),
    ("credential_id", .str journal.credential_id), ("generation", .num journal.generation),
    ("evidence", .arr (journal.evidence.entries.map recordJson))]

/-- A property of a parsed value; the last one of its name counts. -/
def property : Json ℤ → String → Option (Json ℤ)
  | .obj fields, name => (fields.reverse.find? fun field => field.1 = name).map Prod.snd
  | _, _ => none

section

variable (dateParses : String → Bool)

def parseRecord (candidate : Json ℤ) : Option (String × Evidence) :=
  match property candidate "run_id", property candidate "acknowledged_at",
    property candidate "acknowledged_server_acked", property candidate "process_exited_at",
    property candidate "process_tree_reaped", property candidate "process_exited_server_acked" with
  | some (.str run_id), some (.str acknowledged_at), some (.bool acknowledged), some .null,
      some (.bool false), some (.bool false) =>
    if validOpaqueId run_id = true ∧ dateParses acknowledged_at = true then
      some (run_id, { acknowledged_at, acknowledged_server_acked := acknowledged })
    else none
  | some (.str run_id), some (.str acknowledged_at), some (.bool acknowledged), some (.str exited_at),
      some (.bool true), some (.bool exited) =>
    if validOpaqueId run_id = true ∧ dateParses acknowledged_at = true ∧ dateParses exited_at = true then
      some (run_id, {
        acknowledged_at
        acknowledged_server_acked := acknowledged
        process_exited_at := some exited_at
        process_tree_reaped := true
        process_exited_server_acked := exited })
    else none
  | _, _, _, _, _, _ => none

/-- The records of the file; `seen` are the runs of those before. -/
def parseEvidence (seen : List String) : List (Json ℤ) → Option (List (String × Evidence))
  | [] => some []
  | candidate :: rest =>
    match parseRecord dateParses candidate with
    | none => none
    | some entry =>
      if entry.1 ∈ seen then none
      else (parseEvidence (entry.1 :: seen) rest).map (entry :: ·)

def parseJournal (parsed : Json ℤ) : Option PersistedCancellationJournal :=
  match property parsed "version", property parsed "device_id", property parsed "credential_id",
    property parsed "generation", property parsed "evidence" with
  | some (.num 1), some (.str device_id), some (.str credential_id), some (.num generation),
      some (.arr evidence) =>
    if validOpaqueId device_id = true ∧ validOpaqueId credential_id = true ∧ 0 ≤ generation ∧
        generation ≤ MAX_SAFE_INTEGER ∧ evidence.length ≤ MAX_CANCELLATION_EVIDENCE_RECORDS then
      (parseEvidence dateParses [] evidence).map fun entries =>
        { device_id, credential_id, generation, evidence := .ofList entries }
    else none
  | _, _, _, _, _ => none

end

/-- `Buffer.byteLength(JSON.stringify(…), "utf8")`, character for character. -/
def byteLength (value : Json ℤ) : ℕ := ((Json.write (fun n => toString n) value).map Char.utf8Size).sum

/-! ### Operations -/

/-- How a write of the file ends. -/
inductive Persist
  | written
  /-- It throws before the rename. -/
  | failed
  /-- It throws after the rename. -/
  | late
  deriving DecidableEq, Repr

/-- What the server was told of a run, until the run's record is no longer needed. -/
inductive Report
  | record (run_id : String) (evidence : Evidence)
  | mark (run_id : String) (state : DeviceCancellationEvidenceState)
  deriving DecidableEq

def Report.run_id : Report → String
  | .record run_id _ => run_id
  | .mark run_id _ => run_id

structure State where
  disk : Option (Json ℤ) := none
  /-- The evidence in memory; there is none before a process has opened the journal. -/
  memory : Option (OrdMap String Evidence) := none
  told : List Report := []

inductive Op
  /-- A process starts, after a crash or an exit. -/
  | open_ (outcome : Persist)
  | acknowledge (run_id acknowledgedAt : String) (outcome : Persist)
  | recordProcessExited (run_id processExitedAt : String) (outcome : Persist)
  | markServerAcknowledged (run_id : String) (state : DeviceCancellationEvidenceState)
      (outcome : Persist)

inductive Answer
  | opened
  | record (run_id : String) (evidence : Evidence)
  | marked (run_id : String) (state : DeviceCancellationEvidenceState)
  deriving DecidableEq

def Evidence.marked (evidence : Evidence) : DeviceCancellationEvidenceState → Bool
  | .runner_acknowledged => evidence.acknowledged_server_acked
  | .process_exited => evidence.process_exited_server_acked

def Evidence.mark (evidence : Evidence) : DeviceCancellationEvidenceState → Evidence
  | .runner_acknowledged => { evidence with acknowledged_server_acked := true }
  | .process_exited => { evidence with process_exited_server_acked := true }

/-- A fully acknowledged record. -/
def Evidence.done (evidence : Evidence) : Bool :=
  evidence.acknowledged_server_acked && evidence.process_exited_server_acked

def Evidence.exited (evidence : Evidence) (processExitedAt : String) : Evidence :=
  { evidence with
    process_exited_at := some processExitedAt
    process_tree_reaped := true
    process_exited_server_acked := false }

section

variable (identity : DeviceWssIdentity) (dateParses : String → Bool)

def journal (evidence : OrdMap String Evidence) : PersistedCancellationJournal where
  device_id := identity.device_id
  credential_id := identity.credential_id
  generation := identity.generation
  evidence := evidence

/-- The memory is changed, then written; the answer is given if the write returns. -/
def persist (s : State) (evidence : OrdMap String Evidence) (outcome : Persist) (answer : Answer)
    (told : List Report) : Except JournalError Answer × State :=
  let serialized := (journal identity evidence).toJson
  if MAX_CANCELLATION_JOURNAL_BYTES < byteLength serialized then
    (.error .tooLarge, { s with memory := some evidence })
  else match outcome with
    | .written => (.ok answer, { disk := some serialized, memory := some evidence, told := told })
    | .failed => (.error .system, { s with memory := some evidence })
    | .late => (.error .system, { s with disk := some serialized, memory := some evidence })

/-- The constructor. -/
def open_ (s : State) (outcome : Persist) : Except JournalError Answer × State :=
  match s.disk with
  | none =>
    match persist identity s .empty outcome .opened s.told with
    | (.ok answer, s') => (.ok answer, s')
    | (.error error, s') => (.error error, { s' with memory := none })
  | some parsed =>
    if MAX_CANCELLATION_JOURNAL_BYTES < byteLength parsed then
      (.error .tooLarge, { s with memory := none })
    else match parseJournal dateParses parsed with
    | none => (.error .malformed, { s with memory := none })
    | some journal =>
      if journal.device_id ≠ identity.device_id ∨ journal.credential_id ≠ identity.credential_id ∨
          journal.generation ≠ identity.generation then
        (.error .foreign, { s with memory := none })
      -- the mode of the file is set again
      else if outcome = .written then (.ok .opened, { s with memory := some journal.evidence })
      else (.error .system, { s with memory := none })

def acknowledge (s : State) (evidence : OrdMap String Evidence) (run_id acknowledgedAt : String)
    (outcome : Persist) : Except JournalError Answer × State :=
  if validOpaqueId run_id = false ∨ dateParses acknowledgedAt = false then
    (.error .invalidAcknowledgement, s)
  else match evidence.get? run_id with
    | some record => (.ok (.record run_id record), { s with told := .record run_id record :: s.told })
    | none =>
      if MAX_CANCELLATION_EVIDENCE_RECORDS ≤ evidence.entries.length then (.error .full, s)
      else
        let record : Evidence := { acknowledged_at := acknowledgedAt }
        persist identity s (evidence.set run_id record) outcome (.record run_id record)
          (.record run_id record :: s.told)

def recordProcessExited (s : State) (evidence : OrdMap String Evidence)
    (run_id processExitedAt : String) (outcome : Persist) : Except JournalError Answer × State :=
  if dateParses processExitedAt = false then (.error .invalidExit, s)
  else match evidence.get? run_id with
    | none => (.error .unacknowledged, s)
    | some record =>
      if record.process_exited_at ≠ none then
        (.ok (.record run_id record), { s with told := .record run_id record :: s.told })
      else
        persist identity s (evidence.set run_id (record.exited processExitedAt)) outcome
          (.record run_id (record.exited processExitedAt))
          (.record run_id (record.exited processExitedAt) :: s.told)

def markServerAcknowledged (s : State) (evidence : OrdMap String Evidence) (run_id : String)
    (state : DeviceCancellationEvidenceState) (outcome : Persist) : Except JournalError Answer × State :=
  match evidence.get? run_id with
  | none => (.ok (.marked run_id state), s)
  | some record =>
    if state = .process_exited ∧
        (record.process_exited_at = none ∨ record.process_tree_reaped = false) then
      (.error .unproven, s)
    else if record.marked state = true then
      (.ok (.marked run_id state), { s with told := .mark run_id state :: s.told })
    else if (record.mark state).done = true then
      -- the server needs no more of this run
      let told := s.told.filter fun report => report.run_id ≠ run_id
      persist identity { s with told } (evidence.delete run_id) outcome (.marked run_id state) told
    else
      persist identity s (evidence.set run_id (record.mark state)) outcome (.marked run_id state)
        (.mark run_id state :: s.told)

/-- An operation of the process that has the journal open. -/
def perform (s : State) : Op → Except JournalError Answer × State
  | .open_ outcome => open_ identity dateParses s outcome
  | .acknowledge run_id acknowledgedAt outcome =>
    match s.memory with
    | none => (.error .system, s)
    | some evidence => acknowledge identity dateParses s evidence run_id acknowledgedAt outcome
  | .recordProcessExited run_id processExitedAt outcome =>
    match s.memory with
    | none => (.error .system, s)
    | some evidence => recordProcessExited identity dateParses s evidence run_id processExitedAt outcome
  | .markServerAcknowledged run_id state outcome =>
    match s.memory with
    | none => (.error .system, s)
    | some evidence => markServerAcknowledged identity s evidence run_id state outcome

def step (s : State) (op : Op) : State := (perform identity dateParses s op).2

end

/-! ### What is written is read back -/

section

variable (dateParses : String → Bool)

/-- What the parser asks of a record. -/
def Evidence.Valid (evidence : Evidence) : Prop :=
  dateParses evidence.acknowledged_at = true ∧ match evidence.process_exited_at with
    | none => evidence.process_tree_reaped = false ∧ evidence.process_exited_server_acked = false
    | some exited_at => dateParses exited_at = true ∧ evidence.process_tree_reaped = true

/-- What the parser asks of the records. -/
structure ValidEvidence (evidence : OrdMap String Evidence) : Prop where
  records : ∀ run_id record, evidence.get? run_id = some record →
    validOpaqueId run_id = true ∧ record.Valid dateParses
  bounded : evidence.entries.length ≤ MAX_CANCELLATION_EVIDENCE_RECORDS

variable {dateParses}

theorem parseRecord_recordJson {entry : String × Evidence} (hid : validOpaqueId entry.1 = true)
    (hvalid : entry.2.Valid dateParses) : parseRecord dateParses (recordJson entry) = some entry := by
  obtain ⟨run_id, acknowledged_at, acknowledged, exited_at, reaped, exited⟩ := entry
  obtain ⟨hacknowledged, hexited⟩ := hvalid
  cases exited_at with
  | none =>
    obtain ⟨hreaped, hacked⟩ := hexited
    cases (show reaped = false from hreaped)
    cases (show exited = false from hacked)
    exact if_pos ⟨hid, hacknowledged⟩
  | some exited_at =>
    obtain ⟨hdate, hreaped⟩ := hexited
    cases (show reaped = true from hreaped)
    exact if_pos ⟨hid, hacknowledged, hdate⟩

theorem parseEvidence_map {entries : List (String × Evidence)} {seen : List String}
    (hnodup : (entries.map Prod.fst).Nodup) (hseen : ∀ entry ∈ entries, entry.1 ∉ seen)
    (hvalid : ∀ entry ∈ entries, validOpaqueId entry.1 = true ∧ entry.2.Valid dateParses) :
    parseEvidence dateParses seen (entries.map recordJson) = some entries := by
  induction entries generalizing seen with
  | nil => rfl
  | cons entry entries ih =>
    rw [List.map_cons, List.nodup_cons] at hnodup
    obtain ⟨hid, hentry⟩ := hvalid entry List.mem_cons_self
    have hrest : parseEvidence dateParses (entry.1 :: seen) (entries.map recordJson) = some entries := by
      refine ih hnodup.2 ?_ fun other hother => hvalid other (List.mem_cons_of_mem _ hother)
      intro other hother hmem
      rcases List.mem_cons.mp hmem with hsame | hmem
      · exact hnodup.1 (hsame ▸ List.mem_map_of_mem hother)
      · exact hseen other (List.mem_cons_of_mem _ hother) hmem
    unfold parseEvidence
    rw [List.map_cons]
    dsimp only
    rw [parseRecord_recordJson hid hentry]
    dsimp only
    rw [if_neg (hseen entry List.mem_cons_self), hrest]
    rfl

/-- **What is written is read back.** -/
theorem parseJournal_toJson (identity : DeviceWssIdentity) {evidence : OrdMap String Evidence}
    (h : ValidEvidence dateParses evidence) :
    parseJournal dateParses (journal identity evidence).toJson = some (journal identity evidence) := by
  have hparse : parseEvidence dateParses [] (evidence.entries.map recordJson) =
      some evidence.entries := by
    refine parseEvidence_map evidence.nodup (fun _ _ => List.not_mem_nil) ?_
    intro entry hentry
    exact h.records _ _ (OrdMap.mem_entries.mp hentry)
  have hbounded : (evidence.entries.map recordJson).length ≤ MAX_CANCELLATION_EVIDENCE_RECORDS := by
    rw [List.length_map]
    exact h.bounded
  have hread : parseJournal dateParses (journal identity evidence).toJson =
      (parseEvidence dateParses [] (evidence.entries.map recordJson)).map fun entries =>
        { device_id := identity.device_id, credential_id := identity.credential_id,
          generation := identity.generation, evidence := .ofList entries } :=
    if_pos ⟨identity.device_valid, identity.credential_valid, identity.generation_safe.1,
      identity.generation_safe.2, hbounded⟩
  rw [hread, hparse]
  rw [Option.map_some, OrdMap.ext_entries (OrdMap.entries_ofList evidence.nodup)]
  rfl

end

/-! ### What the memory and the file keep -/

/-- The later record says at least what the earlier one did. -/
structure Evidence.Le (evidence later : Evidence) : Prop where
  acknowledged_at : later.acknowledged_at = evidence.acknowledged_at
  acknowledged : evidence.acknowledged_server_acked = true → later.acknowledged_server_acked = true
  process_exited_at : ∀ at_ ∈ evidence.process_exited_at, later.process_exited_at = some at_
  reaped : evidence.process_tree_reaped = true → later.process_tree_reaped = true
  exited : evidence.process_exited_server_acked = true → later.process_exited_server_acked = true

/-- The evidence is at least as advanced as the report. -/
def Satisfied (evidence : OrdMap String Evidence) : Report → Prop
  | .record run_id record => ∃ later ∈ evidence.get? run_id, record.Le later
  | .mark run_id state => ∃ later ∈ evidence.get? run_id, later.marked state = true

section

variable (identity : DeviceWssIdentity) (dateParses : String → Bool)

/-- The evidence in the file. -/
def onDisk (s : State) : OrdMap String Evidence :=
  ((s.disk.bind (parseJournal dateParses)).map PersistedCancellationJournal.evidence).getD .empty

/-- The file holds `evidence`, as the journal writes it. -/
structure Written (evidence : OrdMap String Evidence) (parsed : Json ℤ) : Prop where
  written : parsed = (journal identity evidence).toJson
  valid : ValidEvidence dateParses evidence
  bounded : byteLength parsed ≤ MAX_CANCELLATION_JOURNAL_BYTES

structure Kept (s : State) : Prop where
  memory : ∀ evidence ∈ s.memory,
    ValidEvidence dateParses evidence ∧ ∀ report ∈ s.told, Satisfied evidence report
  disk : ∀ parsed ∈ s.disk, ∃ evidence, Written identity dateParses evidence parsed ∧
    ∀ report ∈ s.told, Satisfied evidence report
  fresh : s.disk = none → s.told = []

variable {identity dateParses} {s : State} {evidence : OrdMap String Evidence} {run_id : String}
  {record later : Evidence}

theorem Evidence.Le.refl (record : Evidence) : record.Le record :=
  ⟨rfl, id, fun _ h => h, id, id⟩

theorem Evidence.Le.trans {a b c : Evidence} (h : a.Le b) (h' : b.Le c) : a.Le c :=
  ⟨h'.acknowledged_at.trans h.acknowledged_at, fun ha => h'.acknowledged (h.acknowledged ha),
    fun at_ hat => h'.process_exited_at at_ (h.process_exited_at at_ hat),
    fun ha => h'.reaped (h.reaped ha), fun ha => h'.exited (h.exited ha)⟩

theorem Evidence.Le.marked (h : record.Le later) {state : DeviceCancellationEvidenceState}
    (hmarked : record.marked state = true) : later.marked state = true := by
  cases state with
  | runner_acknowledged => exact h.acknowledged hmarked
  | process_exited => exact h.exited hmarked

theorem le_mark (record : Evidence) (state : DeviceCancellationEvidenceState) :
    record.Le (record.mark state) := by
  cases state with
  | runner_acknowledged => exact ⟨rfl, fun _ => rfl, fun _ h => h, id, id⟩
  | process_exited => exact ⟨rfl, id, fun _ h => h, id, fun _ => rfl⟩

theorem marked_mark (record : Evidence) (state : DeviceCancellationEvidenceState) :
    (record.mark state).marked state = true := by
  cases state <;> rfl

theorem le_exited (hvalid : record.Valid dateParses) (hnone : record.process_exited_at = none)
    (processExitedAt : String) : record.Le (record.exited processExitedAt) := by
  have hacked : record.process_exited_server_acked = false := by
    have hrest := hvalid.2
    rw [hnone] at hrest
    exact hrest.2
  refine ⟨rfl, id, ?_, fun _ => rfl, ?_⟩
  · intro at_ hat
    rw [hnone] at hat
    cases hat
  · intro hexited
    rw [hacked] at hexited
    cases hexited

/-- A record that advances, or is new. -/
theorem Satisfied.set {report : Report} (h : Satisfied evidence report)
    (hle : ∀ record ∈ evidence.get? run_id, record.Le later) :
    Satisfied (evidence.set run_id later) report := by
  have hadvance : ∀ id, ∀ record ∈ evidence.get? id,
      ∃ record' ∈ (evidence.set run_id later).get? id, record.Le record' := by
    intro id record hrecord
    rw [OrdMap.get?_set]
    split_ifs with hid
    · subst hid
      exact ⟨later, rfl, hle record hrecord⟩
    · exact ⟨record, hrecord, Evidence.Le.refl record⟩
  cases report with
  | record id reported =>
    obtain ⟨found, hfound, hreported⟩ := h
    obtain ⟨found', hfound', hle'⟩ := hadvance id found hfound
    exact ⟨found', hfound', hreported.trans hle'⟩
  | mark id state =>
    obtain ⟨found, hfound, hmarked⟩ := h
    obtain ⟨found', hfound', hle'⟩ := hadvance id found hfound
    exact ⟨found', hfound', hle'.marked hmarked⟩

theorem Satisfied.delete {report : Report} (h : Satisfied evidence report)
    (hne : report.run_id ≠ run_id) : Satisfied (evidence.delete run_id) report := by
  cases report with
  | record id reported =>
    have hid : id ≠ run_id := hne
    obtain ⟨found, hfound, hreported⟩ := h
    exact ⟨found, by rw [OrdMap.get?_delete_ne _ hid.symm]; exact hfound, hreported⟩
  | mark id state =>
    have hid : id ≠ run_id := hne
    obtain ⟨found, hfound, hmarked⟩ := h
    exact ⟨found, by rw [OrdMap.get?_delete_ne _ hid.symm]; exact hfound, hmarked⟩

theorem ValidEvidence.set (h : ValidEvidence dateParses evidence)
    (hrecord : validOpaqueId run_id = true ∧ later.Valid dateParses)
    (hbounded : (evidence.set run_id later).entries.length ≤ MAX_CANCELLATION_EVIDENCE_RECORDS) :
    ValidEvidence dateParses (evidence.set run_id later) := by
  refine ⟨fun id record hget => ?_, hbounded⟩
  rw [OrdMap.get?_set] at hget
  split_ifs at hget with hid
  · cases hget
    exact hid ▸ hrecord
  · exact h.records id record hget

theorem length_set_of_get? (h : evidence.get? run_id = some record) (later : Evidence) :
    (evidence.set run_id later).entries.length = evidence.entries.length := by
  have hkeys := OrdMap.keys_set evidence run_id later
  have hmem : run_id ∈ evidence.keys := OrdMap.mem_keys.mpr ⟨record, h⟩
  rw [if_pos hmem] at hkeys
  have hlength := congrArg List.length hkeys
  unfold OrdMap.keys at hlength
  rwa [List.length_map, List.length_map] at hlength

theorem onDisk_of_written {parsed : Json ℤ} (hdisk : s.disk = some parsed)
    (h : Written identity dateParses evidence parsed) : onDisk dateParses s = evidence := by
  unfold onDisk
  rw [hdisk, Option.bind_some, h.written, parseJournal_toJson identity h.valid]
  rfl

variable (identity) in
/-- **What a write does**: all of it, or the memory's half with or without the file. -/
theorem persist_cases (s : State) (evidence : OrdMap String Evidence) (outcome : Persist)
    (answer : Answer) (told : List Report) :
    (byteLength (journal identity evidence).toJson ≤ MAX_CANCELLATION_JOURNAL_BYTES ∧
      persist identity s evidence outcome answer told = (.ok answer,
        { disk := some (journal identity evidence).toJson, memory := some evidence, told := told })) ∨
    ∃ error, persist identity s evidence outcome answer told =
        (.error error, { s with memory := some evidence }) ∨
      (byteLength (journal identity evidence).toJson ≤ MAX_CANCELLATION_JOURNAL_BYTES ∧
        persist identity s evidence outcome answer told = (.error error,
          { s with disk := some (journal identity evidence).toJson, memory := some evidence })) := by
  unfold persist
  dsimp only
  split_ifs with hlarge
  · exact Or.inr ⟨_, Or.inl rfl⟩
  · have hbounded := Nat.le_of_not_lt hlarge
    cases outcome with
    | written => exact Or.inl ⟨hbounded, rfl⟩
    | failed => exact Or.inr ⟨_, Or.inl rfl⟩
    | late => exact Or.inr ⟨_, Or.inr ⟨hbounded, rfl⟩⟩

/-- A write of evidence that is at least as advanced as what was and will be reported. -/
theorem persist_kept (h : Kept identity dateParses s) (hvalid : ValidEvidence dateParses evidence)
    (outcome : Persist) (answer : Answer) {told : List Report}
    (hbefore : ∀ report ∈ s.told, Satisfied evidence report)
    (hafter : ∀ report ∈ told, Satisfied evidence report) :
    Kept identity dateParses (persist identity s evidence outcome answer told).2 := by
  rcases persist_cases identity s evidence outcome answer told with ⟨hbounded, hrun⟩ |
    ⟨error, hrun | ⟨hbounded, hrun⟩⟩
  · rw [hrun]
    constructor
    · rintro _ ⟨⟩
      exact ⟨hvalid, hafter⟩
    · rintro _ ⟨⟩
      exact ⟨evidence, ⟨rfl, hvalid, hbounded⟩, hafter⟩
    · intro hnone
      cases hnone
  · rw [hrun]
    constructor
    · rintro _ ⟨⟩
      exact ⟨hvalid, hbefore⟩
    · exact h.disk
    · exact h.fresh
  · rw [hrun]
    constructor
    · rintro _ ⟨⟩
      exact ⟨hvalid, hbefore⟩
    · rintro _ ⟨⟩
      exact ⟨evidence, ⟨rfl, hvalid, hbounded⟩, hbefore⟩
    · intro hnone
      cases hnone

/-! ### Operations -/

variable (dateParses) in
/-- An operation that finds in memory what it is asked for finds it in the file as well. -/
def Covered (s : State) : Op → Prop
  | .open_ _ => True
  | .acknowledge run_id acknowledgedAt _ =>
    validOpaqueId run_id = true → dateParses acknowledgedAt = true →
      ∀ evidence ∈ s.memory, ∀ record ∈ evidence.get? run_id,
        (onDisk dateParses s).get? run_id = some record
  | .recordProcessExited run_id processExitedAt _ =>
    dateParses processExitedAt = true →
      ∀ evidence ∈ s.memory, ∀ record ∈ evidence.get? run_id, record.process_exited_at ≠ none →
        (onDisk dateParses s).get? run_id = some record
  | .markServerAcknowledged run_id state _ =>
    ∀ evidence ∈ s.memory, match evidence.get? run_id with
      | none => ∀ record ∈ (onDisk dateParses s).get? run_id, record.marked state = true
      | some record => record.marked state = true →
          ∃ record ∈ (onDisk dateParses s).get? run_id, record.marked state = true

instance (s : State) (op : Op) : Decidable (Covered dateParses s op) := by
  cases op with
  | open_ outcome => exact inferInstanceAs (Decidable True)
  | acknowledge run_id acknowledgedAt outcome => unfold Covered; infer_instance
  | recordProcessExited run_id processExitedAt outcome => unfold Covered; infer_instance
  | markServerAcknowledged run_id state outcome =>
    have : ∀ evidence : OrdMap String Evidence,
        Decidable (match evidence.get? run_id with
          | none => ∀ record ∈ (onDisk dateParses s).get? run_id, record.marked state = true
          | some record => record.marked state = true →
              ∃ record ∈ (onDisk dateParses s).get? run_id, record.marked state = true) := by
      intro evidence
      cases evidence.get? run_id <;> infer_instance
    unfold Covered; infer_instance

variable (dateParses) in
/-- What an operation answers is in the file: the record, or no record without the mark. -/
def Filed (s : State) : Answer → Prop
  | .opened => True
  | .record run_id record => (onDisk dateParses s).get? run_id = some record
  | .marked run_id state => ∀ record ∈ (onDisk dateParses s).get? run_id, record.marked state = true

/-- A report that the memory and the file already satisfy. -/
theorem Kept.tell {report : Report} (h : Kept identity dateParses s)
    (hmemory : ∀ evidence ∈ s.memory, Satisfied evidence report)
    (hdisk : Satisfied (onDisk dateParses s) report) :
    Kept identity dateParses { s with told := report :: s.told } := by
  constructor
  · intro evidence hevidence
    refine ⟨(h.memory evidence hevidence).1, fun other hother => ?_⟩
    rcases List.mem_cons.mp hother with rfl | hother
    · exact hmemory evidence hevidence
    · exact (h.memory evidence hevidence).2 other hother
  · intro parsed hparsed
    obtain ⟨evidence, hwritten, htold⟩ := h.disk parsed hparsed
    refine ⟨evidence, hwritten, fun other hother => ?_⟩
    rcases List.mem_cons.mp hother with rfl | hother
    · rw [onDisk_of_written (s := s) hparsed hwritten] at hdisk
      exact hdisk
    · exact htold other hother
  · intro hnone
    have hempty : onDisk dateParses s = .empty := by
      unfold onDisk
      rw [show s.disk = none from hnone]
      rfl
    rw [hempty] at hdisk
    cases report with
    | record id record =>
      obtain ⟨found, hfound, -⟩ := hdisk
      cases hfound
    | mark id state =>
      obtain ⟨found, hfound, -⟩ := hdisk
      cases hfound

/-- What was told of other runs stays. -/
theorem Kept.forget (h : Kept identity dateParses s) (keep : Report → Bool) :
    Kept identity dateParses { s with told := s.told.filter keep } := by
  constructor
  · intro evidence hevidence
    obtain ⟨hvalid, htold⟩ := h.memory evidence hevidence
    exact ⟨hvalid, fun report hreport => htold report (List.mem_filter.mp hreport).1⟩
  · intro parsed hparsed
    obtain ⟨evidence, hwritten, htold⟩ := h.disk parsed hparsed
    exact ⟨evidence, hwritten, fun report hreport => htold report (List.mem_filter.mp hreport).1⟩
  · intro hnone
    show s.told.filter keep = []
    rw [h.fresh hnone]
    rfl

/-- What a write answers is in the file. -/
theorem persist_filed (hvalid : ValidEvidence dateParses evidence) (outcome : Persist)
    {answer answer' : Answer} {told : List Report}
    (hanswer : (persist identity s evidence outcome answer told).1 = .ok answer') :
    answer' = answer ∧
      onDisk dateParses (persist identity s evidence outcome answer told).2 = evidence := by
  rcases persist_cases identity s evidence outcome answer told with ⟨hbounded, hrun⟩ |
    ⟨error, hrun | ⟨hbounded, hrun⟩⟩
  · rw [hrun] at hanswer ⊢
    cases hanswer
    exact ⟨rfl, onDisk_of_written rfl ⟨rfl, hvalid, hbounded⟩⟩
  · rw [hrun] at hanswer
    cases hanswer
  · rw [hrun] at hanswer
    cases hanswer

theorem empty_valid : ValidEvidence dateParses .empty := by
  refine ⟨fun run_id record hget => ?_, Nat.zero_le _⟩
  cases hget

theorem Kept.shut (h : Kept identity dateParses s) :
    Kept identity dateParses { s with memory := none } :=
  ⟨fun _ hnone => (by cases hnone), h.disk, h.fresh⟩

/-- The constructor on a written file. -/
theorem open_of_written {parsed : Json ℤ} (hdisk : s.disk = some parsed)
    (h : Written identity dateParses evidence parsed) (outcome : Persist) :
    open_ identity dateParses s outcome =
      if outcome = .written then (.ok .opened, { s with memory := some evidence })
      else (.error .system, { s with memory := none }) := by
  unfold open_
  rw [hdisk]
  dsimp only
  rw [if_neg (Nat.not_lt.mpr h.bounded), h.written, parseJournal_toJson identity h.valid]
  dsimp only
  have hsame : ¬ ((journal identity evidence).device_id ≠ identity.device_id ∨
      (journal identity evidence).credential_id ≠ identity.credential_id ∨
        (journal identity evidence).generation ≠ identity.generation) := by
    rintro (hne | hne | hne) <;> exact hne rfl
  rw [if_neg hsame]
  rfl

theorem step_open {parsed : Json ℤ} (hdisk : s.disk = some parsed)
    (h : Written identity dateParses evidence parsed) :
    (step identity dateParses s (.open_ .written)).memory = some evidence := by
  unfold step perform
  dsimp only
  rw [open_of_written hdisk h, if_pos rfl]

theorem open_kept (h : Kept identity dateParses s) (outcome : Persist) :
    Kept identity dateParses (open_ identity dateParses s outcome).2 := by
  cases hdisk : s.disk with
  | some parsed =>
    obtain ⟨evidence, hwritten, htold⟩ := h.disk parsed hdisk
    rw [open_of_written hdisk hwritten]
    split_ifs
    · refine ⟨?_, h.disk, h.fresh⟩
      rintro _ ⟨⟩
      exact ⟨hwritten.valid, htold⟩
    · exact h.shut
  | none =>
    have hnothing : ∀ report ∈ s.told, Satisfied .empty report := by
      rw [h.fresh hdisk]
      intro report hreport
      cases hreport
    have hkept := persist_kept h empty_valid outcome .opened hnothing hnothing
    unfold open_
    rw [hdisk]
    dsimp only
    generalize hrun : persist identity s .empty outcome .opened s.told = result at hkept
    obtain ⟨error | answer, s'⟩ := result
    · exact hkept.shut
    · exact hkept

theorem open_answer (h : Kept identity dateParses s) (outcome : Persist) {answer : Answer}
    (hanswer : (open_ identity dateParses s outcome).1 = .ok answer) : answer = .opened := by
  cases hdisk : s.disk with
  | none =>
    unfold open_ at hanswer
    rw [hdisk] at hanswer
    dsimp only at hanswer
    rcases persist_cases identity s .empty outcome .opened s.told with ⟨-, hrun⟩ |
      ⟨error, hrun | ⟨-, hrun⟩⟩
    · rw [hrun] at hanswer
      cases hanswer
      rfl
    · rw [hrun] at hanswer
      cases hanswer
    · rw [hrun] at hanswer
      cases hanswer
  | some parsed =>
    obtain ⟨evidence, hwritten, -⟩ := h.disk parsed hdisk
    rw [open_of_written hdisk hwritten] at hanswer
    split_ifs at hanswer
    cases hanswer
    rfl

/-- Kept, and what is answered is in the file. -/
def Sound (identity : DeviceWssIdentity) (dateParses : String → Bool)
    (result : Except JournalError Answer × State) : Prop :=
  Kept identity dateParses result.2 ∧ ∀ answer, result.1 = .ok answer → Filed dateParses result.2 answer

theorem sound_error (h : Kept identity dateParses s) (error : JournalError) :
    Sound identity dateParses (.error error, s) := ⟨h, fun _ hanswer => by cases hanswer⟩

theorem acknowledge_sound (h : Kept identity dateParses s) (hmemory : s.memory = some evidence)
    (acknowledgedAt : String) (outcome : Persist)
    (hcovered : Covered dateParses s (.acknowledge run_id acknowledgedAt outcome)) :
    Sound identity dateParses
      (acknowledge identity dateParses s evidence run_id acknowledgedAt outcome) := by
  obtain ⟨hvalid, htold⟩ := h.memory evidence hmemory
  unfold acknowledge
  by_cases hinvalid : validOpaqueId run_id = false ∨ dateParses acknowledgedAt = false
  · rw [if_pos hinvalid]
    exact sound_error h _
  · rw [if_neg hinvalid]
    have hid : validOpaqueId run_id = true := by
      cases hid : validOpaqueId run_id with
      | false => exact absurd (Or.inl hid) hinvalid
      | true => rfl
    have hdate : dateParses acknowledgedAt = true := by
      cases hdate : dateParses acknowledgedAt with
      | false => exact absurd (Or.inr hdate) hinvalid
      | true => rfl
    cases hrecord : evidence.get? run_id with
    | some record =>
      have hfiled := hcovered hid hdate evidence hmemory record hrecord
      refine ⟨h.tell ?_ ⟨record, hfiled, .refl record⟩, ?_⟩
      · intro other hother
        cases hmemory.symm.trans hother
        exact ⟨record, hrecord, .refl record⟩
      · rintro answer ⟨⟩
        exact hfiled
    | none =>
      dsimp only
      split_ifs with hfull
      · exact sound_error h _
      · have hnew : ValidEvidence dateParses (evidence.set run_id { acknowledged_at := acknowledgedAt }) := by
          refine hvalid.set ⟨hid, hdate, rfl, rfl⟩ ?_
          rw [OrdMap.entries_set_of_none _ hrecord, List.length_append, List.length_singleton]
          omega
        have hbefore : ∀ report ∈ s.told,
            Satisfied (evidence.set run_id { acknowledged_at := acknowledgedAt }) report := by
          intro report hreport
          refine (htold report hreport).set fun record hget => ?_
          rw [hrecord] at hget
          cases hget
        refine ⟨persist_kept h hnew outcome _ hbefore ?_, ?_⟩
        · intro report hreport
          rcases List.mem_cons.mp hreport with rfl | hreport
          · exact ⟨_, OrdMap.get?_set_self _ _ _, .refl _⟩
          · exact hbefore report hreport
        · intro answer hanswer
          obtain ⟨rfl, hdisk⟩ := persist_filed hnew outcome hanswer
          unfold Filed
          dsimp only
          rw [hdisk]
          exact OrdMap.get?_set_self _ _ _

theorem recordProcessExited_sound (h : Kept identity dateParses s) (hmemory : s.memory = some evidence)
    (processExitedAt : String) (outcome : Persist)
    (hcovered : Covered dateParses s (.recordProcessExited run_id processExitedAt outcome)) :
    Sound identity dateParses
      (recordProcessExited identity dateParses s evidence run_id processExitedAt outcome) := by
  obtain ⟨hvalid, htold⟩ := h.memory evidence hmemory
  unfold recordProcessExited
  split_ifs with hinvalid
  · exact sound_error h _
  · have hdate : dateParses processExitedAt = true := by simpa using hinvalid
    cases hrecord : evidence.get? run_id with
    | none => exact sound_error h _
    | some record =>
      dsimp only
      obtain ⟨hid, hrecordValid⟩ := hvalid.records run_id record hrecord
      split_ifs with hexited
      · have hfiled := hcovered hdate evidence hmemory record hrecord hexited
        refine ⟨h.tell ?_ ⟨record, hfiled, .refl record⟩, ?_⟩
        · intro other hother
          cases hmemory.symm.trans hother
          exact ⟨record, hrecord, .refl record⟩
        · rintro answer ⟨⟩
          exact hfiled
      · rw [not_not] at hexited
        have hnew : ValidEvidence dateParses (evidence.set run_id (record.exited processExitedAt)) := by
          refine hvalid.set ⟨hid, hrecordValid.1, hdate, rfl⟩ ?_
          rw [length_set_of_get? hrecord]
          exact hvalid.bounded
        have hbefore : ∀ report ∈ s.told,
            Satisfied (evidence.set run_id (record.exited processExitedAt)) report := by
          intro report hreport
          refine (htold report hreport).set fun other hget => ?_
          cases hrecord.symm.trans hget
          exact le_exited hrecordValid hexited processExitedAt
        refine ⟨persist_kept h hnew outcome _ hbefore ?_, ?_⟩
        · intro report hreport
          rcases List.mem_cons.mp hreport with rfl | hreport
          · exact ⟨_, OrdMap.get?_set_self _ _ _, .refl _⟩
          · exact hbefore report hreport
        · intro answer hanswer
          obtain ⟨rfl, hdisk⟩ := persist_filed hnew outcome hanswer
          unfold Filed
          dsimp only
          rw [hdisk]
          exact OrdMap.get?_set_self _ _ _

theorem mark_valid (h : record.Valid dateParses) {state : DeviceCancellationEvidenceState}
    (hproof : ¬ (state = .process_exited ∧
      (record.process_exited_at = none ∨ record.process_tree_reaped = false))) :
    (record.mark state).Valid dateParses := by
  cases state with
  | runner_acknowledged => exact h
  | process_exited =>
    refine ⟨h.1, ?_⟩
    have hrest := h.2
    show match record.process_exited_at with
      | none => record.process_tree_reaped = false ∧ true = false
      | some exited_at => dateParses exited_at = true ∧ record.process_tree_reaped = true
    cases hexited : record.process_exited_at with
    | none => exact absurd ⟨rfl, Or.inl hexited⟩ hproof
    | some exited_at =>
      rw [hexited] at hrest
      exact hrest

theorem markServerAcknowledged_sound (h : Kept identity dateParses s)
    (hmemory : s.memory = some evidence) (state : DeviceCancellationEvidenceState) (outcome : Persist)
    (hcovered : Covered dateParses s (.markServerAcknowledged run_id state outcome)) :
    Sound identity dateParses (markServerAcknowledged identity s evidence run_id state outcome) := by
  obtain ⟨hvalid, htold⟩ := h.memory evidence hmemory
  have hcovered := hcovered evidence hmemory
  unfold markServerAcknowledged
  cases hrecord : evidence.get? run_id with
  | none =>
    rw [hrecord] at hcovered
    refine ⟨h, ?_⟩
    rintro answer ⟨⟩
    exact hcovered
  | some record =>
    rw [hrecord] at hcovered
    dsimp only at hcovered ⊢
    obtain ⟨hid, hrecordValid⟩ := hvalid.records run_id record hrecord
    by_cases hproof : state = .process_exited ∧
        (record.process_exited_at = none ∨ record.process_tree_reaped = false)
    · rw [if_pos hproof]
      exact sound_error h _
    rw [if_neg hproof]
    by_cases hmarked : record.marked state = true
    · rw [if_pos hmarked]
      obtain ⟨filed, hfiled, hfiledMarked⟩ := hcovered hmarked
      refine ⟨h.tell ?_ ⟨filed, hfiled, hfiledMarked⟩, ?_⟩
      · intro other hother
        cases hmemory.symm.trans hother
        exact ⟨record, hrecord, hmarked⟩
      · rintro answer ⟨⟩
        intro other hother
        cases (show some filed = some other from hfiled.symm.trans hother)
        exact hfiledMarked
    rw [if_neg hmarked]
    by_cases hdone : (record.mark state).done = true
    · rw [if_pos hdone]
      have hnew : ValidEvidence dateParses (evidence.delete run_id) := by
        refine ⟨fun id other hget => ?_, ?_⟩
        · by_cases hne : run_id = id
          · subst hne
            rw [OrdMap.get?_delete_self] at hget
            cases hget
          · rw [OrdMap.get?_delete_ne _ hne] at hget
            exact hvalid.records id other hget
        · exact (List.length_filter_le _ _).trans hvalid.bounded
      have hforgot : ∀ report ∈ s.told.filter fun report => report.run_id ≠ run_id,
          Satisfied (evidence.delete run_id) report := by
        intro report hreport
        obtain ⟨hmem, hne⟩ := List.mem_filter.mp hreport
        exact (htold report hmem).delete (by simpa using hne)
      refine ⟨persist_kept (h.forget _) hnew outcome _ hforgot hforgot, ?_⟩
      intro answer hanswer
      obtain ⟨rfl, hdisk⟩ := persist_filed hnew outcome hanswer
      unfold Filed
      dsimp only
      rw [hdisk, OrdMap.get?_delete_self]
      intro other hother
      cases hother
    · rw [if_neg hdone]
      have hnew : ValidEvidence dateParses (evidence.set run_id (record.mark state)) := by
        refine hvalid.set ⟨hid, mark_valid hrecordValid hproof⟩ ?_
        rw [length_set_of_get? hrecord]
        exact hvalid.bounded
      have hbefore : ∀ report ∈ s.told,
          Satisfied (evidence.set run_id (record.mark state)) report := by
        intro report hreport
        refine (htold report hreport).set fun other hget => ?_
        cases hrecord.symm.trans hget
        exact le_mark record state
      refine ⟨persist_kept h hnew outcome _ hbefore ?_, ?_⟩
      · intro report hreport
        rcases List.mem_cons.mp hreport with rfl | hreport
        · exact ⟨_, OrdMap.get?_set_self _ _ _, marked_mark record state⟩
        · exact hbefore report hreport
      · intro answer hanswer
        obtain ⟨rfl, hdisk⟩ := persist_filed hnew outcome hanswer
        unfold Filed
        dsimp only
        rw [hdisk, OrdMap.get?_set_self]
        rintro other ⟨⟩
        exact marked_mark record state

/-- **One operation.** -/
theorem perform_sound (h : Kept identity dateParses s) (op : Op) (hcovered : Covered dateParses s op) :
    Sound identity dateParses (perform identity dateParses s op) := by
  cases op with
  | open_ outcome =>
    refine ⟨open_kept h outcome, fun answer hanswer => ?_⟩
    rw [open_answer h outcome hanswer]
    trivial
  | acknowledge run_id acknowledgedAt outcome =>
    unfold perform
    cases hmemory : s.memory with
    | none => exact sound_error h _
    | some evidence => exact acknowledge_sound h hmemory acknowledgedAt outcome hcovered
  | recordProcessExited run_id processExitedAt outcome =>
    unfold perform
    cases hmemory : s.memory with
    | none => exact sound_error h _
    | some evidence => exact recordProcessExited_sound h hmemory processExitedAt outcome hcovered
  | markServerAcknowledged run_id state outcome =>
    unfold perform
    cases hmemory : s.memory with
    | none => exact sound_error h _
    | some evidence => exact markServerAcknowledged_sound h hmemory state outcome hcovered

end

/-! ### Runs -/

section

variable (identity : DeviceWssIdentity) (dateParses : String → Bool)

/-- Every answer is in the file when it is given; a process that opens the journal finds everything that
was reported; and a file is read back as it was written. -/
structure Durable (ops : List Op) : Prop where
  filed : ∀ pre op, pre ++ [op] <+: ops → ∀ answer,
    (perform identity dateParses (run (step identity dateParses) {} pre) op).1 = .ok answer →
      Filed dateParses (run (step identity dateParses) {} (pre ++ [op])) answer
  reopened : ∀ pre, pre <+: ops → ∀ report ∈ (run (step identity dateParses) {} pre).told,
    ∃ evidence, (run (step identity dateParses) {} (pre ++ [.open_ .written])).memory = some evidence ∧
      Satisfied evidence report
  readBack : ∀ pre, pre <+: ops → ∀ parsed ∈ (run (step identity dateParses) {} pre).disk,
    ∃ journal, parseJournal dateParses parsed = some journal ∧ journal.toJson = parsed

theorem start_kept : Kept identity dateParses {} := by
  refine ⟨?_, ?_, fun _ => rfl⟩ <;>
  · rintro _ ⟨⟩

/-- The journal is durable in every run whose operations, where they find in memory what they are asked
for, find it in the file as well. -/
theorem run_durable (ops : List Op)
    (h : Along (step identity dateParses) (Covered dateParses) {} ops) :
    Durable identity dateParses ops := by
  have hkept : ∀ pre, pre <+: ops → Kept identity dateParses (run (step identity dateParses) {} pre) := by
    rintro pre ⟨rest, rfl⟩
    have hstep : ∀ s op, Kept identity dateParses s → Covered dateParses s op →
        Kept identity dateParses (step identity dateParses s op) := fun s op hs hcovered =>
      (perform_sound hs op hcovered).1
    exact run_induct hstep (start_kept identity dateParses) ( along_prefix h)
  constructor
  · intro pre op hpre answer hanswer
    have hcovered := along_iff_steps.mp h pre op hpre
    have hprefix : pre <+: ops := (List.prefix_append pre [op]).trans hpre
    rw [run_concat]
    exact (perform_sound (hkept pre hprefix) op hcovered).2 answer hanswer
  · intro pre hpre report hreport
    have hstate := hkept pre hpre
    rw [run_concat]
    cases hdisk : (run (step identity dateParses) {} pre).disk with
    | none =>
      rw [hstate.fresh hdisk] at hreport
      cases hreport
    | some parsed =>
      obtain ⟨evidence, hwritten, htold⟩ := hstate.disk parsed hdisk
      refine ⟨evidence, ?_, htold report hreport⟩
      exact step_open hdisk hwritten
  · intro pre hpre parsed hparsed
    obtain ⟨evidence, hwritten, -⟩ := (hkept pre hpre).disk parsed hparsed
    refine ⟨journal identity evidence, ?_, hwritten.written.symm⟩
    rw [hwritten.written]
    exact parseJournal_toJson identity hwritten.valid

end

/-! A write that fails: retried, and made up for by the write of another run. -/

def device : DeviceWssIdentity where
  device_id := "device-1"
  credential_id := "credential-1"
  generation := 1
  device_valid := by decide
  credential_valid := by decide
  generation_safe := by decide

def failedWrite : List Op :=
  [.open_ .written, .acknowledge "run-1" "10:00" .failed]

def retry : Op := .acknowledge "run-1" "10:01" .written

def otherWrite : Op := .acknowledge "run-2" "10:01" .written

def unwritten : Evidence := { acknowledged_at := "10:00" }

theorem run_durable_after_failed_write :
    Durable device (fun _ => true) (failedWrite ++ [otherWrite, retry]) :=
  run_durable device (fun _ => true) _ (by decide +kernel)

/-- The retry finds in memory the record that the failed write did not file. -/
theorem retry_answer :
    (perform device (fun _ => true) (run (step device fun _ => true) {} failedWrite) retry).1 =
      .ok (.record "run-1" unwritten) := by decide +kernel

theorem retry_unwritten : ¬ Durable device (fun _ => true) (failedWrite ++ [retry]) := by
  intro h
  have hfiled : (onDisk (fun _ => true) (run (step device fun _ => true) {}
      (failedWrite ++ [retry]))).get? "run-1" = some unwritten :=
    h.filed failedWrite retry List.prefix_rfl (.record "run-1" unwritten) retry_answer
  have hdisk : (onDisk (fun _ => true) (run (step device fun _ => true) {}
      (failedWrite ++ [retry]))).get? "run-1" = none := by decide +kernel
  rw [hdisk] at hfiled
  cases hfiled

end Norns.Runner.Journal
