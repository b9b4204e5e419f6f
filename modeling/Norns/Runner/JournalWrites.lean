import Norns.Runner.Journal

/-! # What the operations of the cancellation journal write

The journal changes its memory first and its file afterwards, and the write of the file may fail
(`deviceCancellationJournal.ts`). `Change` is what an operation does to the evidence in memory; the file then
holds what it held before, or what the memory holds.

* `perform_writes`: every operation, whether it returns or throws;
* `Writes.holds`: what is true of every record stays true;
* `Ahead.perform`: no record is lost before its exit is confirmed. -/

namespace Norns.Runner.Journal

open Norns.Lib

section

variable {identity : DeviceWssIdentity} {dateParses : String → Bool} {s s' : State}
  {evidence evidence' : OrdMap String Evidence} {run_id : String} {record : Evidence}

variable (identity dateParses) in
/-- The evidence in memory is valid, and the file was written by the journal. -/
structure Intact (s : State) : Prop where
  memory : ∀ evidence ∈ s.memory, ValidEvidence dateParses evidence
  disk : ∀ parsed ∈ s.disk, ∃ evidence, Written identity dateParses evidence parsed

/-- What an operation does to the evidence. -/
inductive Change : Op → OrdMap String Evidence → OrdMap String Evidence → Prop
  | acknowledged (run_id now : String) (outcome : Persist) (evidence : OrdMap String Evidence)
    (absent : evidence.get? run_id = none) :
    Change (.acknowledge run_id now outcome) evidence (evidence.set run_id { acknowledged_at := now })
  | exited (run_id now : String) (outcome : Persist) (evidence : OrdMap String Evidence) (record : Evidence)
    (found : evidence.get? run_id = some record) (running : record.process_exited_at = none) :
    Change (.recordProcessExited run_id now outcome) evidence (evidence.set run_id (record.exited now))
  | marked (run_id : String) (state : DeviceCancellationEvidenceState) (outcome : Persist)
    (evidence : OrdMap String Evidence) (record : Evidence) (found : evidence.get? run_id = some record)
    (proved : ¬ (state = .process_exited ∧ (record.process_exited_at = none ∨ record.process_tree_reaped = false))) :
    Change (.markServerAcknowledged run_id state outcome) evidence (evidence.set run_id (record.mark state))
  | pruned (run_id : String) (state : DeviceCancellationEvidenceState) (outcome : Persist)
    (evidence : OrdMap String Evidence) (record : Evidence) (found : evidence.get? run_id = some record)
    (done : (record.mark state).done = true) :
    Change (.markServerAcknowledged run_id state outcome) evidence (evidence.delete run_id)

variable (dateParses) in
/-- The memory and the file after an operation. -/
inductive Writes (op : Op) (s s' : State) : Prop
  | still (same : s' = s)
  | opened (disk : onDisk dateParses s' = onDisk dateParses s)
    (memory : s'.memory = none ∨ s'.memory = some (onDisk dateParses s))
  | changed (evidence evidence' : OrdMap String Evidence) (before : s.memory = some evidence)
    (after : s'.memory = some evidence') (change : evidence' = evidence ∨ Change op evidence evidence')
    (disk : onDisk dateParses s' = onDisk dateParses s ∨ onDisk dateParses s' = evidence')

theorem intact_start : Intact identity dateParses {} := by
  constructor <;>
  · rintro _ ⟨⟩

theorem Intact.shut (h : Intact identity dateParses s) : Intact identity dateParses { s with memory := none } :=
  ⟨fun _ hmem => (by cases hmem), h.disk⟩

/-- A write of valid evidence. -/
theorem persist_writes (h : Intact identity dateParses s) (hvalid : ValidEvidence dateParses evidence')
    (outcome : Persist) (answer : Answer) (told : List Report) :
    Intact identity dateParses (persist identity s evidence' outcome answer told).2 ∧
      (persist identity s evidence' outcome answer told).2.memory = some evidence' ∧
      (onDisk dateParses (persist identity s evidence' outcome answer told).2 = onDisk dateParses s ∨
        onDisk dateParses (persist identity s evidence' outcome answer told).2 = evidence') := by
  have hmemory : ∀ evidence ∈ some evidence', ValidEvidence dateParses evidence := by
    rintro _ ⟨⟩
    exact hvalid
  have hwritten : byteLength (journal identity evidence').toJson ≤ MAX_CANCELLATION_JOURNAL_BYTES →
      Written identity dateParses evidence' (journal identity evidence').toJson :=
    fun hbounded => ⟨rfl, hvalid, hbounded⟩
  have hdisk : byteLength (journal identity evidence').toJson ≤ MAX_CANCELLATION_JOURNAL_BYTES →
      ∀ parsed ∈ some (journal identity evidence').toJson, ∃ evidence, Written identity dateParses evidence parsed := by
    rintro hbounded _ ⟨⟩
    exact ⟨evidence', hwritten hbounded⟩
  rcases persist_cases identity s evidence' outcome answer told with ⟨hbounded, hrun⟩ |
    ⟨error, hrun | ⟨hbounded, hrun⟩⟩
  · rw [hrun]
    exact ⟨⟨hmemory, hdisk hbounded⟩, rfl, .inr (onDisk_of_written rfl (hwritten hbounded))⟩
  · rw [hrun]
    exact ⟨⟨hmemory, h.disk⟩, rfl, .inl rfl⟩
  · rw [hrun]
    exact ⟨⟨hmemory, hdisk hbounded⟩, rfl, .inr (onDisk_of_written rfl (hwritten hbounded))⟩

theorem open_writes (h : Intact identity dateParses s) (outcome : Persist) :
    Intact identity dateParses (open_ identity dateParses s outcome).2 ∧
      onDisk dateParses (open_ identity dateParses s outcome).2 = onDisk dateParses s ∧
      ((open_ identity dateParses s outcome).2.memory = none ∨
        (open_ identity dateParses s outcome).2.memory = some (onDisk dateParses s)) := by
  cases hdisk : s.disk with
  | some parsed =>
    obtain ⟨evidence, hwritten⟩ := h.disk parsed hdisk
    have hfile := onDisk_of_written hdisk hwritten
    rw [open_of_written hdisk hwritten, hfile]
    have hkeeps : ∀ memory, onDisk dateParses { s with memory := memory } = evidence := fun _ => hfile
    split_ifs
    · refine ⟨⟨?_, h.disk⟩, hkeeps _, .inr rfl⟩
      rintro _ ⟨⟩
      exact hwritten.valid
    · exact ⟨h.shut, hkeeps _, .inl rfl⟩
  | none =>
    have hempty : onDisk dateParses s = .empty := by
      unfold onDisk
      rw [hdisk]
      rfl
    obtain ⟨hintact, hmemory, hfile⟩ := persist_writes h empty_valid outcome .opened s.told
    have hsame : onDisk dateParses (persist identity s .empty outcome .opened s.told).2 = .empty := by
      rcases hfile with hfile | hfile
      · exact hfile.trans hempty
      · exact hfile
    unfold open_
    rw [hdisk]
    dsimp only
    generalize hrun : persist identity s .empty outcome .opened s.told = result at hintact hmemory hsame
    obtain ⟨error | answer, last⟩ := result
    · exact ⟨hintact.shut, hsame.trans hempty.symm, .inl rfl⟩
    · exact ⟨hintact, hsame.trans hempty.symm, .inr (hmemory.trans (by rw [hempty]))⟩

/-- Nothing is written. -/
theorem writes_still {op : Op} (h : Intact identity dateParses s) (hmemory : s.memory = some evidence)
    {told : List Report} :
    Intact identity dateParses { s with told := told } ∧
      ∃ evidence', ({ s with told := told } : State).memory = some evidence' ∧
        (evidence' = evidence ∨ Change op evidence evidence') ∧
        (onDisk dateParses { s with told := told } = onDisk dateParses s ∨
          onDisk dateParses { s with told := told } = evidence') :=
  ⟨⟨h.memory, h.disk⟩, evidence, hmemory, .inl rfl, .inl rfl⟩

theorem acknowledge_writes (h : Intact identity dateParses s) (hmemory : s.memory = some evidence)
    (run_id now : String) (outcome : Persist) :
    Intact identity dateParses (acknowledge identity dateParses s evidence run_id now outcome).2 ∧
      ∃ evidence', (acknowledge identity dateParses s evidence run_id now outcome).2.memory = some evidence' ∧
        (evidence' = evidence ∨ Change (.acknowledge run_id now outcome) evidence evidence') ∧
        (onDisk dateParses (acknowledge identity dateParses s evidence run_id now outcome).2 = onDisk dateParses s ∨
          onDisk dateParses (acknowledge identity dateParses s evidence run_id now outcome).2 = evidence') := by
  unfold acknowledge
  by_cases hinvalid : validOpaqueId run_id = false ∨ dateParses now = false
  · rw [if_pos hinvalid]
    exact writes_still h hmemory
  rw [if_neg hinvalid]
  simp only [not_or, Bool.not_eq_false] at hinvalid
  cases hrecord : evidence.get? run_id with
  | some record => exact writes_still h hmemory
  | none =>
    dsimp only
    split_ifs with hfull
    · exact writes_still h hmemory
    · have hbounded : (evidence.set run_id { acknowledged_at := now }).entries.length ≤
          MAX_CANCELLATION_EVIDENCE_RECORDS := by
        rw [OrdMap.entries_set_of_none _ hrecord, List.length_append, List.length_singleton]
        omega
      have hvalid : ValidEvidence dateParses (evidence.set run_id { acknowledged_at := now }) :=
        (h.memory evidence hmemory).set ⟨hinvalid.1, hinvalid.2, rfl, rfl⟩ hbounded
      obtain ⟨hintact, hafter, hdisk⟩ := persist_writes h hvalid outcome
        (.record run_id { acknowledged_at := now }) (.record run_id { acknowledged_at := now } :: s.told)
      exact ⟨hintact, _, hafter, .inr (.acknowledged run_id now outcome evidence hrecord), hdisk⟩

theorem recordProcessExited_writes (h : Intact identity dateParses s) (hmemory : s.memory = some evidence)
    (run_id now : String) (outcome : Persist) :
    Intact identity dateParses (recordProcessExited identity dateParses s evidence run_id now outcome).2 ∧
      ∃ evidence', (recordProcessExited identity dateParses s evidence run_id now outcome).2.memory = some evidence' ∧
        (evidence' = evidence ∨ Change (.recordProcessExited run_id now outcome) evidence evidence') ∧
        (onDisk dateParses (recordProcessExited identity dateParses s evidence run_id now outcome).2 =
            onDisk dateParses s ∨
          onDisk dateParses (recordProcessExited identity dateParses s evidence run_id now outcome).2 =
            evidence') := by
  unfold recordProcessExited
  split_ifs with hinvalid
  · exact writes_still h hmemory
  have hdate : dateParses now = true := by simpa using hinvalid
  cases hrecord : evidence.get? run_id with
  | none => exact writes_still h hmemory
  | some record =>
    dsimp only
    split_ifs with hexited
    · exact writes_still h hmemory
    · rw [not_not] at hexited
      obtain ⟨hid, hrecordValid⟩ := (h.memory evidence hmemory).records run_id record hrecord
      have hbounded : (evidence.set run_id (record.exited now)).entries.length ≤
          MAX_CANCELLATION_EVIDENCE_RECORDS := by
        rw [length_set_of_get? hrecord]
        exact (h.memory evidence hmemory).bounded
      have hvalid : ValidEvidence dateParses (evidence.set run_id (record.exited now)) :=
        (h.memory evidence hmemory).set ⟨hid, hrecordValid.1, hdate, rfl⟩ hbounded
      obtain ⟨hintact, hafter, hdisk⟩ := persist_writes h hvalid outcome (.record run_id (record.exited now))
        (.record run_id (record.exited now) :: s.told)
      exact ⟨hintact, _, hafter, .inr (.exited run_id now outcome evidence record hrecord hexited), hdisk⟩

theorem valid_delete (h : ValidEvidence dateParses evidence) (run_id : String) :
    ValidEvidence dateParses (evidence.delete run_id) := by
  refine ⟨fun id other hget => ?_, (List.length_filter_le _ _).trans h.bounded⟩
  rw [OrdMap.get?_delete] at hget
  split_ifs at hget
  exact h.records id other hget

theorem mark_writes (h : Intact identity dateParses s) (hmemory : s.memory = some evidence) (run_id : String)
    (state : DeviceCancellationEvidenceState) (outcome : Persist) :
    Intact identity dateParses (markServerAcknowledged identity s evidence run_id state outcome).2 ∧
      ∃ evidence', (markServerAcknowledged identity s evidence run_id state outcome).2.memory = some evidence' ∧
        (evidence' = evidence ∨ Change (.markServerAcknowledged run_id state outcome) evidence evidence') ∧
        (onDisk dateParses (markServerAcknowledged identity s evidence run_id state outcome).2 =
            onDisk dateParses s ∨
          onDisk dateParses (markServerAcknowledged identity s evidence run_id state outcome).2 = evidence') := by
  unfold markServerAcknowledged
  cases hrecord : evidence.get? run_id with
  | none => exact writes_still h hmemory
  | some record =>
    dsimp only
    obtain ⟨hid, hrecordValid⟩ := (h.memory evidence hmemory).records run_id record hrecord
    split_ifs with hunproved hmarked hdone
    · exact writes_still h hmemory
    · exact writes_still h hmemory
    · -- the told reports are another history of the same memory and file
      have hintact : Intact identity dateParses { s with
          told := s.told.filter fun report => report.run_id ≠ run_id } := ⟨h.memory, h.disk⟩
      obtain ⟨hlast, hafter, hdisk⟩ := persist_writes hintact
        (valid_delete (h.memory evidence hmemory) run_id) outcome (.marked run_id state)
        (s.told.filter fun report => report.run_id ≠ run_id)
      exact ⟨hlast, _, hafter, .inr (.pruned run_id state outcome evidence record hrecord hdone), hdisk⟩
    · have hbounded : (evidence.set run_id (record.mark state)).entries.length ≤
          MAX_CANCELLATION_EVIDENCE_RECORDS := by
        rw [length_set_of_get? hrecord]
        exact (h.memory evidence hmemory).bounded
      have hvalid : ValidEvidence dateParses (evidence.set run_id (record.mark state)) :=
        (h.memory evidence hmemory).set ⟨hid, mark_valid hrecordValid hunproved⟩ hbounded
      obtain ⟨hlast, hafter, hdisk⟩ := persist_writes h hvalid outcome (.marked run_id state)
        (.mark run_id state :: s.told)
      exact ⟨hlast, _, hafter, .inr (.marked run_id state outcome evidence record hrecord hunproved), hdisk⟩

/-- **One operation**, whether it returns or throws. -/
theorem perform_writes (h : Intact identity dateParses s) (op : Op) :
    Intact identity dateParses (perform identity dateParses s op).2 ∧
      Writes dateParses op s (perform identity dateParses s op).2 := by
  unfold perform
  cases op with
  | open_ outcome =>
    obtain ⟨hintact, hdisk, hmemory⟩ := open_writes h outcome
    exact ⟨hintact, .opened hdisk hmemory⟩
  | acknowledge run_id now outcome =>
    cases hmemory : s.memory with
    | none => exact ⟨h, .still rfl⟩
    | some evidence =>
      obtain ⟨hintact, evidence', hafter, hchange, hdisk⟩ := acknowledge_writes h hmemory run_id now outcome
      exact ⟨hintact, .changed evidence evidence' hmemory hafter hchange hdisk⟩
  | recordProcessExited run_id now outcome =>
    cases hmemory : s.memory with
    | none => exact ⟨h, .still rfl⟩
    | some evidence =>
      obtain ⟨hintact, evidence', hafter, hchange, hdisk⟩ := recordProcessExited_writes h hmemory run_id now outcome
      exact ⟨hintact, .changed evidence evidence' hmemory hafter hchange hdisk⟩
  | markServerAcknowledged run_id state outcome =>
    cases hmemory : s.memory with
    | none => exact ⟨h, .still rfl⟩
    | some evidence =>
      obtain ⟨hintact, evidence', hafter, hchange, hdisk⟩ := mark_writes h hmemory run_id state outcome
      exact ⟨hintact, .changed evidence evidence' hmemory hafter hchange hdisk⟩

/-! ### What is true of every record -/

variable {P : String → Evidence → Prop}

/-- A property of every record. -/
def AllRecords (P : String → Evidence → Prop) (evidence : OrdMap String Evidence) : Prop :=
  ∀ run_id record, evidence.get? run_id = some record → P run_id record

variable (dateParses) in
/-- A property of every record in memory and in the file. -/
structure Holds (P : String → Evidence → Prop) (s : State) : Prop where
  memory : ∀ evidence ∈ s.memory, AllRecords P evidence
  disk : AllRecords P (onDisk dateParses s)

/-- What an operation may write keeps the property. -/
def Keeps (P : String → Evidence → Prop) : Op → Prop
  | .open_ _ => True
  | .acknowledge run_id now _ => P run_id { acknowledged_at := now }
  | .recordProcessExited run_id now _ => ∀ record, P run_id record → P run_id (record.exited now)
  | .markServerAcknowledged run_id state _ => ∀ record, P run_id record → P run_id (record.mark state)

theorem AllRecords.set (h : AllRecords P evidence) (hrecord : P run_id record) :
    AllRecords P (evidence.set run_id record) := by
  intro id other hget
  rw [OrdMap.get?_set] at hget
  split_ifs at hget with hid
  · cases hget
    exact hid ▸ hrecord
  · exact h id other hget

theorem AllRecords.delete (h : AllRecords P evidence) (run_id : String) : AllRecords P (evidence.delete run_id) := by
  intro id other hget
  rw [OrdMap.get?_delete] at hget
  split_ifs at hget
  exact h id other hget

theorem Change.holds {op : Op} (h : Change op evidence evidence') (hkeeps : Keeps P op)
    (hholds : AllRecords P evidence) : AllRecords P evidence' := by
  cases h with
  | acknowledged run_id now outcome _ absent => exact hholds.set hkeeps
  | exited run_id now outcome _ record found running => exact hholds.set (hkeeps record (hholds _ _ found))
  | marked run_id state outcome _ record found proved => exact hholds.set (hkeeps record (hholds _ _ found))
  | pruned run_id state outcome _ record found done => exact hholds.delete run_id

theorem Writes.holds {op : Op} (h : Writes dateParses op s s') (hkeeps : Keeps P op)
    (hholds : Holds dateParses P s) : Holds dateParses P s' := by
  cases h with
  | still same => exact same ▸ hholds
  | opened disk memory =>
    refine ⟨fun evidence hevidence => ?_, by rw [disk]; exact hholds.disk⟩
    rcases memory with hmemory | hmemory
    · cases hmemory.symm.trans hevidence
    · cases hmemory.symm.trans hevidence
      exact hholds.disk
  | changed evidence evidence' before after change disk =>
    have hrecords : AllRecords P evidence' := by
      rcases change with rfl | hchange
      · exact hholds.memory evidence' before
      · exact hchange.holds hkeeps (hholds.memory evidence before)
    refine ⟨fun other hother => ?_, ?_⟩
    · cases after.symm.trans hother
      exact hrecords
    · rcases disk with hdisk | hdisk
      · rw [hdisk]
        exact hholds.disk
      · rw [hdisk]
        exact hrecords

/-! ### What is not lost -/

variable {confirmed confirmed' : String → Prop} {later : OrdMap String Evidence}

/-- Every record is still there, or one that says more, but for the runs whose exit is confirmed. -/
def Outlasts (confirmed : String → Prop) (evidence later : OrdMap String Evidence) : Prop :=
  ∀ run_id record, evidence.get? run_id = some record →
    confirmed run_id ∨ ∃ record', later.get? run_id = some record' ∧ record.Le record'

variable (dateParses) in
/-- The memory has what the file has, and an exit is marked only where it is confirmed. -/
structure Ahead (confirmed : String → Prop) (s : State) : Prop where
  marks : Holds dateParses (fun run_id record => record.process_exited_server_acked = true → confirmed run_id) s
  memory : ∀ evidence ∈ s.memory, Outlasts confirmed (onDisk dateParses s) evidence

/-- The server confirms an exit that it has recorded. -/
def Confirms (confirmed : String → Prop) : Op → Prop
  | .markServerAcknowledged run_id .process_exited _ => confirmed run_id
  | _ => True

theorem Outlasts.refl (evidence : OrdMap String Evidence) : Outlasts confirmed evidence evidence :=
  fun _ record h => .inr ⟨record, h, .refl record⟩

theorem Outlasts.trans (h : Outlasts confirmed evidence evidence') (h' : Outlasts confirmed evidence' later) :
    Outlasts confirmed evidence later := by
  intro run_id record hrecord
  rcases h run_id record hrecord with hconfirmed | ⟨record', hrecord', hle⟩
  · exact .inl hconfirmed
  · rcases h' run_id record' hrecord' with hconfirmed | ⟨record'', hrecord'', hle'⟩
    · exact .inl hconfirmed
    · exact .inr ⟨record'', hrecord'', hle.trans hle'⟩

theorem Outlasts.mono (h : Outlasts confirmed evidence evidence')
    (hsub : ∀ run_id, confirmed run_id → confirmed' run_id) : Outlasts confirmed' evidence evidence' :=
  fun run_id record hrecord => (h run_id record hrecord).imp_left (hsub run_id)

theorem Ahead.mono (h : Ahead dateParses confirmed s) (hsub : ∀ run_id, confirmed run_id → confirmed' run_id) :
    Ahead dateParses confirmed' s :=
  ⟨⟨fun evidence hmem run_id record hget hmarked => hsub run_id (h.marks.memory evidence hmem run_id record hget hmarked),
    fun run_id record hget hmarked => hsub run_id (h.marks.disk run_id record hget hmarked)⟩,
    fun evidence hmem => (h.memory evidence hmem).mono hsub⟩

theorem Ahead.shut (h : Ahead dateParses confirmed s) : Ahead dateParses confirmed { s with memory := none } :=
  ⟨⟨fun _ hmem => (by cases hmem), h.marks.disk⟩, fun _ hmem => (by cases hmem)⟩

/-- A record that is set says more than the one before. -/
theorem outlasts_set {record' : Evidence} (h : ∀ record, evidence.get? run_id = some record → record.Le record') :
    Outlasts confirmed evidence (evidence.set run_id record') := by
  intro id record hrecord
  rw [OrdMap.get?_set]
  split_ifs with hid
  · subst hid
    exact .inr ⟨record', rfl, h record hrecord⟩
  · exact .inr ⟨record, hrecord, .refl record⟩

theorem Confirms.keeps {op : Op} (h : Confirms confirmed op) :
    Keeps (fun run_id record => record.process_exited_server_acked = true → confirmed run_id) op := by
  cases op with
  | open_ outcome => trivial
  | acknowledge run_id now outcome => exact fun hmarked => by cases hmarked
  | recordProcessExited run_id now outcome => exact fun _ _ hmarked => by cases hmarked
  | markServerAcknowledged run_id state outcome =>
    intro record hrecord
    cases state with
    | runner_acknowledged => exact hrecord
    | process_exited => exact fun _ => h

theorem Change.outlasts {op : Op} (h : Change op evidence evidence') (hvalid : ValidEvidence dateParses evidence)
    (hmarks : AllRecords (fun run_id record => record.process_exited_server_acked = true → confirmed run_id) evidence)
    (hconfirms : Confirms confirmed op) : Outlasts confirmed evidence evidence' := by
  cases h with
  | acknowledged run_id now outcome _ absent =>
    refine outlasts_set fun record hrecord => ?_
    cases absent.symm.trans hrecord
  | exited run_id now outcome _ record found running =>
    refine outlasts_set fun other hother => ?_
    cases found.symm.trans hother
    exact le_exited (hvalid.records run_id record found).2 running now
  | marked run_id state outcome _ record found proved =>
    refine outlasts_set fun other hother => ?_
    cases found.symm.trans hother
    exact le_mark record state
  | pruned run_id state outcome _ record found done =>
    intro id other hother
    rw [OrdMap.get?_delete]
    split_ifs with hid
    · -- a record that is pruned has its exit confirmed, by this answer or before
      subst hid
      cases found.symm.trans hother
      unfold Evidence.done at done
      rw [Bool.and_eq_true] at done
      cases state with
      | runner_acknowledged => exact .inl (hmarks _ record found done.2)
      | process_exited => exact .inl hconfirms
    · exact .inr ⟨other, hother, .refl other⟩

/-- **Nothing is lost by an operation**, whether it returns or throws. -/
theorem Ahead.perform (h : Ahead dateParses confirmed s) (hintact : Intact identity dateParses s) {op : Op}
    (hconfirms : Confirms confirmed op) :
    Ahead dateParses confirmed (Journal.perform identity dateParses s op).2 ∧
      Outlasts confirmed (onDisk dateParses s) (onDisk dateParses (Journal.perform identity dateParses s op).2) := by
  obtain ⟨-, hwrites⟩ := perform_writes hintact op
  have hmarks := hwrites.holds hconfirms.keeps h.marks
  generalize (Journal.perform identity dateParses s op).2 = s' at hwrites hmarks ⊢
  cases hwrites with
  | still same =>
    subst same
    exact ⟨h, .refl _⟩
  | opened disk memory =>
    refine ⟨⟨hmarks, fun evidence hevidence => ?_⟩, by rw [disk]; exact .refl _⟩
    rcases memory with hmemory | hmemory
    · cases hmemory.symm.trans hevidence
    · cases hmemory.symm.trans hevidence
      rw [disk]
      exact .refl _
  | changed evidence evidence' before after change disk =>
    have hstep : Outlasts confirmed evidence evidence' := by
      rcases change with rfl | hchange
      · exact .refl _
      · exact hchange.outlasts (hintact.memory evidence before) (h.marks.memory evidence before) hconfirms
    have hlater := (h.memory evidence before).trans hstep
    refine ⟨⟨hmarks, fun other hother => ?_⟩, ?_⟩
    · cases after.symm.trans hother
      rcases disk with hdisk | hdisk
      · rw [hdisk]
        exact hlater
      · rw [hdisk]
        exact .refl _
    · rcases disk with hdisk | hdisk
      · rw [hdisk]
        exact .refl _
      · rw [hdisk]
        exact hlater

end

end Norns.Runner.Journal
