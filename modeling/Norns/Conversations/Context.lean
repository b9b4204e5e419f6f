import Norns.Conversations.Messages
import Norns.Lib.Run
import Mathlib.Data.List.MinMax
import Mathlib.Data.List.Nodup
import Mathlib.Data.List.Pairwise

/-! # The context of a conversation

`conversations/contextAssembler.ts`: `compactAtContextThreshold`, `addSummary`, `recentMessages` and the loop
of `assemble` that renders the recent messages. What the summary and the other sections say is left out but for the
digest of the messages; the rows they quote are taken to pass the contracts.

* `compact_cases`: what a compaction writes;
* `compact_tiles`: the summary that is used and the window after it make up the history;
* `assemble_meets_iff`: when an assembly hands over every message that its summary does not cover;
* `Grown`: versions and the ranges they cover grow together. -/

namespace Norns.Conversations.Context

open Norns.Lib Norns.Lib.Run
open Norns.Lib.JsonText (Text isJsonbText)

def MAX_RECENT_MESSAGES : ℕ := 50

def RETAIN_RECENT_MESSAGES_AFTER_COMPACTION : ℕ := 40

/-! ### Conversations -/

/-- The messages of a conversation, in the order of their sequence numbers, which are unique like the ids. -/
structure History where
  messages : List WorkMessage
  ordered : messages.Pairwise fun a b => a.sequence < b.sequence
  ids : messages.Pairwise fun a b => a.id ≠ b.id

structure SummaryRow where
  version : ℕ
  from_message_sequence : ℕ
  through_message_sequence : ℕ
  /-- of the receipt -/
  source_message_ids : List String
  /-- The digest among the constraints of the summary. -/
  digest : List Text

structure Conversation extends History where
  summaries : List SummaryRow
  versions : summaries.Pairwise fun a b => a.version ≠ b.version

def Conversation.start (history : History) : Conversation where
  toHistory := history
  summaries := []
  versions := .nil

/-! ### Assembly -/

inductive ContextError
  | scopeNotFound | sourceRangeDisappeared | invalidJson | versionTaken
  deriving DecidableEq, Repr

def ContextError.text : ContextError → String
  | .scopeNotFound => "conversation scope not found"
  | .sourceRangeDisappeared => "conversation compaction source range disappeared"
  | .invalidJson => "invalid input syntax for type json"
  | .versionTaken => "conversation_summaries_version_unique"

section

variable (s : Conversation)

def complete : List WorkMessage := s.messages.filter fun m => m.visibility_status = .complete

def completeBetween (afterSequence throughSequence : ℕ) : List WorkMessage :=
  (complete s).filter fun m => afterSequence < m.sequence ∧ m.sequence ≤ throughSequence

/-- `ORDER BY version DESC LIMIT 1` -/
def latestSummary (throughSequence : ℕ) : Option SummaryRow :=
  (s.summaries.filter fun row => row.through_message_sequence ≤ throughSequence).argmax SummaryRow.version

def throughOf (summary : Option SummaryRow) : ℕ :=
  (summary.map SummaryRow.through_message_sequence).getD 0

def versionOf (summary : Option SummaryRow) : ℕ := (summary.map SummaryRow.version).getD 0

def unsummarized (triggeringSequence : ℕ) : List WorkMessage :=
  completeBetween s (throughOf (latestSummary s triggeringSequence)) triggeringSequence

/-- The sources of a summary: it ends before the messages that are retained. -/
def sources (triggeringSequence : ℕ) : List WorkMessage :=
  let rows := unsummarized s triggeringSequence
  let compactedDeltaCount := rows.length - RETAIN_RECENT_MESSAGES_AFTER_COMPACTION
  let throughSequence := ((rows[compactedDeltaCount - 1]?).map WorkMessage.sequence).getD triggeringSequence
  (complete s).filter fun m => m.sequence ≤ throughSequence

/-- The insertion: the summary is cast to `jsonb`, and conversation and version are unique. -/
def insertSummary (row : SummaryRow) : Except ContextError Conversation :=
  if ¬ ∀ entry ∈ row.digest, isJsonbText entry = true then .error .invalidJson
  else if h : ∀ other ∈ s.summaries, other.version ≠ row.version then
    .ok { s with
      summaries := s.summaries ++ [row]
      versions := by
        refine List.pairwise_append.mpr ⟨s.versions, List.pairwise_singleton _ _, ?_⟩
        intro a ha b hb
        rw [List.mem_singleton.mp hb]
        exact h a ha }
  else .error .versionTaken

def compactAtContextThreshold (triggeringSequence : ℕ) : Except ContextError Conversation :=
  let previous := latestSummary s triggeringSequence
  if (unsummarized s triggeringSequence).length ≤ MAX_RECENT_MESSAGES then .ok s
  else
    let sources := sources s triggeringSequence
    match sources.head?, sources.getLast? with
    | some firstSource, some lastSource =>
      insertSummary s {
        version := versionOf previous + 1
        from_message_sequence := firstSource.sequence
        through_message_sequence := lastSource.sequence
        source_message_ids := sources.map WorkMessage.id
        digest := boundedVisibleDigest sources }
    | _, _ => .error .sourceRangeDisappeared

def recentMessages (afterSequence : ℕ) (triggeringMessageId : String) : List WorkMessage :=
  match s.messages.find? fun m => m.id = triggeringMessageId with
  | none => []
  | some trigger =>
    -- `ORDER BY sequence DESC LIMIT 50`, and back in order
    ((completeBetween s afterSequence trigger.sequence).reverse.take MAX_RECENT_MESSAGES).reverse

end

structure ConversationMessage where
  role : V2WorkMessageRole
  content : String
  deriving DecidableEq

structure Rendered where
  /-- The manifest's entries of the messages: reference and content. -/
  materials : List (String × String) := []
  messages : List ConversationMessage := []
  /-- `none` for `-1` -/
  triggering_message_index : Option ℕ := none

/-- One round of the loop over the recent messages. -/
def renderRow (triggeringMessageId : String) (rendered : Rendered) (row : WorkMessage) : Rendered :=
  let content := visibleText row.parts
  if content = "" then rendered
  else if row.role = .system then
    { rendered with materials := rendered.materials ++ [(row.id, content)] }
  else
    { materials := rendered.materials ++ [(row.id, content)]
      messages := rendered.messages ++ [{ role := row.role, content }]
      triggering_message_index :=
        if row.id = triggeringMessageId then some rendered.messages.length
        else rendered.triggering_message_index }

structure ConversationContextAssembly extends Rendered where
  /-- The summary among the sections of the system prompt. -/
  summary : Option SummaryRow

/-- A transaction: what throws leaves the tables as they were. -/
def assemble (s : Conversation) (triggeringMessageId : String) :
    Except ContextError (Conversation × ConversationContextAssembly) :=
  match s.messages.find? fun m => m.id = triggeringMessageId with
  | none => .error .scopeNotFound
  | some trigger =>
    match compactAtContextThreshold s trigger.sequence with
    | .error error => .error error
    | .ok compacted =>
      let summary := latestSummary compacted trigger.sequence
      let recent := recentMessages compacted (throughOf summary) triggeringMessageId
      .ok (compacted, { toRendered := recent.foldl (renderRow triggeringMessageId) {}, summary })

/-! ### Compaction -/

section

variable {s : Conversation}

theorem complete_ordered (s : Conversation) :
    (complete s).Pairwise fun a b => a.sequence < b.sequence := s.ordered.filter _

theorem mem_completeBetween {after through : ℕ} {m : WorkMessage} :
    m ∈ completeBetween s after through ↔
      m ∈ complete s ∧ after < m.sequence ∧ m.sequence ≤ through := by
  simp [completeBetween]

theorem completeBetween_ordered (s : Conversation) (after through : ℕ) :
    (completeBetween s after through).Pairwise fun a b => a.sequence < b.sequence :=
  (complete_ordered s).filter _

/-- In a list that is ordered by `f`, what comes after an element is the rest of the list. -/
theorem filter_after {α : Type} {f : α → ℕ} {l : List α} (hl : l.Pairwise fun a b => f a < f b)
    {i : ℕ} (hi : i < l.length) : (l.filter fun a => f l[i] < f a) = l.drop (i + 1) := by
  have hsplit := hl
  rw [← List.take_append_drop (i + 1) l, List.pairwise_append] at hsplit
  obtain ⟨-, -, hcross⟩ := hsplit
  have hlast : l[i] ∈ l.take (i + 1) :=
    List.mem_iff_getElem.mpr ⟨i, by simp only [List.length_take]; omega, by simp⟩
  calc (l.filter fun a => f l[i] < f a)
      = ((l.take (i + 1)).filter fun a => f l[i] < f a) ++
          ((l.drop (i + 1)).filter fun a => f l[i] < f a) := by
        rw [← List.filter_append, List.take_append_drop]
    _ = [] ++ l.drop (i + 1) := by
        congr 1
        · refine List.filter_eq_nil_iff.mpr fun a ha => ?_
          obtain ⟨j, hj, rfl⟩ := List.getElem_of_mem ha
          rw [List.length_take] at hj
          rw [List.getElem_take]
          have hle : f l[j] ≤ f l[i] := by
            rcases Nat.lt_or_ge j i with hji | hij
            · exact (List.pairwise_iff_getElem.mp hl j i (by omega) hi hji).le
            · have : j = i := by omega
              subst this
              exact le_rfl
          simpa using hle
        · exact List.filter_eq_self.mpr fun a ha => by simpa using hcross _ hlast a ha
    _ = l.drop (i + 1) := rfl

/-- A summary that stands for what `unsummarized` finds beyond the window. -/
structure Compacts (s : Conversation) (triggeringSequence : ℕ) (row : SummaryRow) : Prop where
  long : MAX_RECENT_MESSAGES < (unsummarized s triggeringSequence).length
  version : row.version = versionOf (latestSummary s triggeringSequence) + 1
  through : ∃ h : (unsummarized s triggeringSequence).length - 41 <
      (unsummarized s triggeringSequence).length,
    row.through_message_sequence =
      ((unsummarized s triggeringSequence)[(unsummarized s triggeringSequence).length - 41]).sequence
  from_ : ∃ m ∈ complete s, m.sequence = row.from_message_sequence
  from_le : ∀ m ∈ complete s, row.from_message_sequence ≤ m.sequence
  digest : row.digest = boundedVisibleDigest (sources s triggeringSequence)

theorem compact_cases (s : Conversation) (triggeringSequence : ℕ) :
    ((unsummarized s triggeringSequence).length ≤ MAX_RECENT_MESSAGES ∧
      compactAtContextThreshold s triggeringSequence = .ok s) ∨
    ∃ row, Compacts s triggeringSequence row ∧
      compactAtContextThreshold s triggeringSequence = insertSummary s row := by
  by_cases hshort : (unsummarized s triggeringSequence).length ≤ MAX_RECENT_MESSAGES
  · left
    refine ⟨hshort, ?_⟩
    unfold compactAtContextThreshold
    exact if_pos hshort
  · right
    have hlong : MAX_RECENT_MESSAGES < (unsummarized s triggeringSequence).length := by omega
    have hbound : (unsummarized s triggeringSequence).length - 41 <
        (unsummarized s triggeringSequence).length := by
      unfold MAX_RECENT_MESSAGES at hlong
      omega
    set m := (unsummarized s triggeringSequence)[(unsummarized s triggeringSequence).length - 41]
      with hm
    have hcomplete : m ∈ complete s := (mem_completeBetween.mp (List.getElem_mem hbound)).1
    have hsources : sources s triggeringSequence = (complete s).filter fun a => a.sequence ≤ m.sequence := by
      have hindex : (unsummarized s triggeringSequence).length - RETAIN_RECENT_MESSAGES_AFTER_COMPACTION - 1 =
          (unsummarized s triggeringSequence).length - 41 := by
        unfold RETAIN_RECENT_MESSAGES_AFTER_COMPACTION
        omega
      unfold sources
      dsimp only
      rw [hindex, List.getElem?_eq_getElem hbound]
      rfl
    have hsource : ∀ a, a ∈ sources s triggeringSequence ↔ a ∈ complete s ∧ a.sequence ≤ m.sequence := by
      intro a
      rw [hsources, List.mem_filter, decide_eq_true_iff]
    have hordered : (sources s triggeringSequence).Pairwise fun a b => a.sequence ≤ b.sequence := by
      rw [hsources]
      exact ((complete_ordered s).filter _).imp le_of_lt
    have hmem : m ∈ sources s triggeringSequence := (hsource m).mpr ⟨hcomplete, le_rfl⟩
    have hne : sources s triggeringSequence ≠ [] := List.ne_nil_of_mem hmem
    refine ⟨{
      version := versionOf (latestSummary s triggeringSequence) + 1
      from_message_sequence := ((sources s triggeringSequence).head hne).sequence
      through_message_sequence := ((sources s triggeringSequence).getLast hne).sequence
      source_message_ids := (sources s triggeringSequence).map WorkMessage.id
      digest := boundedVisibleDigest (sources s triggeringSequence) },
      ⟨hlong, rfl, ⟨hbound, ?_⟩, ?_, ?_, rfl⟩, ?_⟩
    · -- the last source is the last message that is compacted
      have hle := ((hsource _).mp (List.getLast_mem hne)).2
      exact le_antisymm hle (hordered.rel_getLast_of_rel_getLast_getLast hmem le_rfl)
    · exact ⟨_, ((hsource _).mp (List.head_mem hne)).1, rfl⟩
    · intro a ha
      rcases Nat.lt_or_ge m.sequence a.sequence with hlt | hge
      · exact ((hsource _).mp (List.head_mem hne)).2.trans hlt.le
      · exact hordered.rel_head_of_rel_head_head ((hsource a).mpr ⟨ha, hge⟩) le_rfl
    · unfold compactAtContextThreshold
      dsimp only
      rw [if_neg hshort, List.head?_eq_some_head hne, List.getLast?_eq_some_getLast hne]

theorem insertSummary_ok {row : SummaryRow} {s' : Conversation} (h : insertSummary s row = .ok s') :
    (∀ other ∈ s.summaries, other.version ≠ row.version) ∧
      s'.toHistory = s.toHistory ∧ s'.summaries = s.summaries ++ [row] := by
  unfold insertSummary at h
  split at h
  case isTrue => cases h
  case isFalse =>
    split at h
    case isTrue hfresh =>
      cases h
      exact ⟨hfresh, rfl, rfl⟩
    case isFalse => cases h

/-- A summary is inserted whose version is free and whose digest can be stored. -/
theorem insertSummary_isOk_iff {row : SummaryRow} : (∃ s', insertSummary s row = .ok s') ↔
    (∀ other ∈ s.summaries, other.version ≠ row.version) ∧ ∀ entry ∈ row.digest, isJsonbText entry = true := by
  constructor
  · rintro ⟨s', h⟩
    refine ⟨(insertSummary_ok h).1, ?_⟩
    unfold insertSummary at h
    split at h
    case isTrue => cases h
    case isFalse hstorable => exact not_not.mp hstorable
  · rintro ⟨hfresh, hstorable⟩
    unfold insertSummary
    rw [if_neg (not_not.mpr hstorable), dif_pos hfresh]
    exact ⟨_, rfl⟩

theorem version_inj {a b : SummaryRow} (ha : a ∈ s.summaries) (hb : b ∈ s.summaries)
    (h : a.version = b.version) : a = b :=
  List.inj_on_of_nodup_map (List.pairwise_map.mpr s.versions) ha hb h

theorem latestSummary_mem {through : ℕ} {row : SummaryRow} (h : latestSummary s through = some row) :
    row ∈ s.summaries ∧ row.through_message_sequence ≤ through := by
  have hmem := List.argmax_mem (Option.mem_def.mpr h)
  simpa using hmem

theorem le_latestSummary {through : ℕ} {other : SummaryRow} (hother : other ∈ s.summaries)
    (hle : other.through_message_sequence ≤ through) :
    other.version ≤ versionOf (latestSummary s through) := by
  have hmem : other ∈ s.summaries.filter fun row => row.through_message_sequence ≤ through :=
    List.mem_filter.mpr ⟨hother, by simpa using hle⟩
  cases hlatest : latestSummary s through with
  | none =>
    rw [List.argmax_eq_none.mp hlatest] at hmem
    cases hmem
  | some row => exact List.le_of_mem_argmax hmem (Option.mem_def.mpr hlatest)

/-! ### Versions and ranges grow together -/

structure Grown (s : Conversation) : Prop where
  positive : ∀ row ∈ s.summaries, 0 < row.version
  contiguous : ∀ row ∈ s.summaries, ∀ version, 0 < version → version < row.version →
    ∃ other ∈ s.summaries, other.version = version
  sourced : ∀ row ∈ s.summaries, ∃ m ∈ complete s, m.sequence = row.from_message_sequence
  range : ∀ row ∈ s.summaries, row.from_message_sequence ≤ row.through_message_sequence
  grow : ∀ a ∈ s.summaries, ∀ b ∈ s.summaries, a.version < b.version →
    a.through_message_sequence < b.through_message_sequence ∧
      b.from_message_sequence ≤ a.from_message_sequence

theorem Compacts.through_mem {triggeringSequence : ℕ} {row : SummaryRow}
    (h : Compacts s triggeringSequence row) :
    ∃ m ∈ unsummarized s triggeringSequence, m.sequence = row.through_message_sequence := by
  obtain ⟨hbound, heq⟩ := h.through
  exact ⟨_, List.getElem_mem hbound, heq.symm⟩

/-- The summary covers more than the one before it, and leaves the trigger to the window. -/
theorem Compacts.between {triggeringSequence : ℕ} {row : SummaryRow}
    (h : Compacts s triggeringSequence row) :
    throughOf (latestSummary s triggeringSequence) < row.through_message_sequence ∧
      row.through_message_sequence < triggeringSequence := by
  obtain ⟨hbound, heq⟩ := h.through
  have hlong := h.long
  unfold MAX_RECENT_MESSAGES at hlong
  have hnext : (unsummarized s triggeringSequence).length - 40 <
      (unsummarized s triggeringSequence).length := by omega
  have hlt := List.pairwise_iff_getElem.mp
    (completeBetween_ordered s (throughOf (latestSummary s triggeringSequence)) triggeringSequence)
    _ _ hbound hnext (by omega)
  have hmem := (mem_completeBetween.mp (List.getElem_mem hbound)).2
  have hlast := (mem_completeBetween.mp (List.getElem_mem hnext)).2.2
  rw [heq]
  exact ⟨hmem.1, hlt.trans_le hlast⟩

/-- A version that is free is the next one. -/
theorem Grown.newest (hs : Grown s) {triggeringSequence : ℕ} {row : SummaryRow}
    (h : Compacts s triggeringSequence row)
    (hfresh : ∀ other ∈ s.summaries, other.version ≠ row.version) :
    ∀ other ∈ s.summaries, other.version < row.version := by
  intro other hother
  by_contra hnot
  have hlt : row.version < other.version :=
    lt_of_le_of_ne (Nat.le_of_not_lt hnot) (hfresh other hother).symm
  obtain ⟨taken, htaken, heq⟩ := hs.contiguous other hother row.version (by rw [h.version]; omega) hlt
  exact hfresh taken htaken heq

theorem Grown.through_le (hs : Grown s) {through : ℕ} {other : SummaryRow}
    (hother : other ∈ s.summaries) (hle : other.version ≤ versionOf (latestSummary s through)) :
    other.through_message_sequence ≤ throughOf (latestSummary s through) := by
  have hpositive := hs.positive other hother
  cases hlatest : latestSummary s through with
  | none =>
    rw [hlatest] at hle
    simp only [versionOf, Option.map_none, Option.getD_none] at hle
    omega
  | some latest =>
    rw [hlatest] at hle
    have hmem := (latestSummary_mem hlatest).1
    have hle' : other.version ≤ latest.version := hle
    rcases Nat.lt_or_ge other.version latest.version with hlt | hge
    · exact (hs.grow other hother latest hmem hlt).1.le
    · rw [version_inj hother hmem (le_antisymm hle' hge)]
      exact le_rfl

/-- The insertion succeeds exactly when no summary reaches beyond the trigger. -/
theorem Grown.fresh_iff (hs : Grown s) {triggeringSequence : ℕ} {row : SummaryRow}
    (h : Compacts s triggeringSequence row) :
    (∀ other ∈ s.summaries, other.version ≠ row.version) ↔
      ∀ other ∈ s.summaries, other.through_message_sequence ≤ triggeringSequence := by
  constructor
  · intro hfresh other hother
    have hversion := hs.newest h hfresh other hother
    rw [h.version] at hversion
    have hle := hs.through_le hother (Nat.le_of_lt_succ hversion)
    have hbetween := h.between
    omega
  · intro hbefore other hother heq
    have hle := le_latestSummary hother (hbefore other hother)
    rw [h.version] at heq
    omega

theorem Grown.insert (hs : Grown s) {triggeringSequence : ℕ} {row : SummaryRow} {s' : Conversation}
    (h : Compacts s triggeringSequence row) (hinsert : insertSummary s row = .ok s') : Grown s' := by
  obtain ⟨hfresh, hhistory, hsummaries⟩ := insertSummary_ok hinsert
  have hcomplete : complete s' = complete s := by
    unfold complete
    rw [hhistory]
  have hnewest := hs.newest h hfresh
  have hthrough : ∀ other ∈ s.summaries, other.through_message_sequence < row.through_message_sequence := by
    intro other hother
    have hversion := hnewest other hother
    rw [h.version] at hversion
    exact (hs.through_le hother (Nat.le_of_lt_succ hversion)).trans_lt h.between.1
  constructor
  · intro other hother
    rw [hsummaries] at hother
    rcases List.mem_append.mp hother with hold | hnew
    · exact hs.positive other hold
    · rw [List.mem_singleton.mp hnew, h.version]
      omega
  · intro other hother version hpositive hlt
    rw [hsummaries] at hother ⊢
    rcases List.mem_append.mp hother with hold | hnew
    · obtain ⟨taken, htaken, heq⟩ := hs.contiguous other hold version hpositive hlt
      exact ⟨taken, List.mem_append_left _ htaken, heq⟩
    · rw [List.mem_singleton.mp hnew, h.version] at hlt
      cases hlatest : latestSummary s triggeringSequence with
      | none =>
        rw [hlatest] at hlt
        simp only [versionOf, Option.map_none, Option.getD_none] at hlt
        omega
      | some latest =>
        rw [hlatest] at hlt
        have hmem := (latestSummary_mem hlatest).1
        have hle : version ≤ latest.version := Nat.le_of_lt_succ hlt
        rcases Nat.lt_or_ge version latest.version with hlt' | hge
        · obtain ⟨taken, htaken, heq⟩ := hs.contiguous latest hmem version hpositive hlt'
          exact ⟨taken, List.mem_append_left _ htaken, heq⟩
        · exact ⟨latest, List.mem_append_left _ hmem, le_antisymm hge hle⟩
  · intro other hother
    rw [hsummaries] at hother
    rw [hcomplete]
    rcases List.mem_append.mp hother with hold | hnew
    · exact hs.sourced other hold
    · rw [List.mem_singleton.mp hnew]
      exact h.from_
  · intro other hother
    rw [hsummaries] at hother
    rcases List.mem_append.mp hother with hold | hnew
    · exact hs.range other hold
    · obtain ⟨m, hm, heq⟩ := h.through_mem
      rw [List.mem_singleton.mp hnew, ← heq]
      exact h.from_le m (mem_completeBetween.mp hm).1
  · intro a ha b hb hlt
    rw [hsummaries] at ha hb
    rcases List.mem_append.mp ha with ha | ha <;> rcases List.mem_append.mp hb with hb | hb
    · exact hs.grow a ha b hb hlt
    · rw [List.mem_singleton.mp hb]
      obtain ⟨m, hm, heq⟩ := hs.sourced a ha
      exact ⟨hthrough a ha, heq ▸ h.from_le m hm⟩
    · rw [List.mem_singleton.mp ha] at hlt
      exact absurd hlt (hnewest b hb).asymm
    · rw [List.mem_singleton.mp ha, List.mem_singleton.mp hb] at hlt
      exact absurd hlt (lt_irrefl _)

/-! ### Summary and window make up the history -/

variable (s) in
/-- What the window holds of the messages that were not summarized before. -/
def window (triggeringSequence : ℕ) : List WorkMessage :=
  let rows := unsummarized s triggeringSequence
  if MAX_RECENT_MESSAGES < rows.length then
    rows.drop (rows.length - RETAIN_RECENT_MESSAGES_AFTER_COMPACTION)
  else rows

theorem window_subset {triggeringSequence : ℕ} {m : WorkMessage}
    (h : m ∈ window s triggeringSequence) : m ∈ unsummarized s triggeringSequence := by
  unfold window at h
  dsimp only at h
  split at h
  · exact List.mem_of_mem_drop h
  · exact h

theorem window_length (s : Conversation) (triggeringSequence : ℕ) :
    (window s triggeringSequence).length ≤ MAX_RECENT_MESSAGES := by
  unfold window
  dsimp only
  split
  · rw [List.length_drop]
    unfold RETAIN_RECENT_MESSAGES_AFTER_COMPACTION MAX_RECENT_MESSAGES
    omega
  · omega

/-- The trigger is the last message there is: it stays in the window. -/
theorem window_triggering {trigger : WorkMessage} (h : trigger ∈ unsummarized s trigger.sequence) :
    trigger ∈ window s trigger.sequence := by
  unfold window
  dsimp only
  split
  case isFalse => exact h
  case isTrue hlong =>
    unfold MAX_RECENT_MESSAGES at hlong
    obtain ⟨i, hi, hget⟩ := List.mem_iff_getElem.mp h
    have hlast : i = (unsummarized s trigger.sequence).length - 1 := by
      by_contra hne
      have hlt := List.pairwise_iff_getElem.mp
        (completeBetween_ordered s (throughOf (latestSummary s trigger.sequence)) trigger.sequence)
        i (i + 1) hi (show i + 1 < (unsummarized s trigger.sequence).length by omega) (by omega)
      have hle := (mem_completeBetween.mp (List.getElem_mem
        (show i + 1 < (unsummarized s trigger.sequence).length by omega))).2.2
      have hsame : ((unsummarized s trigger.sequence)[i]).sequence = trigger.sequence := by rw [hget]
      unfold unsummarized at hsame hle
      omega
    have hindex : (unsummarized s trigger.sequence).length - RETAIN_RECENT_MESSAGES_AFTER_COMPACTION + 39 =
        i := by
      unfold RETAIN_RECENT_MESSAGES_AFTER_COMPACTION
      omega
    refine List.mem_iff_getElem.mpr ⟨39, ?_, ?_⟩
    · rw [List.length_drop]
      omega
    · rw [List.getElem_drop]
      simp only [hindex, hget]

theorem latestSummary_insert {triggeringSequence : ℕ} {row : SummaryRow} {s' : Conversation}
    (hs : Grown s) (h : Compacts s triggeringSequence row) (hinsert : insertSummary s row = .ok s') :
    latestSummary s' triggeringSequence = some row := by
  obtain ⟨hfresh, -, hsummaries⟩ := insertSummary_ok hinsert
  have hmem : row ∈ s'.summaries := by
    rw [hsummaries]
    simp
  have hle : row.version ≤ versionOf (latestSummary s' triggeringSequence) :=
    le_latestSummary hmem h.between.2.le
  cases hlatest : latestSummary s' triggeringSequence with
  | none =>
    rw [hlatest, h.version] at hle
    simp [versionOf] at hle
  | some latest =>
    rw [hlatest] at hle
    have hfound := (latestSummary_mem hlatest).1
    rw [hsummaries] at hfound
    rcases List.mem_append.mp hfound with hold | hnew
    · have hlt := hs.newest h hfresh latest hold
      have hle' : row.version ≤ latest.version := hle
      omega
    · rw [List.mem_singleton.mp hnew]

/-- After a compaction, what is beyond the summary that will be used is the window. -/
theorem compact_tiles (hs : Grown s) {triggeringSequence : ℕ} {s' : Conversation}
    (h : compactAtContextThreshold s triggeringSequence = .ok s') :
    s'.toHistory = s.toHistory ∧
      completeBetween s (throughOf (latestSummary s' triggeringSequence)) triggeringSequence =
        window s triggeringSequence := by
  rcases compact_cases s triggeringSequence with ⟨hshort, hok⟩ | ⟨row, hrow, hok⟩
  · rw [hok] at h
    cases h
    refine ⟨rfl, ?_⟩
    unfold window
    dsimp only
    rw [if_neg (by omega)]
    rfl
  · rw [hok] at h
    refine ⟨(insertSummary_ok h).2.1, ?_⟩
    obtain ⟨hbound, heq⟩ := hrow.through
    have hlong := hrow.long
    unfold window
    dsimp only
    rw [if_pos hlong, latestSummary_insert hs hrow h,
      show throughOf (some row) = row.through_message_sequence from rfl]
    have hindex : (unsummarized s triggeringSequence).length - RETAIN_RECENT_MESSAGES_AFTER_COMPACTION =
        (unsummarized s triggeringSequence).length - 41 + 1 := by
      unfold RETAIN_RECENT_MESSAGES_AFTER_COMPACTION
      unfold MAX_RECENT_MESSAGES at hlong
      omega
    have hdrop : ((unsummarized s triggeringSequence).filter fun m =>
        row.through_message_sequence < m.sequence) =
        (unsummarized s triggeringSequence).drop ((unsummarized s triggeringSequence).length - 41 + 1) := by
      rw [heq]
      exact filter_after (completeBetween_ordered s _ _) hbound
    rw [hindex, ← hdrop]
    unfold unsummarized completeBetween
    rw [List.filter_filter]
    refine List.filter_congr fun m _ => ?_
    have hbetween := hrow.between.1
    rw [← Bool.decide_and, decide_eq_decide]
    constructor
    · rintro ⟨hlt, hle⟩
      exact ⟨hlt, hbetween.trans hlt, hle⟩
    · rintro ⟨hlt, -, hle⟩
      exact ⟨hlt, hle⟩

end

/-! ### Rendering -/

def WorkMessage.shown (m : WorkMessage) : Prop := visibleText m.parts ≠ "" ∧ m.role ≠ .system

instance (m : WorkMessage) : Decidable m.shown := inferInstanceAs (Decidable (_ ∧ _))

def ConversationMessage.of (m : WorkMessage) : ConversationMessage where
  role := m.role
  content := visibleText m.parts

section

variable (id : String)

theorem renderRow_shown {row : WorkMessage} (h : row.shown) (rendered : Rendered) :
    renderRow id rendered row =
      { materials := rendered.materials ++ [(row.id, visibleText row.parts)]
        messages := rendered.messages ++ [.of row]
        triggering_message_index :=
          if row.id = id then some rendered.messages.length
          else rendered.triggering_message_index } := by
  unfold renderRow
  dsimp only
  rw [if_neg h.1, if_neg h.2]
  rfl

theorem renderRow_hidden {row : WorkMessage} (h : ¬ row.shown) (rendered : Rendered) :
    (renderRow id rendered row).messages = rendered.messages ∧
      (renderRow id rendered row).triggering_message_index = rendered.triggering_message_index := by
  unfold renderRow
  dsimp only
  split
  case isTrue => exact ⟨rfl, rfl⟩
  case isFalse hcontent =>
    split
    case isTrue => exact ⟨rfl, rfl⟩
    case isFalse hrole => exact absurd ⟨hcontent, hrole⟩ h

/-- The messages that are handed over are the ones that show, in the order of the rows. -/
theorem render_messages (rows : List WorkMessage) (rendered : Rendered) :
    (rows.foldl (renderRow id) rendered).messages =
      rendered.messages ++ (rows.filter fun row => row.shown).map .of := by
  induction rows generalizing rendered with
  | nil => simp
  | cons row rows ih =>
    rw [List.foldl_cons, ih]
    by_cases hrow : row.shown
    · rw [renderRow_shown id hrow, List.filter_cons_of_pos (by simpa using hrow)]
      simp
    · rw [(renderRow_hidden id hrow rendered).1, List.filter_cons_of_neg (by simpa using hrow)]

/-- The index is the one of the trigger, once the trigger is rendered. -/
structure Indexed (trigger : WorkMessage) (rendered : Rendered) : Prop where
  sound : ∀ index, rendered.triggering_message_index = some index →
    rendered.messages[index]? = some (.of trigger)

theorem render_indexed {trigger : WorkMessage} {rows : List WorkMessage}
    (hid : ∀ row ∈ rows, row.id = trigger.id → row = trigger) {rendered : Rendered}
    (h : Indexed trigger rendered) : Indexed trigger (rows.foldl (renderRow trigger.id) rendered) := by
  induction rows generalizing rendered with
  | nil => exact h
  | cons row rows ih =>
    refine ih (fun other hother => hid other (List.mem_cons_of_mem _ hother)) ⟨fun index hindex => ?_⟩
    by_cases hrow : row.shown
    · rw [renderRow_shown trigger.id hrow] at hindex ⊢
      dsimp only at hindex ⊢
      split at hindex
      case isTrue hsame =>
        cases hindex
        rw [hid row List.mem_cons_self hsame]
        simp
      case isFalse =>
        have hbefore := h.sound index hindex
        have hlt := (List.getElem?_eq_some_iff.mp hbefore).1
        rw [List.getElem?_append_left hlt]
        exact hbefore
    · obtain ⟨hmessages, hsame⟩ := renderRow_hidden trigger.id hrow rendered
      rw [hmessages]
      exact h.sound index (hsame ▸ hindex)

theorem render_index_isSome {trigger : WorkMessage} (hshown : trigger.shown) {rows : List WorkMessage}
    {rendered : Rendered}
    (h : trigger ∈ rows ∨ rendered.triggering_message_index.isSome = true) :
    (rows.foldl (renderRow trigger.id) rendered).triggering_message_index.isSome = true := by
  induction rows generalizing rendered with
  | nil => simpa using h
  | cons row rows ih =>
    refine ih ?_
    by_cases hrow : row.shown
    · rw [renderRow_shown trigger.id hrow]
      dsimp only
      split
      case isTrue => exact .inr rfl
      case isFalse hne =>
        refine h.imp_left fun hmem => ?_
        rcases List.mem_cons.mp hmem with rfl | hmem
        · exact absurd rfl hne
        · exact hmem
    · rw [(renderRow_hidden trigger.id hrow rendered).2]
      refine h.imp_left fun hmem => ?_
      rcases List.mem_cons.mp hmem with rfl | hmem
      · exact absurd hshown hrow
      · exact hmem

end

/-! ### An assembly -/

section

variable {s : Conversation} {trigger : WorkMessage}

theorem History.id_inj (history : History) {a b : WorkMessage} (ha : a ∈ history.messages)
    (hb : b ∈ history.messages) (h : a.id = b.id) : a = b :=
  List.inj_on_of_nodup_map (List.pairwise_map.mpr history.ids) ha hb h

theorem find_trigger (history : History) (htrigger : trigger ∈ history.messages) :
    (history.messages.find? fun m => m.id = trigger.id) = some trigger := by
  cases hfind : history.messages.find? fun m => m.id = trigger.id with
  | none => exact absurd (List.find?_eq_none.mp hfind trigger htrigger) (by simp)
  | some found =>
    have hid : found.id = trigger.id := by simpa using List.find?_some hfind
    rw [history.id_inj (List.mem_of_find?_eq_some hfind) htrigger hid]

theorem recentMessages_eq (htrigger : trigger ∈ s.messages) {after : ℕ}
    (h : (completeBetween s after trigger.sequence).length ≤ MAX_RECENT_MESSAGES) :
    recentMessages s after trigger.id = completeBetween s after trigger.sequence := by
  unfold recentMessages
  rw [find_trigger s.toHistory htrigger]
  dsimp only
  rw [List.take_of_length_le (by rw [List.length_reverse]; exact h), List.reverse_reverse]

/-- What an assembly answers and leaves. -/
theorem assemble_ok (hs : Grown s) (htrigger : trigger ∈ s.messages) {s' : Conversation}
    (h : compactAtContextThreshold s trigger.sequence = .ok s') :
    assemble s trigger.id = .ok (s', {
      toRendered := (window s trigger.sequence).foldl (renderRow trigger.id) {}
      summary := latestSummary s' trigger.sequence }) := by
  obtain ⟨hhistory, htiles⟩ := compact_tiles hs h
  have hsame : completeBetween s' (throughOf (latestSummary s' trigger.sequence)) trigger.sequence =
      window s trigger.sequence := by
    rw [← htiles]
    unfold completeBetween complete
    rw [hhistory]
  have hrecent : recentMessages s' (throughOf (latestSummary s' trigger.sequence)) trigger.id =
      window s trigger.sequence := by
    rw [recentMessages_eq (by rw [hhistory]; exact htrigger), hsame]
    rw [hsame]
    exact window_length s _
  unfold assemble
  rw [find_trigger s.toHistory htrigger]
  dsimp only
  rw [h]
  dsimp only
  rw [hrecent]

variable (s trigger) in
/-- The model gets, in order and once each, the complete messages up to the trigger that the summary does not
cover; the trigger is one of them. -/
structure HandedOver (assembly : ConversationContextAssembly) : Prop where
  messages : assembly.messages =
    (completeBetween s (throughOf assembly.summary) trigger.sequence).map .of
  triggering : trigger ∈ completeBetween s (throughOf assembly.summary) trigger.sequence
  index : ∃ index, assembly.triggering_message_index = some index ∧
    assembly.messages[index]? = some (.of trigger)

variable (s trigger) in
def Meets : Prop :=
  ∃ s' assembly, assemble s trigger.id = .ok (s', assembly) ∧ HandedOver s trigger assembly

variable (s trigger) in
/-- The trigger is complete and beyond the summaries; where a summary is to be added, no summary is beyond the trigger
and the digest shortens no message inside a surrogate pair; and what is in the window shows. -/
structure Continues : Prop where
  triggering : trigger ∈ unsummarized s trigger.sequence
  latest : MAX_RECENT_MESSAGES < (unsummarized s trigger.sequence).length →
    ∀ row ∈ s.summaries, row.through_message_sequence ≤ trigger.sequence
  digested : MAX_RECENT_MESSAGES < (unsummarized s trigger.sequence).length →
    ∀ m ∈ edges (sources s trigger.sequence), m.isCut = false
  shown : ∀ m ∈ window s trigger.sequence, m.shown

theorem compact_ok_iff (hs : Grown s) (triggeringSequence : ℕ) :
    (∃ s', compactAtContextThreshold s triggeringSequence = .ok s') ↔
      (MAX_RECENT_MESSAGES < (unsummarized s triggeringSequence).length →
        (∀ row ∈ s.summaries, row.through_message_sequence ≤ triggeringSequence) ∧
          ∀ m ∈ edges (sources s triggeringSequence), m.isCut = false) := by
  rcases compact_cases s triggeringSequence with ⟨hshort, hok⟩ | ⟨row, hrow, hok⟩
  · constructor
    · intro _ hlong
      omega
    · intro _
      exact ⟨s, hok⟩
  · rw [hok, insertSummary_isOk_iff, hs.fresh_iff hrow, hrow.digest, boundedVisibleDigest_storable_iff]
    exact ⟨fun h _ => h, fun h => h hrow.long⟩

/-- **One assembly.** -/
theorem assemble_meets_iff (hs : Grown s) (htrigger : trigger ∈ s.messages) :
    Meets s trigger ↔ Continues s trigger := by
  constructor
  · rintro ⟨s', assembly, hassemble, hhanded⟩
    have hcompact : ∃ s', compactAtContextThreshold s trigger.sequence = .ok s' := by
      unfold assemble at hassemble
      rw [find_trigger s.toHistory htrigger] at hassemble
      dsimp only at hassemble
      split at hassemble
      case h_1 => cases hassemble
      case h_2 compacted hok => exact ⟨compacted, hok⟩
    have hlatest := (compact_ok_iff hs trigger.sequence).mp hcompact
    obtain ⟨compacted, hok⟩ := hcompact
    have htiles := (compact_tiles hs hok).2
    have hanswer := (assemble_ok hs htrigger hok).symm.trans hassemble
    cases hanswer
    have hmessages := hhanded.messages
    have htriggering := hhanded.triggering
    dsimp only at hmessages htriggering
    rw [htiles] at hmessages htriggering
    rw [render_messages] at hmessages
    refine ⟨window_subset htriggering, fun hlong => (hlatest hlong).1, fun hlong => (hlatest hlong).2, ?_⟩
    have hlength := congrArg List.length hmessages
    simp only [List.nil_append, List.length_map] at hlength
    intro m hm
    have hall := List.length_filter_eq_length_iff.mp hlength m hm
    simpa using hall
  · intro h
    obtain ⟨s', hok⟩ := (compact_ok_iff hs trigger.sequence).mpr fun hlong =>
      ⟨h.latest hlong, h.digested hlong⟩
    have htiles := (compact_tiles hs hok).2
    have htriggering := window_triggering h.triggering
    have hid : ∀ row ∈ window s trigger.sequence, row.id = trigger.id → row = trigger := by
      intro row hrow hsame
      have hcomplete := (mem_completeBetween.mp (window_subset hrow)).1
      exact s.toHistory.id_inj (List.mem_of_mem_filter hcomplete) htrigger hsame
    refine ⟨s', _, assemble_ok hs htrigger hok, ?_, ?_, ?_⟩
    · dsimp only
      rw [htiles, render_messages, List.filter_eq_self.mpr fun m hm => by simpa using h.shown m hm]
      rfl
    · dsimp only
      rw [htiles]
      exact htriggering
    · have hsome := render_index_isSome (h.shown trigger htriggering)
        (show _ ∨ ({} : Rendered).triggering_message_index.isSome = true from .inl htriggering)
      obtain ⟨index, hindex⟩ := Option.isSome_iff_exists.mp hsome
      exact ⟨index, hindex, (render_indexed hid (⟨by simp⟩ : Indexed trigger {})).sound index hindex⟩

end

/-! ### The operations on a conversation -/

inductive Op
  | append (message : WorkMessage)
  /-- The output of a turn ends, or goes on; a message that is not streaming does not change. -/
  | update (id : String) (parts : List V2WorkMessagePart)
    (visibility_status : V2WorkMessageVisibilityStatus)
  | assemble (triggeringMessageId : String)

def append (s : Conversation) (message : WorkMessage) : Conversation :=
  if h : ∀ m ∈ s.messages, m.sequence < message.sequence ∧ m.id ≠ message.id then
    { s with
      messages := s.messages ++ [message]
      ordered := by
        refine List.pairwise_append.mpr ⟨s.ordered, List.pairwise_singleton _ _, ?_⟩
        intro a ha b hb
        rw [List.mem_singleton.mp hb]
        exact (h a ha).1
      ids := by
        refine List.pairwise_append.mpr ⟨s.ids, List.pairwise_singleton _ _, ?_⟩
        intro a ha b hb
        rw [List.mem_singleton.mp hb]
        exact (h a ha).2 }
  else s

/-- Parts that `jsonb` refuses are not written. -/
def WorkMessage.update (parts : List V2WorkMessagePart)
    (visibility_status : V2WorkMessageVisibilityStatus) (id : String) (m : WorkMessage) : WorkMessage :=
  if h : (m.id = id ∧ m.visibility_status = .streaming) ∧ '\x00' ∉ (visibleText parts).toList then
    { m with
      parts
      visibility_status
      stored := h.2 }
  else m

theorem WorkMessage.update_sequence (parts : List V2WorkMessagePart)
    (visibility_status : V2WorkMessageVisibilityStatus) (id : String) (m : WorkMessage) :
    (m.update parts visibility_status id).sequence = m.sequence := by
  unfold WorkMessage.update
  split <;> rfl

theorem WorkMessage.update_id (parts : List V2WorkMessagePart)
    (visibility_status : V2WorkMessageVisibilityStatus) (id : String) (m : WorkMessage) :
    (m.update parts visibility_status id).id = m.id := by
  unfold WorkMessage.update
  split <;> rfl

def update (s : Conversation) (id : String) (parts : List V2WorkMessagePart)
    (visibility_status : V2WorkMessageVisibilityStatus) : Conversation :=
  { s with
    messages := s.messages.map (WorkMessage.update parts visibility_status id)
    ordered := by
      refine List.pairwise_map.mpr (s.ordered.imp fun {a b} hab => ?_)
      rw [WorkMessage.update_sequence, WorkMessage.update_sequence]
      exact hab
    ids := by
      refine List.pairwise_map.mpr (s.ids.imp fun {a b} hab => ?_)
      rw [WorkMessage.update_id, WorkMessage.update_id]
      exact hab }

def step (s : Conversation) : Op → Conversation
  | .append message => append s message
  | .update id parts visibility_status => update s id parts visibility_status
  | .assemble triggeringMessageId =>
    match assemble s triggeringMessageId with
    | .ok (s', _) => s'
    | .error _ => s

/-! ### Runs -/

section

variable {s : Conversation}

theorem start_grown (history : History) : Grown (Conversation.start history) := by
  constructor <;>
  · rintro row ⟨⟩

/-- New messages, and new states of messages that were streaming, leave what was complete. -/
theorem Grown.history {s' : Conversation} (hs : Grown s) (hsummaries : s'.summaries = s.summaries)
    (hcomplete : ∀ m ∈ complete s, m ∈ complete s') : Grown s' := by
  constructor
  · rw [hsummaries]
    exact hs.positive
  · rw [hsummaries]
    exact hs.contiguous
  · rw [hsummaries]
    intro row hrow
    obtain ⟨m, hm, heq⟩ := hs.sourced row hrow
    exact ⟨m, hcomplete m hm, heq⟩
  · rw [hsummaries]
    exact hs.range
  · rw [hsummaries]
    exact hs.grow

theorem Grown.append (hs : Grown s) (message : WorkMessage) : Grown (append s message) := by
  unfold Context.append
  split
  case isTrue =>
    refine hs.history rfl fun m hm => ?_
    obtain ⟨hmem, hcomplete⟩ := List.mem_filter.mp hm
    exact List.mem_filter.mpr ⟨List.mem_append_left _ hmem, hcomplete⟩
  case isFalse => exact hs

theorem Grown.update (hs : Grown s) (id : String) (parts : List V2WorkMessagePart)
    (visibility_status : V2WorkMessageVisibilityStatus) :
    Grown (update s id parts visibility_status) := by
  refine hs.history rfl fun m hm => ?_
  obtain ⟨hmem, hcomplete⟩ := List.mem_filter.mp hm
  have hsame : m.update parts visibility_status id = m := by
    have hstatus : m.visibility_status = .complete := by simpa using hcomplete
    unfold WorkMessage.update
    rw [dif_neg]
    rintro ⟨⟨-, hstreaming⟩, -⟩
    cases hstatus.symm.trans hstreaming
  exact List.mem_filter.mpr ⟨List.mem_map.mpr ⟨m, hmem, hsame⟩, hcomplete⟩

theorem Grown.compact {s' : Conversation} (hs : Grown s) {triggeringSequence : ℕ}
    (h : compactAtContextThreshold s triggeringSequence = .ok s') : Grown s' := by
  rcases compact_cases s triggeringSequence with ⟨-, hok⟩ | ⟨row, hrow, hok⟩
  · cases hok.symm.trans h
    exact hs
  · exact hs.insert hrow (hok.symm.trans h)

theorem Grown.step (hs : Grown s) (op : Op) : Grown (step s op) := by
  cases op with
  | append message => exact hs.append message
  | update id parts visibility_status => exact hs.update id parts visibility_status
  | assemble triggeringMessageId =>
    unfold Context.step
    dsimp only
    unfold assemble
    cases s.messages.find? fun m => m.id = triggeringMessageId with
    | none => exact hs
    | some trigger =>
      dsimp only
      cases hcompact : compactAtContextThreshold s trigger.sequence with
      | error error => exact hs
      | ok compacted => exact hs.compact hcompact

/-- Every assembly of the run hands over what its summary does not cover; in every state versions and ranges
have grown together. -/
structure Accounted (history : History) (ops : List Op) : Prop where
  handed : ∀ pre triggeringMessageId, pre ++ [.assemble triggeringMessageId] <+: ops →
    ∀ trigger ∈ (run step (.start history) pre).messages, trigger.id = triggeringMessageId →
      Meets (run step (.start history) pre) trigger
  grown : ∀ pre, pre <+: ops → Grown (run step (.start history) pre)

def Triggered (s : Conversation) : Op → Prop
  | .assemble triggeringMessageId =>
    ∀ trigger ∈ s.messages, trigger.id = triggeringMessageId → Continues s trigger
  | _ => True

theorem run_accounted_iff (history : History) (ops : List Op) :
    Accounted history ops ↔ Along step Triggered (.start history) ops := by
  have hgrown : ∀ pre, Grown (run step (.start history) pre) := fun pre =>
    run_induct' (I := Grown) (fun _ op hs => hs.step op) (start_grown history) pre
  rw [along_iff_steps]
  constructor
  · intro h pre op hpre
    cases op with
    | append message => trivial
    | update id parts visibility_status => trivial
    | assemble triggeringMessageId =>
      intro trigger htrigger hid
      have hmeets := h.handed pre triggeringMessageId hpre trigger htrigger hid
      exact (assemble_meets_iff (hgrown pre) htrigger).mp hmeets
  · intro h
    refine ⟨fun pre triggeringMessageId hpre trigger htrigger hid => ?_, fun pre _ => hgrown pre⟩
    exact (assemble_meets_iff (hgrown pre) htrigger).mpr (h pre _ hpre trigger htrigger hid)

end

/-! The latest of 92 messages triggers an assembly, then the 51st: its summary would be the first again. -/

def said (i : ℕ) : WorkMessage where
  id := String.ofList (List.replicate i 'm')
  role := .user
  visibility_status := .complete
  sequence := i + 1
  parts := [.text "go on"]
  sequence_pos := Nat.succ_pos i
  stored := by decide

def talk : History where
  messages := (List.range 92).map said
  ordered := List.pairwise_map.mpr (List.pairwise_lt_range.imp fun h => Nat.succ_lt_succ h)
  ids := by
    refine List.pairwise_map.mpr (List.pairwise_lt_range.imp fun {i j} h hid => ?_)
    have hlength := congrArg String.length hid
    simp [said] at hlength
    omega

theorem older_trigger_fails :
    ¬ Accounted talk [.assemble (said 91).id, .assemble (said 50).id] := by
  intro h
  have hmem : said 50 ∈ (run step (.start talk) [.assemble (said 91).id]).messages := by
    decide +kernel
  obtain ⟨s', assembly, hok, -⟩ :=
    h.handed [.assemble (said 91).id] (said 50).id List.prefix_rfl (said 50) hmem rfl
  have herror : (assemble (run step (.start talk) [.assemble (said 91).id]) (said 50).id).isOk =
      false := by decide +kernel
  rw [hok] at herror
  cases herror

end Norns.Conversations.Context
