import Norns.Lib.WellFormed

/-! # The messages of a conversation

The rows of `work_messages`, their text and the digest that a summary keeps of them (`visibleText` and
`boundedVisibleDigest` in `conversations/contextAssembler.ts`). A long text is cut by code units.

* `boundedVisibleDigest`: the digest;
* `boundedVisibleDigest_storable_iff`: when the database takes it. -/

namespace Norns.Conversations.Context

open Norns.Lib.JsonPretty (printNat)
open Norns.Lib.JsonText Norns.Lib.Utf8 Norns.Lib.WellFormed

def MAX_VISIBLE_DIGEST_ENTRIES : ℕ := 24

def MAX_VISIBLE_DIGEST_CHARACTERS : ℕ := 280

def VISIBLE_DIGEST_PREFIX : Text := units "Visible conversation message #"

/-! ### Messages -/

inductive V2WorkMessageRole
  | user | assistant | system
  deriving DecidableEq, Repr

def V2WorkMessageRole.text : V2WorkMessageRole → String
  | .user => "user"
  | .assistant => "assistant"
  | .system => "system"

inductive V2WorkMessageVisibilityStatus
  | streaming | complete | interrupted
  deriving DecidableEq, Repr

inductive V2WorkMessagePart
  | text (text : String)
  | code (code : String) (language : Option String)
  | attachment (attachment_id name media_type : String)
  | artifact (artifact_id label media_type : String)
  | action (action_id : String)
  | plan (plan_version_id : String)
  | handoff (handoff_id : String)
  | planning_excerpt (excerpt_receipt_id : String)
  | human_wait (human_wait_id : String)
  | human_wait_update (human_wait_id status : String)
  | mockup (mockup_version_id : String)
  | implementation_visual_evidence (visual_evidence_id : String)
  deriving DecidableEq

/-- The `switch` of `visibleText`; what it has no case for is joined as nothing. -/
def V2WorkMessagePart.visible : V2WorkMessagePart → String
  | .text value => value
  | .code value language => "```" ++ language.getD "" ++ "\n" ++ value ++ "\n```"
  | .attachment attachment_id name media_type =>
    "[Attachment: " ++ name ++ " (" ++ media_type ++ "), id=" ++ attachment_id ++ "]"
  | .artifact artifact_id label media_type =>
    "[Artifact: " ++ label ++ " (" ++ media_type ++ "), id=" ++ artifact_id ++ "]"
  | .action action_id => "[Explicit action card: " ++ action_id ++ "]"
  | .plan plan_version_id => "[Plan version: " ++ plan_version_id ++ "]"
  | .handoff handoff_id => "[Execution handoff: " ++ handoff_id ++ "]"
  | .planning_excerpt excerpt_receipt_id =>
    "[Requested planning excerpt: " ++ excerpt_receipt_id ++ "]"
  | .human_wait human_wait_id => "[Human decision requested: " ++ human_wait_id ++ "]"
  | .human_wait_update human_wait_id status =>
    "[Human decision " ++ human_wait_id ++ ": " ++ status ++ "]"
  | .mockup _ => ""
  | .implementation_visual_evidence _ => ""

def visibleText (parts : List V2WorkMessagePart) : String :=
  String.intercalate "\n\n" (parts.map V2WorkMessagePart.visible)

/-- A row; its parts are `jsonb`, which takes no U+0000. -/
structure WorkMessage where
  id : String
  role : V2WorkMessageRole
  visibility_status : V2WorkMessageVisibilityStatus
  sequence : ℕ
  parts : List V2WorkMessagePart
  sequence_pos : 0 < sequence
  stored : '\x00' ∉ (visibleText parts).toList
  deriving DecidableEq

/-! ### The digest -/

namespace WorkMessage

variable (m : WorkMessage)

/-- `rendered` -/
def rendered : Text := trim (blanks (units (visibleText m.parts)))

def shortened : Text :=
  if MAX_VISIBLE_DIGEST_CHARACTERS < m.rendered.length then
    m.rendered.take (MAX_VISIBLE_DIGEST_CHARACTERS - 1) ++ units "…"
  else m.rendered

/-- The entry of a message. -/
def digest : Text :=
  VISIBLE_DIGEST_PREFIX ++ (printNat m.sequence ++ (units " [" ++ (units m.role.text ++ (units "]: " ++
    if m.shortened = [] then units "[structured visible content]" else m.shortened))))

/-- The text is shortened inside a surrogate pair. -/
def isCut : Bool :=
  MAX_VISIBLE_DIGEST_CHARACTERS < m.rendered.length &&
    (m.rendered[MAX_VISIBLE_DIGEST_CHARACTERS - 2]?.any isHigh &&
      m.rendered[MAX_VISIBLE_DIGEST_CHARACTERS - 1]?.any isLow)

end WorkMessage

/-- The messages at the two ends. -/
def edges {α : Type} (messages : List α) : List α :=
  if messages.length ≤ MAX_VISIBLE_DIGEST_ENTRIES then messages
  else
    let edge := MAX_VISIBLE_DIGEST_ENTRIES / 2
    messages.take edge ++ messages.drop (messages.length - edge)

def boundedVisibleDigest (messages : List WorkMessage) : List Text := edges (messages.map WorkMessage.digest)

section

variable (m : WorkMessage)

theorem rendered_wellFormed : isWellFormed m.rendered = true :=
  isWellFormed_trim (isWellFormed_blanks (isWellFormed_units _))

theorem rendered_pos : ∀ c ∈ m.rendered, 0 < c.val := by
  intro c hc
  rcases mem_blanks (mem_trim hc) with hc | rfl
  · exact units_pos m.stored c hc
  · decide

/-- A shortened text is well-formed unless the cut is inside a pair. -/
theorem shortened_wellFormed : isWellFormed m.shortened = !m.isCut := by
  unfold WorkMessage.shortened WorkMessage.isCut
  split
  case isFalse hshort => rw [rendered_wellFormed, decide_eq_false hshort, Bool.false_and, Bool.not_false]
  case isTrue hlong =>
    have hwell := rendered_wellFormed m
    unfold MAX_VISIBLE_DIGEST_CHARACTERS at hlong ⊢
    generalize m.rendered = text at hlong hwell
    have hhigh : text[278]? = some text[278] := List.getElem?_eq_getElem (by omega)
    have hlow : text[279]? = some text[279] := List.getElem?_eq_getElem (by omega)
    have hstart := isWellFormed_start (x := text.take 279) (y := text.drop 279) (by rwa [List.take_append_drop])
    have hlast : (text.take 279).getLast? = some text[278] := by
      rw [List.getLast?_take, if_neg (by decide), hhigh]
      rfl
    have hnext : (text.drop 279).head? = some text[279] := by rw [List.head?_drop, hlow]
    rw [hlast, hnext] at hstart
    have hconcat : isWellFormed (text.take 279 ++ units "…") = isWellFormed (text.take 279) :=
      isWellFormed_concat (by decide) _
    show isWellFormed (text.take 279 ++ units "…") = !(_ && (text[278]?.any isHigh && text[279]?.any isLow))
    rw [hconcat, hhigh, hlow, decide_eq_true hlong, Bool.true_and, Bool.eq_iff_iff, hstart]
    simp only [Option.mem_def, Option.some.injEq, forall_eq', Option.any_some, Bool.not_eq_true']

theorem digest_storable : isJsonbText m.digest = !m.isCut := by
  have hpos : ∀ c ∈ m.shortened, 0 < c.val := by
    intro c hc
    unfold WorkMessage.shortened at hc
    split at hc
    · rcases List.mem_append.mp hc with hc | hc
      · exact rendered_pos m c (List.mem_of_mem_take hc)
      · exact units_pos (by decide) c hc
    · exact rendered_pos m c hc
  have hrole : isJsonbText (units m.role.text) = true := by cases m.role <;> decide
  unfold WorkMessage.digest VISIBLE_DIGEST_PREFIX
  rw [isJsonbText_append (isJsonbText_units (by decide)), isJsonbText_append (isJsonbText_printNat _),
    isJsonbText_append (isJsonbText_units (by decide)), isJsonbText_append hrole,
    isJsonbText_append (isJsonbText_units (by decide)), ← shortened_wellFormed]
  split
  case isTrue hempty => rw [hempty]; exact isJsonbText_units (by decide)
  case isFalse =>
    unfold isJsonbText
    rw [List.all_eq_true.mpr fun c hc => by simpa using hpos c hc, Bool.and_true]

end

theorem edges_map {α β : Type} (f : α → β) (messages : List α) : edges (messages.map f) = (edges messages).map f := by
  unfold edges
  rw [List.length_map]
  split
  · rfl
  · rw [List.map_append, List.map_take, List.map_drop]

/-- **The digest can be stored** unless one of its texts is shortened inside a pair. -/
theorem boundedVisibleDigest_storable_iff (messages : List WorkMessage) :
    (∀ entry ∈ boundedVisibleDigest messages, isJsonbText entry = true) ↔
      ∀ m ∈ edges messages, m.isCut = false := by
  unfold boundedVisibleDigest
  rw [edges_map, List.forall_mem_map]
  simp only [digest_storable, Bool.not_eq_true']

end Norns.Conversations.Context
