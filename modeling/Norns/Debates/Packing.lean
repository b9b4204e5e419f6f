import Norns.Debates.Prompt

/-! # What the search for an excerpt finds

One round of the loop of `buildStructuredPrompt`.

* `excerpt_cases`: an excerpt is the whole source, or the longest start that fits the cap with its marker;
* `promptBytes_eq`: the size of a prompt is a sum over what is selected, so a shorter start leaves a shorter prompt;
* `Inv`: what the binary search keeps while it puts candidates into the selection and takes them out;
* `search_spec`, `pack_spec`: it ends with the longest start that it can try. -/

namespace Norns.Debates.Packing

open Norns.Lib Norns.Lib.JsonText Norns.Lib.Utf8 Norns.Lib.JsonPretty Norns.Debates.Prompt

/-! ### Excerpts -/

/-- The number of characters of a source. -/
def count (content : Text) : ℕ := (characters content).length

/-- The bytes of a start with the marker. -/
def cutSize (content sourceId : Text) (k : ℕ) : ℕ := byteLength (JsonPretty.start k content) + byteLength (marker sourceId)

theorem characters_ne_nil {t c : Text} (h : c ∈ characters t) : c ≠ [] := by
  induction t using characters.induct with
  | case1 => cases h
  | case2 d =>
    rw [characters, List.mem_singleton] at h
    rw [h]
    exact List.cons_ne_nil _ _
  | case3 d e t hpair ih =>
    rw [characters, if_pos hpair] at h
    rcases List.mem_cons.mp h with rfl | h
    · exact List.cons_ne_nil _ _
    · exact ih h
  | case4 d e t hpair ih =>
    rw [characters, if_neg hpair] at h
    rcases List.mem_cons.mp h with rfl | h
    · exact List.cons_ne_nil _ _
    · exact ih h

theorem byteLength_pos {t : Text} (h : t ≠ []) : 0 < byteLength t := by
  obtain ⟨x, c, rfl⟩ := List.eq_nil_or_concat t |>.resolve_left h
  have hlt := byteLength_concat x c
  rw [List.concat_eq_append]
  omega

/-- A longer start is larger. -/
theorem byteLength_start_lt (t : Text) {k l : ℕ} (hkl : k < l) (hl : l ≤ count t) :
    byteLength (JsonPretty.start k t) < byteLength (JsonPretty.start l t) := by
  obtain ⟨m, rfl⟩ := Nat.exists_eq_add_of_lt hkl
  have hsplit : (characters t).take (k + m + 1) =
      (characters t).take k ++ ((characters t).drop k).take (m + 1) := by
    rw [add_assoc, List.take_add]
  have hne : (characters t).drop k ≠ [] := List.drop_eq_nil_iff.not.mpr (by
    unfold count at hl
    omega)
  obtain ⟨c, rest, hdrop⟩ := List.exists_cons_of_ne_nil hne
  have hmem : c ∈ characters t := List.mem_of_mem_drop (hdrop ▸ List.mem_cons_self)
  have hpos := byteLength_pos (characters_ne_nil hmem)
  rw [byteLength_start, byteLength_start, hsplit, hdrop, List.take_succ_cons]
  simp only [List.map_append, List.map_cons, List.sum_append, List.sum_cons]
  omega

theorem start_pos {t : Text} {k : ℕ} (hk : 0 < k) (hcount : k ≤ count t) : 0 < byteLength (JsonPretty.start k t) := by
  have hlt := byteLength_start_lt t hk hcount
  omega

/-- What the loop over the characters takes. -/
theorem takeWithin_spec (markerBytes byteCap : ℕ) (cs : List Text) : ∀ used, ∃ k ≤ cs.length,
    takeWithin markerBytes byteCap used cs = (cs.take k).flatten ∧
      (0 < k → used + ((cs.take k).map byteLength).sum + markerBytes ≤ byteCap) ∧
      ∀ l ≤ cs.length, 0 < l → used + ((cs.take l).map byteLength).sum + markerBytes ≤ byteCap → l ≤ k := by
  induction cs with
  | nil => exact fun used => ⟨0, le_rfl, rfl, fun h => absurd h (lt_irrefl 0), fun l hl _ _ => hl⟩
  | cons c cs ih =>
    intro used
    unfold takeWithin
    by_cases hover : used + byteLength c + markerBytes > byteCap
    · refine ⟨0, Nat.zero_le _, if_pos hover, fun h => absurd h (lt_irrefl 0), ?_⟩
      intro l _ hl hfits
      obtain ⟨l, rfl⟩ : ∃ n, l = n + 1 := ⟨l - 1, by omega⟩
      rw [List.take_succ_cons, List.map_cons, List.sum_cons] at hfits
      omega
    · obtain ⟨k, hk, htake, hfits, hlongest⟩ := ih (used + byteLength c)
      refine ⟨k + 1, Nat.succ_le_succ hk, ?_, ?_, ?_⟩
      · rw [if_neg hover, htake]
        rfl
      · intro _
        rw [List.take_succ_cons, List.map_cons, List.sum_cons]
        by_cases hzero : k = 0
        · rw [hzero, List.take_zero, List.map_nil, List.sum_nil]
          omega
        · have hrest := hfits (by omega)
          omega
      · intro l hl hpos hsum
        obtain ⟨l, rfl⟩ : ∃ n, l = n + 1 := ⟨l - 1, by omega⟩
        rw [List.take_succ_cons, List.map_cons, List.sum_cons] at hsum
        rw [List.length_cons] at hl
        by_cases hzero : l = 0
        · omega
        · have hle := hlongest l (by omega) (by omega) (by omega)
          omega

/-- **An excerpt**: the whole source, the longest start that fits the cap, or nothing when none does. -/
theorem excerpt_cases (content sourceId : Text) {cap : ℕ} (hcap : 0 < cap) :
    (byteLength content ≤ cap ∧ truncatedExcerpt content cap sourceId = some (content, false)) ∨
      cap < byteLength content ∧
        ((truncatedExcerpt content cap sourceId = none ∧
            ∀ l, 0 < l → l ≤ count content → cap < cutSize content sourceId l) ∨
          ∃ k, 0 < k ∧ k ≤ count content ∧ cutSize content sourceId k ≤ cap ∧
            truncatedExcerpt content cap sourceId = some (JsonPretty.start k content ++ marker sourceId, true) ∧
            ∀ l, l ≤ count content → 0 < l → cutSize content sourceId l ≤ cap → l ≤ k) := by
  unfold truncatedExcerpt
  rw [if_neg hcap.ne']
  by_cases hwhole : byteLength content ≤ cap
  · exact Or.inl ⟨hwhole, if_pos hwhole⟩
  · refine Or.inr ⟨not_le.mp hwhole, ?_⟩
    rw [if_neg hwhole]
    by_cases hmarker : byteLength (marker sourceId) ≥ cap
    · refine Or.inl ⟨if_pos hmarker, fun l hl hcount => ?_⟩
      have hpos := start_pos hl hcount
      unfold cutSize
      omega
    · rw [if_neg hmarker]
      obtain ⟨k, hk, htake, hfits, hlongest⟩ :=
        takeWithin_spec (byteLength (marker sourceId)) cap (characters content) 0
      have hstart : takeWithin (byteLength (marker sourceId)) cap 0 (characters content) = JsonPretty.start k content := htake
      have hlong : ∀ l, l ≤ count content → 0 < l → cutSize content sourceId l ≤ cap → l ≤ k := by
        intro l hl hpos hsize
        refine hlongest l hl hpos ?_
        unfold cutSize at hsize
        rw [byteLength_start] at hsize
        omega
      dsimp only
      rw [hstart]
      by_cases hzero : k = 0
      · subst hzero
        refine Or.inl ⟨if_pos rfl, fun l hl hcount => ?_⟩
        by_contra hle
        have hl' := hlong l hcount hl (not_lt.mp hle)
        omega
      · have hpos := start_pos (t := content) (Nat.pos_of_ne_zero hzero) hk
        have hne : JsonPretty.start k content ≠ [] := by
          intro hnil
          rw [hnil] at hpos
          exact absurd hpos (by decide)
        refine Or.inr ⟨k, Nat.pos_of_ne_zero hzero, hk, ?_, if_neg hne, hlong⟩
        have hsum := hfits (Nat.pos_of_ne_zero hzero)
        unfold cutSize
        rw [byteLength_start]
        omega

/-! ### The size of a prompt -/

/-- The brackets of an array with a number of items. -/
def brackets (n : ℕ) : ℕ := if n = 0 then 2 else byteLength (newline 1) + 1

theorem byteLength_array (xs : List (JsonText.Json ℤ)) :
    byteLength (pretty 1 (.arr xs)) = brackets xs.length + (xs.map (itemSize 1)).sum := by
  unfold brackets
  by_cases hnil : xs = []
  · subst hnil
    decide
  · rw [byteLength_arr 1 hnil, if_neg (List.length_eq_zero_iff.not.mpr hnil)]
    omega

/-- The bytes of a field with an array, without its items. -/
def arrayFrame (key : Text) (n : ℕ) : ℕ := 1 + byteLength (newline 1) + byteLength (quote key) + 2 + brackets n

theorem fieldSize_array (key : Text) (xs : List (JsonText.Json ℤ)) :
    fieldSize 0 (key, .arr xs) = arrayFrame key xs.length + (xs.map (itemSize 1)).sum := by
  unfold fieldSize arrayFrame
  dsimp only
  rw [zero_add, byteLength_array]
  omega

/-- The bytes around the sources of a prompt. -/
def frame (input : DebatePromptInput) (task : PromptTask) (contextCount messageCount : ℕ) : ℕ :=
  byteLength (systemPrompt input) + byteLength (promptHead task) + 2 +
    ((recordFields input task).map (fieldSize 0)).sum +
    fieldSize 0 (units "compression", compression input contextCount messageCount) +
    arrayFrame (units "contexts") contextCount + arrayFrame (units "transcript") messageCount +
    byteLength (newline 0) + 1

def contextSize (value : RenderedContext) : ℕ := itemSize 1 value.json

def messageSize (value : RenderedMessage) : ℕ := itemSize 1 value.json

variable (input : DebatePromptInput) (task : PromptTask)

/-- **The size of a prompt** is a sum over what is selected. -/
theorem promptBytes_eq (s : Selected) : promptBytes input task s =
    frame input task s.contexts.values.length s.messages.values.length + (s.contexts.values.map contextSize).sum +
      (s.messages.values.map messageSize).sum := by
  have hcontexts := List.perm_insertionSort (fun left right : RenderedContext => left.ordinal ≤ right.ordinal)
    s.contexts.values
  have hmessages := List.perm_insertionSort (fun left right : RenderedMessage => left.sequence ≤ right.sequence)
    s.messages.values
  have hbreak : Apart (units "\n\n" ++ pretty 0 (record input task s)) := apart_cons (by decide) _
  have hpretty : byteLength (units "\n\n" ++ pretty 0 (record input task s)) =
      2 + byteLength (pretty 0 (record input task s)) := by
    rw [size_append _ (by simpa using apart_pretty 0 (record input task s) [])]
    rfl
  unfold promptBytes render
  rw [size_append _ hbreak, hpretty]
  unfold record
  dsimp only
  rw [byteLength_obj 0 (by simp [recordFields]), List.map_append, List.sum_append]
  simp only [List.map_cons, List.map_nil, List.sum_cons, List.sum_nil]
  rw [fieldSize_array, fieldSize_array, List.map_map, List.map_map, List.length_map, List.length_map, hcontexts.length_eq,
    hmessages.length_eq, (hcontexts.map _).sum_eq, (hmessages.map _).sum_eq]
  unfold frame
  have hc : (s.contexts.values.map (itemSize 1 ∘ RenderedContext.json)) = s.contexts.values.map contextSize := rfl
  have hm : (s.messages.values.map (itemSize 1 ∘ RenderedMessage.json)) = s.messages.values.map messageSize := rfl
  rw [hc, hm]
  omega

/-! ### One candidate -/

/-- What is selected for a candidate. -/
def look (s : Selected) : PromptValue → Option PromptValue
  | .context value => (s.contexts.get? value.id).map .context
  | .message value => (s.messages.get? value.id).map .message

theorem setCandidate_setCandidate (s : Selected) (v : PromptValue) (c d : Text) (b e : Bool) :
    setCandidate (setCandidate s (withCandidateContent v c b)) (withCandidateContent v d e) =
      setCandidate s (withCandidateContent v d e) := by
  cases v <;> simp only [withCandidateContent, setCandidate, OrdMap.set_set]

theorem deleteCandidate_setCandidate {s : Selected} {v : PromptValue} (h : look s v = none) (c : Text) (b : Bool) :
    deleteCandidate (setCandidate s (withCandidateContent v c b)) v = s := by
  cases v with
  | context value =>
    have habsent : s.contexts.get? value.id = none := Option.map_eq_none_iff.mp h
    simp only [withCandidateContent, setCandidate, deleteCandidate]
    rw [OrdMap.delete_set_of_none _ habsent]
  | message value =>
    have habsent : s.messages.get? value.id = none := Option.map_eq_none_iff.mp h
    simp only [withCandidateContent, setCandidate, deleteCandidate]
    rw [OrdMap.delete_set_of_none _ habsent]

theorem deleteCandidate_absent {s : Selected} {v : PromptValue} (h : look s v = none) : deleteCandidate s v = s := by
  cases v with
  | context value =>
    simp only [deleteCandidate]
    rw [OrdMap.delete_of_get?_none (Option.map_eq_none_iff.mp h)]
  | message value =>
    simp only [deleteCandidate]
    rw [OrdMap.delete_of_get?_none (Option.map_eq_none_iff.mp h)]

/-- The bytes of a source and of its mark. -/
def textSize (content : Text) (truncated : Bool) : ℕ := byteLength (quote content) + if truncated then 4 else 5

theorem byteLength_bool (depth : ℕ) (b : Bool) : byteLength (pretty depth (.bool b)) = if b then 4 else 5 := by
  cases b
  · rw [pretty]
    decide
  · rw [pretty]
    decide

theorem contextSize_eq (value : RenderedContext) : ∃ n, ∀ content truncated,
    contextSize { value with content, truncated } = n + textSize content truncated := by
  refine ⟨contextSize { value with content := [], truncated := true } - textSize [] true, fun content truncated => ?_⟩
  have htrue : byteLength (units "true") = 4 := by decide
  unfold contextSize itemSize RenderedContext.json
  dsimp only
  rw [byteLength_obj _ (List.cons_ne_nil _ _), byteLength_obj _ (List.cons_ne_nil _ _)]
  simp only [List.map_cons, List.map_nil, List.sum_cons, List.sum_nil, fieldSize, byteLength_bool, pretty, textSize,
    htrue, if_true]
  omega

theorem messageSize_eq (value : RenderedMessage) : ∃ n, ∀ content truncated,
    messageSize { value with content, truncated } = n + textSize content truncated := by
  refine ⟨messageSize { value with content := [], truncated := true } - textSize [] true, fun content truncated => ?_⟩
  have htrue : byteLength (units "true") = 4 := by decide
  unfold messageSize itemSize RenderedMessage.json
  dsimp only
  rw [byteLength_obj _ (List.cons_ne_nil _ _), byteLength_obj _ (List.cons_ne_nil _ _)]
  simp only [List.map_cons, List.map_nil, List.sum_cons, List.sum_nil, fieldSize, byteLength_bool, pretty, textSize,
    htrue, if_true]
  omega

/-- **One more source** takes the bytes of its text and of its mark, and of what does not depend on these. -/
theorem promptBytes_setCandidate {s : Selected} {v : PromptValue} (h : look s v = none) : ∃ n, ∀ c b,
    promptBytes input task (setCandidate s (withCandidateContent v c b)) = n + textSize c b := by
  cases v with
  | context value =>
    have habsent : s.contexts.get? value.id = none := Option.map_eq_none_iff.mp h
    obtain ⟨n, hn⟩ := contextSize_eq value
    refine ⟨frame input task (s.contexts.values.length + 1) s.messages.values.length +
      (s.contexts.values.map contextSize).sum + (s.messages.values.map messageSize).sum + n, fun c b => ?_⟩
    simp only [withCandidateContent, setCandidate]
    rw [promptBytes_eq, OrdMap.values_set_of_none _ habsent, List.length_append, List.map_append, List.sum_append]
    simp only [List.map_cons, List.map_nil, List.sum_cons, List.sum_nil, List.length_singleton, hn]
    omega
  | message value =>
    have habsent : s.messages.get? value.id = none := Option.map_eq_none_iff.mp h
    obtain ⟨n, hn⟩ := messageSize_eq value
    refine ⟨frame input task s.contexts.values.length (s.messages.values.length + 1) +
      (s.contexts.values.map contextSize).sum + (s.messages.values.map messageSize).sum + n, fun c b => ?_⟩
    simp only [withCandidateContent, setCandidate]
    rw [promptBytes_eq, OrdMap.values_set_of_none _ habsent, List.length_append, List.map_append, List.sum_append]
    simp only [List.map_cons, List.map_nil, List.sum_cons, List.sum_nil, List.length_singleton, hn]
    omega

/-! ### The search -/

/-- The candidate with its whole source. -/
def whole (v : PromptValue) : PromptValue := withCandidateContent v v.content false

/-- The candidate with a start of its source and the marker. -/
def cut (v : PromptValue) (k : ℕ) : PromptValue := withCandidateContent v (JsonPretty.start k v.content ++ marker v.id) true

/-- The prompt has room for a candidate with some content. -/
def Fits (s : Selected) (w : PromptValue) : Prop := (promptBytes input task (setCandidate s w) : ℤ) ≤ maxPromptBytes input

/-- A shorter start fits where a longer one does. -/
theorem Fits.mono {s : Selected} {v : PromptValue} (habsent : look s v = none) {k l : ℕ} (hkl : k ≤ l)
    (h : Fits input task s (cut v l)) : Fits input task s (cut v k) := by
  obtain ⟨n, hn⟩ := promptBytes_setCandidate input task habsent
  have hmarker : Apart (marker v.id) := apart_cons (by decide) _
  have hquote := byteLength_quote_mono v.content hkl hmarker
  unfold Fits cut at h ⊢
  rw [hn] at h ⊢
  unfold textSize at h ⊢
  push_cast at h ⊢
  omega

theorem cutSize_le {content sourceId : Text} {k l : ℕ} (hk : k ≤ count content)
    (h : cutSize content sourceId k ≤ cutSize content sourceId l) : k ≤ l := by
  by_contra hlt
  have hstart := byteLength_start_lt content (not_le.mp hlt) hk
  unfold cutSize at h
  omega

/-- The starts that the search tries: no longer than a bound, and shorter than the source. -/
structure Try (v : PromptValue) (bound l : ℕ) : Prop where
  pos : 0 < l
  start : l ≤ count v.content
  shorter : cutSize v.content v.id l < byteLength v.content
  within : cutSize v.content v.id l ≤ bound

/-- What the search has accepted. -/
def Accepted (s : Selected) (v : PromptValue) (bound : ℕ) : Option PromptValue → Prop
  | none => True
  | some w => Fits input task s w ∧ (w = whole v ∨ ∃ k, Try v bound k ∧ w = cut v k)

/-- What is accepted is no less than a start. -/
def Covers (v : PromptValue) (accepted : Option PromptValue) (l : ℕ) : Prop :=
  accepted = some (whole v) ∨ ∃ k, l ≤ k ∧ k ≤ count v.content ∧ accepted = some (cut v k)

/-- What the search keeps, over the selection `base` that it began with. -/
structure Inv (base : Selected) (v : PromptValue) (bound lower upper : ℕ) (accepted : Option PromptValue) (s : Selected) :
    Prop where
  pos : 0 < lower
  bounded : upper ≤ bound
  state : s = base ∨ ∃ c b, s = setCandidate base (withCandidateContent v c b)
  tried : Accepted input task base v bound accepted
  below : ∀ l, Try v bound l → cutSize v.content v.id l < lower → Fits input task base (cut v l) → Covers v accepted l
  above : ∀ l, Try v bound l → upper < cutSize v.content v.id l → ¬ Fits input task base (cut v l)

section

variable {input task} {base s : Selected} {v : PromptValue} {bound lower upper : ℕ} {accepted : Option PromptValue}

theorem Inv.set (h : Inv input task base v bound lower upper accepted s) (c : Text) (b : Bool) :
    setCandidate s (withCandidateContent v c b) = setCandidate base (withCandidateContent v c b) := by
  rcases h.state with rfl | ⟨d, e, rfl⟩
  · rfl
  · exact setCandidate_setCandidate _ _ _ _ _ _

/-- No start fits the cap. -/
theorem Inv.nothing {cap : ℕ} (h : Inv input task base v bound lower upper accepted s)
    (hnone : ∀ l, 0 < l → l ≤ count v.content → cap < cutSize v.content v.id l) :
    Inv input task base v bound (cap + 1) upper accepted s where
  pos := Nat.succ_pos _
  bounded := h.bounded
  state := h.state
  tried := h.tried
  below := by
    intro l hl hlt
    have hcap := hnone l hl.pos hl.start
    omega
  above := h.above

/-- The whole source is in the prompt. -/
theorem Inv.whole {cap : ℕ} (h : Inv input task base v bound lower upper accepted s) (hfits : Fits input task base (whole v)) :
    Inv input task base v bound (cap + 1) upper (some (whole v)) (setCandidate base (whole v)) where
  pos := Nat.succ_pos _
  bounded := h.bounded
  state := Or.inr ⟨_, _, rfl⟩
  tried := ⟨hfits, Or.inl rfl⟩
  below := fun _ _ _ _ => Or.inl rfl
  above := h.above

/-- The longest start of the cap is in the prompt. -/
theorem Inv.cut {cap k : ℕ} (h : Inv input task base v bound lower upper accepted s) (hk : Try v bound k)
    (hlongest : ∀ l, l ≤ count v.content → 0 < l → cutSize v.content v.id l ≤ cap → l ≤ k)
    (hfits : Fits input task base (cut v k)) :
    Inv input task base v bound (cap + 1) upper (some (cut v k)) (setCandidate base (cut v k)) where
  pos := Nat.succ_pos _
  bounded := h.bounded
  state := Or.inr ⟨_, _, rfl⟩
  tried := ⟨hfits, Or.inr ⟨k, hk, rfl⟩⟩
  below := fun l hl hlt _ => Or.inr ⟨k, hlongest l hl.start hl.pos (Nat.lt_succ_iff.mp hlt), hk.start, rfl⟩
  above := h.above

/-- What is tried does not fit. -/
theorem Inv.over {cap : ℕ} (h : Inv input task base v bound lower upper accepted s) (hcap : cap ≤ upper)
    (hover : ∀ l, Try v bound l → cap ≤ cutSize v.content v.id l → ¬ Fits input task base (Packing.cut v l)) :
    Inv input task base v bound lower (cap - 1) accepted base where
  pos := h.pos
  bounded := by
    have hupper := h.bounded
    omega
  state := Or.inl rfl
  tried := h.tried
  below := h.below
  above := fun l hl hlt => hover l hl (by omega)

end

/-- The outcome of the search: what is accepted, and no longer start fits. -/
structure Found (base : Selected) (v : PromptValue) (bound : ℕ) (found : Option PromptValue × Selected) : Prop where
  state : found.2 = base ∨ ∃ c b, found.2 = setCandidate base (withCandidateContent v c b)
  accepted : Accepted input task base v bound found.1
  longest : ∀ l, Try v bound l → Fits input task base (cut v l) → Covers v found.1 l

/-- **The search** keeps its invariant to the end. -/
theorem search_spec {base : Selected} {v : PromptValue} (habsent : look base v = none) {bound : ℕ} :
    ∀ n lower upper accepted s, upper + 1 - lower = n →
      Inv input task base v bound lower upper accepted s →
        Found input task base v bound (search input task v lower upper accepted s) := by
  intro n
  induction n using Nat.strong_induction_on with
  | _ n ih =>
    intro lower upper accepted s hn h
    unfold search
    have hlower := h.pos
    have hupper := h.bounded
    by_cases hle : lower ≤ upper
    · rw [dif_pos hle]
      dsimp only
      set cap := (lower + upper) / 2 with hcap
      have hge : lower ≤ cap := by omega
      have hcapUpper : cap ≤ upper := by omega
      rcases excerpt_cases v.content v.id (show 0 < cap by omega) with
        ⟨hwhole, hexcerpt⟩ | ⟨hcut, ⟨hexcerpt, hnone⟩ | ⟨k, hpos, hcount, hsize, hexcerpt, hlongest⟩⟩
      · rw [hexcerpt]
        dsimp only
        rw [h.set, deleteCandidate_setCandidate habsent]
        split_ifs with hfits hzero
        · exact ih _ (by omega) _ _ _ _ rfl (h.whole hfits)
        · omega
        · refine ih _ (by omega) _ _ _ _ rfl (h.over hcapUpper fun l hl hlt => ?_)
          have hshorter := hl.shorter
          omega
      · rw [hexcerpt]
        exact ih _ (by omega) _ _ _ _ rfl (h.nothing hnone)
      · rw [hexcerpt]
        dsimp only
        rw [h.set, deleteCandidate_setCandidate habsent]
        have htry : Try v bound k := ⟨hpos, hcount, by omega, by omega⟩
        split_ifs with hfits hzero
        · exact ih _ (by omega) _ _ _ _ rfl (h.cut htry hlongest hfits)
        · omega
        · refine ih _ (by omega) _ _ _ _ rfl (h.over hcapUpper fun l hl hlt hfitsl => hfits ?_)
          exact Fits.mono input task habsent (cutSize_le hcount (hsize.trans hlt)) hfitsl
    · rw [dif_neg hle]
      refine ⟨h.state, h.tried, fun l hl hfits => ?_⟩
      by_cases hlt : cutSize v.content v.id l < lower
      · exact h.below l hl hlt hfits
      · exact absurd hfits (h.above l hl (by omega))

/-! ### One round -/

/-- What becomes of a candidate: it is left out, whole, or cut, and no longer start that can be tried fits. -/
inductive Chosen (base : Selected) (v : PromptValue) (bound : ℕ) : Option PromptValue → Prop
  | omitted (longest : ∀ l, Try v bound l → ¬ Fits input task base (cut v l)) : Chosen base v bound none
  | whole (fits : Fits input task base (whole v)) : Chosen base v bound (some (whole v))
  | cut (k : ℕ) (tried : Try v bound k) (fits : Fits input task base (cut v k))
      (longest : ∀ l, k < l → Try v bound l → ¬ Fits input task base (cut v l)) : Chosen base v bound (some (cut v k))

theorem cut_injective {v : PromptValue} {k l : ℕ} (hk : k ≤ count v.content) (hl : l ≤ count v.content)
    (h : cut v k = cut v l) : k = l := by
  have hcontent : JsonPretty.start k v.content ++ marker v.id = JsonPretty.start l v.content ++ marker v.id := by
    have hc := congrArg PromptValue.content h
    cases v <;> exact hc
  have hstart := congrArg byteLength (List.append_cancel_right hcontent)
  rcases Nat.lt_trichotomy k l with hlt | rfl | hlt
  · have hbytes := byteLength_start_lt v.content hlt hl
    omega
  · rfl
  · have hbytes := byteLength_start_lt v.content hlt hk
    omega

theorem truncated_withCandidateContent (v : PromptValue) (c : Text) (b : Bool) :
    (withCandidateContent v c b).truncated = b := by
  cases v <;> rfl

variable {input task} in
/-- What the search finds is what becomes of the candidate. -/
theorem Found.chosen {base : Selected} {v : PromptValue} {bound : ℕ} {found : Option PromptValue × Selected}
    (h : Found input task base v bound found) : Chosen input task base v bound found.1 := by
  obtain ⟨accepted, s⟩ := found
  have htried := h.accepted
  have hlongest := h.longest
  dsimp only at htried hlongest ⊢
  rcases accepted with _ | w
  · refine Chosen.omitted fun l hl hfits => ?_
    rcases hlongest l hl hfits with hwhole | ⟨k, -, -, hk⟩
    · cases hwhole
    · cases hk
  · rcases htried with ⟨hfits, rfl | ⟨k, hk, rfl⟩⟩
    · exact Chosen.whole hfits
    · refine Chosen.cut k hk hfits fun l hlt hl hfitsl => ?_
      rcases hlongest l hl hfitsl with hwhole | ⟨k', hle, hcount, hk'⟩
      · have hmark := congrArg PromptValue.truncated (Option.some.inj hwhole)
        unfold cut whole at hmark
        rw [truncated_withCandidateContent, truncated_withCandidateContent] at hmark
        cases hmark
      · have heq := cut_injective hk.start hcount (Option.some.inj hk')
        omega

/-- The selection with what was chosen. -/
def place (s : Selected) : Option PromptValue → Selected
  | none => s
  | some w => setCandidate s w

/-- **One round** of the loop. -/
theorem pack_spec {base : Selected} {v : PromptValue} (habsent : look base v = none) (maxSourceBytes : ℕ) :
    ∃ chosen, pack input task maxSourceBytes base v = place base chosen ∧
      Chosen input task base v maxSourceBytes chosen := by
  have hinv : Inv input task base v maxSourceBytes 1 (min (byteLength v.content) maxSourceBytes) none base :=
    { pos := Nat.one_pos
      bounded := min_le_right _ _
      state := Or.inl rfl
      tried := trivial
      below := by
        intro l hl hlt _
        have hstart := start_pos hl.pos hl.start
        unfold cutSize at hlt
        omega
      above := by
        intro l hl hlt
        have hwithin := hl.within
        have hshorter := hl.shorter
        omega }
  have hfound := search_spec input task habsent _ _ _ _ _ rfl hinv
  refine ⟨_, ?_, hfound.chosen⟩
  have hdelete : deleteCandidate
      (search input task v 1 (min (byteLength v.content) maxSourceBytes) none base).2 v = base := by
    rcases hfound.state with hbase | ⟨c, b, hset⟩
    · rw [hbase, deleteCandidate_absent habsent]
    · rw [hset, deleteCandidate_setCandidate habsent]
  unfold pack
  dsimp only
  rw [hdelete]
  cases (search input task v 1 (min (byteLength v.content) maxSourceBytes) none base).1 <;> rfl

end Norns.Debates.Packing
