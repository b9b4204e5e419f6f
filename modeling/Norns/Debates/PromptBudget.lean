import Norns.Debates.Packing

/-! # A prompt is within its budget

The loop of `buildStructuredPrompt` and what it returns.

* `Kept`: what the loop keeps, `kept_select` over a whole run;
* `look_select`: a later round leaves what became of a candidate as it is;
* `prompt_meets`: the only refusals are those of the scope and of the prompt without sources; a prompt is within its
  budget, and its manifest says what is in it. -/

namespace Norns.Debates.PromptBudget

open Norns.Lib Norns.Lib.JsonText Norns.Lib.Utf8 Norns.Lib.JsonPretty Norns.Debates.Prompt Norns.Debates.Packing

/-! ### Keys -/

/-- The kind and the id of a candidate. -/
def key : PromptValue → Bool × Text
  | .context value => (true, value.id)
  | .message value => (false, value.id)

theorem key_withCandidateContent (v : PromptValue) (c : Text) (b : Bool) : key (withCandidateContent v c b) = key v := by
  cases v <;> rfl

theorem look_setCandidate (s : Selected) (v w : PromptValue) :
    look (setCandidate s v) w = if key v = key w then some v else look s w := by
  cases v with
  | context x =>
    cases w with
    | context y =>
      simp only [look, setCandidate, key, Prod.mk.injEq, true_and]
      rw [OrdMap.get?_set]
      split_ifs <;> rfl
    | message y => simp [look, setCandidate, key]
  | message x =>
    cases w with
    | context y => simp [look, setCandidate, key]
    | message y =>
      simp only [look, setCandidate, key, Prod.mk.injEq, true_and]
      rw [OrdMap.get?_set]
      split_ifs <;> rfl

/-- What is chosen is the candidate with some content. -/
theorem key_chosen {input : DebatePromptInput} {task : PromptTask} {base : Selected} {v w : PromptValue} {bound : ℕ}
    (h : Chosen input task base v bound (some w)) : key w = key v := by
  cases h with
  | whole => exact key_withCandidateContent _ _ _
  | cut => exact key_withCandidateContent _ _ _

theorem look_place {s : Selected} {v : PromptValue} (habsent : look s v = none) {chosen : Option PromptValue}
    (hkey : ∀ w, chosen = some w → key w = key v) : look (place s chosen) v = chosen := by
  rcases chosen with _ | w
  · exact habsent
  · unfold place
    rw [look_setCandidate, if_pos (hkey w rfl)]

theorem look_place_ne {s : Selected} {v w : PromptValue} (hne : key v ≠ key w) {chosen : Option PromptValue}
    (hkey : ∀ x, chosen = some x → key x = key v) : look (place s chosen) w = look s w := by
  rcases chosen with _ | x
  · rfl
  · unfold place
    rw [look_setCandidate, hkey x rfl, if_neg hne]

/-! ### The loop -/

variable (input : DebatePromptInput) (task : PromptTask) (bound : ℕ)

/-- What is selected after some candidates. -/
def select (before : List PromptValue) : Selected := before.foldl (pack input task bound) .empty

theorem select_concat (before : List PromptValue) (v : PromptValue) :
    select input task bound (before ++ [v]) = pack input task bound (select input task bound before) v := by
  unfold select
  rw [List.foldl_append]
  rfl

/-- What the loop keeps: the prompt is within its budget, and what is selected comes from the candidates. -/
structure Kept (before : List PromptValue) (s : Selected) : Prop where
  bytes : (promptBytes input task s : ℤ) ≤ maxPromptBytes input
  contexts : ∀ id value, s.contexts.get? id = some value → value.id = id ∧ (true, id) ∈ before.map key
  messages : ∀ id value, s.messages.get? id = some value → value.id = id ∧ (false, id) ∈ before.map key

variable {input task bound}

theorem Kept.absent {before : List PromptValue} {s : Selected} (h : Kept input task before s) {v : PromptValue}
    (hv : key v ∉ before.map key) : look s v = none := by
  cases v with
  | context x =>
    rcases hx : s.contexts.get? x.id with _ | y
    · simp [look, hx]
    · exact absurd (h.contexts _ _ hx).2 hv
  | message x =>
    rcases hx : s.messages.get? x.id with _ | y
    · simp [look, hx]
    · exact absurd (h.messages _ _ hx).2 hv

/-- One round keeps it. -/
theorem Kept.place {before : List PromptValue} {s : Selected} (h : Kept input task before s) {v : PromptValue}
    {chosen : Option PromptValue} (hchosen : Chosen input task s v bound chosen) :
    Kept input task (before ++ [v]) (place s chosen) := by
  rcases chosen with _ | w
  · refine ⟨h.bytes, fun id value hget => ?_, fun id value hget => ?_⟩
    · rw [List.map_append, List.mem_append]
      exact ⟨(h.contexts id value hget).1, Or.inl (h.contexts id value hget).2⟩
    · rw [List.map_append, List.mem_append]
      exact ⟨(h.messages id value hget).1, Or.inl (h.messages id value hget).2⟩
  · have hfits : Fits input task s w := by
      cases hchosen with
      | whole fits => exact fits
      | cut k tried fits longest => exact fits
    have hkey := key_chosen hchosen
    refine ⟨hfits, fun id value hget => ?_, fun id value hget => ?_⟩
    · rw [List.map_append, List.mem_append, List.map_singleton, List.mem_singleton, ← hkey]
      cases w with
      | context x =>
        simp only [Packing.place, setCandidate] at hget
        rw [OrdMap.get?_set] at hget
        split_ifs at hget with hid
        · obtain rfl := Option.some.inj hget
          exact ⟨hid, Or.inr (by rw [← hid]; rfl)⟩
        · exact ⟨(h.contexts id value hget).1, Or.inl (h.contexts id value hget).2⟩
      | message x => exact ⟨(h.contexts id value hget).1, Or.inl (h.contexts id value hget).2⟩
    · rw [List.map_append, List.mem_append, List.map_singleton, List.mem_singleton, ← hkey]
      cases w with
      | context x => exact ⟨(h.messages id value hget).1, Or.inl (h.messages id value hget).2⟩
      | message x =>
        simp only [Packing.place, setCandidate] at hget
        rw [OrdMap.get?_set] at hget
        split_ifs at hget with hid
        · obtain rfl := Option.some.inj hget
          exact ⟨hid, Or.inr (by rw [← hid]; rfl)⟩
        · exact ⟨(h.messages id value hget).1, Or.inl (h.messages id value hget).2⟩

/-- A candidate whose key is new is what its round makes of it. -/
theorem select_chosen {before : List PromptValue} {v : PromptValue}
    (h : Kept input task before (select input task bound before)) (hv : key v ∉ before.map key) :
    ∃ chosen, select input task bound (before ++ [v]) = place (select input task bound before) chosen ∧
      Chosen input task (select input task bound before) v bound chosen ∧
      look (select input task bound (before ++ [v])) v = chosen := by
  obtain ⟨chosen, hpack, hchosen⟩ := pack_spec input task (h.absent hv) bound
  have hselect := select_concat input task bound before v
  rw [hpack] at hselect
  refine ⟨chosen, hselect, hchosen, ?_⟩
  rw [hselect]
  exact look_place (h.absent hv) fun w hw => key_chosen (hw ▸ hchosen)

/-- **A run** of the loop keeps it. -/
theorem kept_select (hfixed : (fixedBytes input task : ℤ) ≤ maxPromptBytes input) (before : List PromptValue)
    (hnodup : (before.map key).Nodup) : Kept input task before (select input task bound before) := by
  induction before using List.reverseRecOn with
  | nil => exact ⟨hfixed, fun _ _ h => (by cases h), fun _ _ h => (by cases h)⟩
  | append_singleton before v ih =>
    rw [List.map_append, List.nodup_append] at hnodup
    have hnew : key v ∉ before.map key := fun hmem => hnodup.2.2 _ hmem _ (List.mem_singleton_self _) rfl
    obtain ⟨chosen, hselect, hchosen, -⟩ := select_chosen (ih hnodup.1) hnew
    rw [hselect]
    exact (ih hnodup.1).place hchosen

/-- **Later rounds** leave a candidate as it is. -/
theorem look_select (hfixed : (fixedBytes input task : ℤ) ≤ maxPromptBytes input) (before : List PromptValue)
    (v : PromptValue) (after : List PromptValue) (hnodup : ((before ++ v :: after).map key).Nodup) :
    Chosen input task (select input task bound before) v bound (look (select input task bound (before ++ v :: after)) v) := by
  induction after using List.reverseRecOn with
  | nil =>
    have hsplit := hnodup
    rw [List.map_append, List.nodup_append] at hsplit
    have hnew : key v ∉ before.map key := fun hmem => hsplit.2.2 _ hmem _ (List.mem_singleton_self _) rfl
    obtain ⟨chosen, -, hchosen, hlook⟩ := select_chosen (kept_select hfixed before hsplit.1) hnew
    rw [hlook]
    exact hchosen
  | append_singleton after w ih =>
    have hassoc : before ++ v :: (after ++ [w]) = (before ++ v :: after) ++ [w] := by simp
    rw [hassoc] at hnodup ⊢
    have hsplit := hnodup
    rw [List.map_append, List.nodup_append] at hsplit
    have hnew : key w ∉ (before ++ v :: after).map key :=
      fun hmem => hsplit.2.2 _ hmem _ (List.mem_singleton_self _) rfl
    have hne : key w ≠ key v := by
      intro heq
      refine hnew (heq ▸ ?_)
      simp
    obtain ⟨chosen, hselect, hchosen, -⟩ := select_chosen (kept_select hfixed _ hsplit.1) hnew
    rw [hselect, look_place_ne hne fun x hx => key_chosen (hx ▸ hchosen)]
    exact ih hsplit.1

/-! ### The candidates -/

theorem sortedContexts_perm (input : DebatePromptInput) : (sortedContexts input).Perm input.contexts :=
  List.perm_insertionSort _ _

theorem sortedMessages_perm (input : DebatePromptInput) : (sortedMessages input).Perm input.transcript :=
  List.perm_insertionSort _ _

/-- The last item first, and the others backwards. -/
theorem newestFirst_perm {α : Type} (l : List α) : (l.getLast?.toList ++ l.dropLast.reverse).Perm l := by
  induction l using List.reverseRecOn with
  | nil => exact List.Perm.refl _
  | append_singleton l a _ =>
    rw [List.getLast?_concat, List.dropLast_concat]
    have hswap : ([a] ++ l.reverse).Perm (l.reverse ++ [a]) := List.perm_append_comm
    exact hswap.trans ((List.reverse_perm l).append_right [a])

/-- The candidates are the sources. -/
theorem candidates_perm (input : DebatePromptInput) : (candidates input).Perm
    (input.contexts.map contextCandidate ++ input.transcript.map messageCandidate) := by
  have hmessages := ((newestFirst_perm (sortedMessages input)).trans (sortedMessages_perm input)).map messageCandidate
  have hcontexts := (sortedContexts_perm input).map contextCandidate
  rw [List.map_append] at hmessages
  unfold candidates
  refine (List.perm_append_comm.append_right _).trans ?_
  rw [List.append_assoc]
  exact hcontexts.append hmessages

theorem refuseIf_bind {p : Prop} [Decidable p] {code : DebateProtocolErrorCode} {message : String}
    {next : Unit → Except DebateProtocolError Unit} (h : (refuseIf p code message >>= next) = .ok ()) :
    ¬ p ∧ next () = .ok () := by
  unfold refuseIf at h
  by_cases hp : p
  · rw [if_pos hp] at h
    cases h
  · rw [if_neg hp] at h
    exact ⟨hp, h⟩

/-- The ids of the sources are unique. -/
theorem validateScope_ok {input : DebatePromptInput} (h : validateScope input = .ok ()) :
    (input.contexts.map DebateResolvedContext.id).Nodup ∧ (input.transcript.map DebateMessage.id).Nodup := by
  unfold validateScope at h
  obtain ⟨-, h⟩ := refuseIf_bind h
  obtain ⟨-, h⟩ := refuseIf_bind h
  obtain ⟨-, h⟩ := refuseIf_bind h
  obtain ⟨hcontexts, h⟩ := refuseIf_bind h
  obtain ⟨-, h⟩ := refuseIf_bind h
  obtain ⟨hmessages, -⟩ := refuseIf_bind h
  exact ⟨not_not.mp hcontexts, not_not.mp hmessages⟩

theorem candidates_nodup {input : DebatePromptInput} (h : validateScope input = .ok ()) :
    ((candidates input).map key).Nodup := by
  obtain ⟨hcontexts, hmessages⟩ := validateScope_ok h
  rw [((candidates_perm input).map key).nodup_iff, List.map_append, List.map_map, List.map_map, List.nodup_append]
  have hcontextKey : key ∘ contextCandidate = fun item => (true, item.id) := rfl
  have hmessageKey : key ∘ messageCandidate = fun message => (false, message.id) := rfl
  rw [hcontextKey, hmessageKey]
  refine ⟨?_, ?_, ?_⟩
  · exact List.Nodup.of_map Prod.snd (by rw [List.map_map]; exact hcontexts)
  · exact List.Nodup.of_map Prod.snd (by rw [List.map_map]; exact hmessages)
  · intro a ha b hb heq
    obtain ⟨item, -, rfl⟩ := List.mem_map.mp ha
    obtain ⟨message, -, rfl⟩ := List.mem_map.mp hb
    cases heq

theorem mem_keys_context {input : DebatePromptInput} {id : Text} (h : (true, id) ∈ (candidates input).map key) :
    id ∈ input.contexts.map DebateResolvedContext.id := by
  rw [((candidates_perm input).map key).mem_iff, List.map_append, List.mem_append] at h
  rcases h with h | h
  · obtain ⟨v, hv, hkey⟩ := List.mem_map.mp h
    obtain ⟨item, hitem, rfl⟩ := List.mem_map.mp hv
    exact List.mem_map.mpr ⟨item, hitem, (Prod.mk.inj hkey).2⟩
  · obtain ⟨v, hv, hkey⟩ := List.mem_map.mp h
    obtain ⟨message, -, rfl⟩ := List.mem_map.mp hv
    cases hkey

theorem mem_keys_message {input : DebatePromptInput} {id : Text} (h : (false, id) ∈ (candidates input).map key) :
    id ∈ input.transcript.map DebateMessage.id := by
  rw [((candidates_perm input).map key).mem_iff, List.map_append, List.mem_append] at h
  rcases h with h | h
  · obtain ⟨v, hv, hkey⟩ := List.mem_map.mp h
    obtain ⟨item, -, rfl⟩ := List.mem_map.mp hv
    cases hkey
  · obtain ⟨v, hv, hkey⟩ := List.mem_map.mp h
    obtain ⟨message, hmessage, rfl⟩ := List.mem_map.mp hv
    exact List.mem_map.mpr ⟨message, hmessage, (Prod.mk.inj hkey).2⟩

/-! ### The manifest -/

/-- The ids of some sources, as a manifest lists them. -/
structure Listed (ids selected omitted truncated : List Text) : Prop where
  partition : (selected ++ omitted).Perm ids
  apart : List.Disjoint selected omitted
  truncated : truncated ⊆ selected

theorem listed_filter {ids sorted truncated : List Text} (hperm : sorted.Perm ids) (p : Text → Bool)
    (htruncated : ∀ id ∈ truncated, id ∈ ids ∧ p id = true) :
    Listed ids (sorted.filter p) (sorted.filter fun id => !p id) truncated where
  partition := (List.filter_append_perm p sorted).trans hperm
  apart := by
    intro id hselected homitted
    have hyes := (List.mem_filter.mp hselected).2
    have hno := (List.mem_filter.mp homitted).2
    rw [hyes] at hno
    cases hno
  truncated := fun id hid => List.mem_filter.mpr ⟨hperm.mem_iff.mpr (htruncated id hid).1, (htruncated id hid).2⟩

def selectedIds (m : DebateContextManifest) : PromptValue → List Text
  | .context _ => m.selected_context_ids
  | .message _ => m.selected_message_ids

def truncatedIds (m : DebateContextManifest) : PromptValue → List Text
  | .context _ => m.truncated_context_ids
  | .message _ => m.truncated_message_ids

/-- A source is truncated when its entry says so. -/
theorem Kept.truncated_context {before : List PromptValue} {s : Selected} (h : Kept input task before s) {id : Text} :
    id ∈ (manifest input task s).truncated_context_ids ↔
      ∃ value, s.contexts.get? id = some value ∧ value.truncated = true := by
  constructor
  · intro hid
    obtain ⟨value, hvalue, rfl⟩ := List.mem_map.mp hid
    obtain ⟨hmem, htruncated⟩ := List.mem_filter.mp hvalue
    obtain ⟨id, hget⟩ := OrdMap.mem_values.mp hmem
    exact ⟨value, (h.contexts _ _ hget).1 ▸ hget, htruncated⟩
  · rintro ⟨value, hget, htruncated⟩
    exact List.mem_map.mpr ⟨value, List.mem_filter.mpr ⟨OrdMap.mem_values.mpr ⟨id, hget⟩, htruncated⟩,
      (h.contexts _ _ hget).1⟩

theorem Kept.truncated_message {before : List PromptValue} {s : Selected} (h : Kept input task before s) {id : Text} :
    id ∈ (manifest input task s).truncated_message_ids ↔
      ∃ value, s.messages.get? id = some value ∧ value.truncated = true := by
  constructor
  · intro hid
    obtain ⟨value, hvalue, rfl⟩ := List.mem_map.mp hid
    obtain ⟨hmem, htruncated⟩ := List.mem_filter.mp hvalue
    obtain ⟨id, hget⟩ := OrdMap.mem_values.mp hmem
    exact ⟨value, (h.messages _ _ hget).1 ▸ hget, htruncated⟩
  · rintro ⟨value, hget, htruncated⟩
    exact List.mem_map.mpr ⟨value, List.mem_filter.mpr ⟨OrdMap.mem_values.mpr ⟨id, hget⟩, htruncated⟩,
      (h.messages _ _ hget).1⟩

theorem has_of_get? {α β : Type} [DecidableEq α] {m : OrdMap α β} {k : α} {v : β} (h : m.get? k = some v) :
    m.has k = true := by
  unfold OrdMap.has
  rw [h]
  rfl

/-- What a prompt is that was built of a selection. -/
structure Built (input : DebatePromptInput) (task : PromptTask) (bound : ℕ) (p : DebateStructuredPrompt) (s : Selected) :
    Prop where
  system : p.system = systemPrompt input
  prompt : p.prompt = render input task s
  budget : (byteLength p.system + byteLength p.prompt : ℤ) ≤ maxPromptBytes input
  counted : p.contextManifest.prompt_utf8_bytes = byteLength p.system + byteLength p.prompt
  contexts : Listed (input.contexts.map DebateResolvedContext.id) p.contextManifest.selected_context_ids
    p.contextManifest.omitted_context_ids p.contextManifest.truncated_context_ids
  messages : Listed (input.transcript.map DebateMessage.id) p.contextManifest.selected_message_ids
    p.contextManifest.omitted_message_ids p.contextManifest.truncated_message_ids
  selected : ∀ v ∈ candidates input, (v.id ∈ selectedIds p.contextManifest v ↔ ∃ w, look s v = some w)
  truncated : ∀ v ∈ candidates input,
    (v.id ∈ truncatedIds p.contextManifest v ↔ ∃ w, look s v = some w ∧ w.truncated = true)
  chosen : ∀ before v after, candidates input = before ++ v :: after →
    Chosen input task (select input task bound before) v bound (look s v)

variable (input task) in
/-- What is returned for the selection after the loop. -/
theorem built_manifest (hscope : validateScope input = .ok ())
    (hfixed : (fixedBytes input task : ℤ) ≤ maxPromptBytes input) (bound : ℕ) :
    Built input task bound
      { system := systemPrompt input
        prompt := render input task (select input task bound (candidates input))
        maxTokens := input.actor.max_output_tokens
        contextManifest := manifest input task (select input task bound (candidates input)) }
      (select input task bound (candidates input)) := by
  have hkept : Kept input task (candidates input) (select input task bound (candidates input)) :=
    kept_select hfixed (candidates input) (candidates_nodup hscope)
  refine ⟨rfl, rfl, ?_, rfl, ?_, ?_, ?_, ?_, ?_⟩
  · have hbytes := hkept.bytes
    unfold promptBytes at hbytes
    push_cast at hbytes
    exact hbytes
  · refine listed_filter ((sortedContexts_perm input).map _) _ fun id hid => ?_
    obtain ⟨value, hget, -⟩ := hkept.truncated_context.mp hid
    exact ⟨mem_keys_context (hkept.contexts _ _ hget).2, has_of_get? hget⟩
  · refine listed_filter ((sortedMessages_perm input).map _) _ fun id hid => ?_
    obtain ⟨value, hget, -⟩ := hkept.truncated_message.mp hid
    exact ⟨mem_keys_message (hkept.messages _ _ hget).2, has_of_get? hget⟩
  · intro v hv
    have hmem := List.mem_map_of_mem (f := key) hv
    cases v with
    | context value =>
      have hid := ((sortedContexts_perm input).map DebateResolvedContext.id).mem_iff.mpr (mem_keys_context hmem)
      simp only [PromptValue.id, selectedIds, manifest, List.mem_filter, look, Option.map_eq_some_iff]
      rw [OrdMap.has, Option.isSome_iff_exists]
      exact ⟨fun h => h.2.imp' PromptValue.context fun x hx => ⟨x, hx, rfl⟩,
        fun ⟨_, x, hx, _⟩ => ⟨hid, x, hx⟩⟩
    | message value =>
      have hid := ((sortedMessages_perm input).map DebateMessage.id).mem_iff.mpr (mem_keys_message hmem)
      simp only [PromptValue.id, selectedIds, manifest, List.mem_filter, look, Option.map_eq_some_iff]
      rw [OrdMap.has, Option.isSome_iff_exists]
      exact ⟨fun h => h.2.imp' PromptValue.message fun x hx => ⟨x, hx, rfl⟩,
        fun ⟨_, x, hx, _⟩ => ⟨hid, x, hx⟩⟩
  · intro v _
    cases v with
    | context value =>
      refine hkept.truncated_context.trans ⟨?_, ?_⟩
      · rintro ⟨x, hget, htruncated⟩
        exact ⟨.context x, Option.map_eq_some_iff.mpr ⟨x, hget, rfl⟩, htruncated⟩
      · rintro ⟨w, hlook, htruncated⟩
        obtain ⟨x, hget, rfl⟩ := Option.map_eq_some_iff.mp hlook
        exact ⟨x, hget, htruncated⟩
    | message value =>
      refine hkept.truncated_message.trans ⟨?_, ?_⟩
      · rintro ⟨x, hget, htruncated⟩
        exact ⟨.message x, Option.map_eq_some_iff.mpr ⟨x, hget, rfl⟩, htruncated⟩
      · rintro ⟨w, hlook, htruncated⟩
        obtain ⟨x, hget, rfl⟩ := Option.map_eq_some_iff.mp hlook
        exact ⟨x, hget, htruncated⟩
  · intro before v after hsplit
    have hnodup := candidates_nodup hscope
    rw [hsplit] at hnodup ⊢
    exact look_select hfixed before v after hnodup

variable (input task) in
/-- With room for the fixed part, the prompt is returned. -/
theorem buildStructuredPrompt_ok (hscope : validateScope input = .ok ()) (hpos : 0 < maxPromptBytes input)
    (hfixed : (fixedBytes input task : ℤ) ≤ maxPromptBytes input) (share : ℕ → ℕ) :
    buildStructuredPrompt input task share = .ok
      { system := systemPrompt input
        prompt := render input task (packAll input task share)
        maxTokens := input.actor.max_output_tokens
        contextManifest := manifest input task (packAll input task share) } := by
  have hbytes : ¬ (promptBytes input task (packAll input task share) : ℤ) > maxPromptBytes input :=
    not_lt.mpr (kept_select hfixed (candidates input) (candidates_nodup hscope)).bytes
  have hroom : ¬ (maxPromptBytes input ≤ 0 ∨ (fixedBytes input task : ℤ) > maxPromptBytes input) := by omega
  unfold buildStructuredPrompt
  rw [hscope]
  show (if _ then _ else _ : Except DebateProtocolError DebateStructuredPrompt) = _
  rw [if_neg hroom]
  show (if _ then _ else _ : Except DebateProtocolError DebateStructuredPrompt) = _
  rw [if_neg hbytes]
  rfl

/-- What `buildStructuredPrompt` does: the records do not share a scope, or the prompt without sources does not fit, or
the prompt is built of a selection. -/
def Meets (input : DebatePromptInput) (task : PromptTask) (share : ℕ → ℕ) : Prop :=
  match buildStructuredPrompt input task share with
  | .error e => validateScope input = .error e ∨ (validateScope input = .ok () ∧ e = fixedExceeded input task ∧
      (maxPromptBytes input ≤ 0 ∨ maxPromptBytes input < fixedBytes input task))
  | .ok p => ∃ s, Built input task (maxSourceBytes input task share) p s

/-- **The outcome**: a prompt is within its budget, and each source is whole, cut at the longest start that is tried and
fits, or left out. -/
theorem prompt_meets (input : DebatePromptInput) (task : PromptTask) (share : ℕ → ℕ) : Meets input task share := by
  unfold Meets
  rcases hscope : validateScope input with e | ⟨⟩
  · unfold buildStructuredPrompt
    rw [hscope]
    exact Or.inl rfl
  · by_cases hfixed : maxPromptBytes input ≤ 0 ∨ (fixedBytes input task : ℤ) > maxPromptBytes input
    · unfold buildStructuredPrompt
      rw [hscope]
      show match (if _ then _ else _ : Except DebateProtocolError DebateStructuredPrompt) with | .error e => _ | .ok p => _
      rw [if_pos hfixed]
      exact Or.inr ⟨rfl, rfl, hfixed⟩
    · have hle : (fixedBytes input task : ℤ) ≤ maxPromptBytes input := by omega
      rw [buildStructuredPrompt_ok input task hscope (by omega) hle share]
      exact ⟨_, built_manifest input task hscope hle (maxSourceBytes input task share)⟩

/-! ### Excerpts that are not shorter than the source -/

/-- No longer start fits with its marker, whatever its size. -/
def LongestThatFits (input : DebatePromptInput) (task : PromptTask) (bound : ℕ) : Prop :=
  ∀ before v after k, candidates input = before ++ v :: after →
    look (select input task bound (candidates input)) v = some (cut v k) →
      ∀ l, k < l → l ≤ count v.content → cutSize v.content v.id l ≤ bound →
        ¬ Fits input task (select input task bound before) (cut v l)

/-- A hundred control characters, each of which takes six bytes in the record. -/
def controls : DebateResolvedContext :=
  ⟨units "a", units "debate", 0, units "notes", units "hash", List.replicate 100 1⟩

def controlsInput (cap : ℕ) : DebatePromptInput where
  debate := ⟨units "debate", units "project", units "question"⟩
  run := ⟨units "run", units "debate", units "project"⟩
  round := ⟨units "round", units "run", 1⟩
  turn := ⟨units "turn", units "run", units "round", units "actor", 1⟩
  actor := ⟨units "actor", units "debate", units "role", units "name", units "instructions", cap, 1000⟩
  contexts := [controls]
  transcript := []

def controlsTask : PromptTask := ⟨units "participant_proposal", [], [], .null⟩

/-- The cap that leaves room for a prompt of so many bytes. -/
def capOf (room : ℕ) : ℕ := room + provider_overhead_tokens

/-- The cap at which the start of 97 characters just fits. -/
def controlsCap : ℕ :=
  capOf (promptBytes (controlsInput 0) controlsTask (setCandidate .empty (cut (contextCandidate controls) 97)))

theorem characters_replicate (n : ℕ) : characters (List.replicate n 1) = List.replicate n [1] := by
  induction n with
  | zero => rfl
  | succ n ih =>
    cases n with
    | zero => rfl
    | succ n =>
      have hlone : ¬ (isHigh 1 && isLow 1) = true := by decide
      rw [List.replicate_succ, List.replicate_succ, characters, if_neg hlone, ← List.replicate_succ, ih]
      rfl

theorem start_replicate {k n : ℕ} (h : k ≤ n) : JsonPretty.start k (List.replicate n 1) = List.replicate k 1 := by
  unfold JsonPretty.start
  rw [characters_replicate, List.take_replicate, min_eq_left h]
  induction k with
  | zero => rfl
  | succ k ih =>
    rw [List.replicate_succ, List.flatten_cons, ih (by omega)]
    rfl

theorem apart_replicate (k : ℕ) : Apart (List.replicate k 1) := by
  cases k with
  | zero => exact apart_nil
  | succ k => exact apart_cons (by decide) _

theorem byteLength_replicate (k : ℕ) : byteLength (List.replicate k 1) = k := by
  induction k with
  | zero => rfl
  | succ k ih =>
    rw [List.replicate_succ, size_cons (by decide), ih]
    omega

theorem byteLength_body_replicate (k : ℕ) : byteLength (body (List.replicate k 1)) = 6 * k := by
  induction k with
  | zero => rfl
  | succ k ih =>
    have hone : byteLength (body [1]) = 6 := by decide
    have hcons : List.replicate (k + 1) 1 = [1] ++ List.replicate k (1 : CodeUnit) := rfl
    rw [hcons, body_append (apart_replicate k), size_append _ (apart_body (apart_replicate k)), ih, hone]
    omega

theorem textSize_cut {k : ℕ} (h : k ≤ 100) :
    textSize (JsonPretty.start k controls.resolved_content ++ marker controls.id) true = 6 * k + 21 := by
  have hmarker : Apart (marker controls.id) := apart_cons (by decide) _
  have hbody : byteLength (body (marker controls.id)) = 15 := by decide
  unfold textSize
  rw [byteLength_quote, body_append hmarker, size_append _ (apart_body hmarker), hbody]
  unfold controls
  dsimp only
  rw [start_replicate h, byteLength_body_replicate, if_pos rfl]

theorem textSize_whole : textSize controls.resolved_content false = 607 := by
  unfold textSize controls
  dsimp only
  rw [byteLength_quote, byteLength_body_replicate]
  rfl

theorem cutSize_controls {k : ℕ} (h : k ≤ 100) : cutSize controls.resolved_content controls.id k = k + 14 := by
  have hmarker : byteLength (marker controls.id) = 14 := by decide
  unfold cutSize
  rw [hmarker]
  unfold controls
  dsimp only
  rw [start_replicate h, byteLength_replicate]

/-- The cap is not in the prompt. -/
theorem promptBytes_cap (input : DebatePromptInput) (task : PromptTask) (s : Selected) (cap : ℕ) :
    promptBytes { input with actor := { input.actor with max_input_tokens := cap } } task s = promptBytes input task s :=
  rfl

theorem promptBytes_controls (cap : ℕ) (s : Selected) :
    promptBytes (controlsInput cap) controlsTask s = promptBytes (controlsInput 0) controlsTask s :=
  promptBytes_cap (controlsInput 0) controlsTask s cap

theorem maxPromptBytes_capOf (room : ℕ) : maxPromptBytes (controlsInput (capOf room)) = room := by
  unfold maxPromptBytes capOf controlsInput
  push_cast
  exact add_sub_cancel_right _ _

theorem maxPromptBytes_controls : maxPromptBytes (controlsInput controlsCap) =
    promptBytes (controlsInput controlsCap) controlsTask (setCandidate .empty (cut (contextCandidate controls) 97)) :=
  (maxPromptBytes_capOf _).trans (congrArg Nat.cast (promptBytes_controls _ _).symm)

theorem frame_controls (cap : ℕ) :
    frame (controlsInput cap) controlsTask 0 0 ≤ frame (controlsInput cap) controlsTask 1 0 := by
  have hbrackets : brackets 0 ≤ brackets 1 := by decide
  have hzero : byteLength (printInt 0) = 1 := by decide
  have hone : byteLength (printInt 1) = 1 := by decide
  have hcompression : fieldSize 0 (units "compression", compression (controlsInput cap) 0 0) =
      fieldSize 0 (units "compression", compression (controlsInput cap) 1 0) := by
    have hpretty : byteLength (pretty 1 (compression (controlsInput cap) 0 0)) =
        byteLength (pretty 1 (compression (controlsInput cap) 1 0)) := by
      unfold compression
      rw [byteLength_obj _ (List.cons_ne_nil _ _), byteLength_obj _ (List.cons_ne_nil _ _)]
      simp [fieldSize, pretty, controlsInput, hzero, hone]
    unfold fieldSize
    dsimp only
    rw [zero_add, hpretty]
  unfold frame arrayFrame
  omega

/-- The source that is cut takes at least its text. -/
theorem room_controls (cap : ℕ) : fixedBytes (controlsInput cap) controlsTask + 603 ≤
    promptBytes (controlsInput cap) controlsTask (setCandidate .empty (cut (contextCandidate controls) 97)) := by
  obtain ⟨n, hn⟩ := contextSize_eq
    ⟨controls.id, controls.ordinal, controls.label, controls.content_hash, controls.resolved_content, false⟩
  have hsize := hn (JsonPretty.start 97 controls.resolved_content ++ marker controls.id) true
  rw [textSize_cut (by omega)] at hsize
  have hframe := frame_controls cap
  unfold fixedBytes
  rw [promptBytes_eq, promptBytes_eq]
  have hset : setCandidate .empty (cut (contextCandidate controls) 97) =
      ⟨OrdMap.empty.set controls.id ⟨controls.id, controls.ordinal, controls.label, controls.content_hash,
        JsonPretty.start 97 controls.resolved_content ++ marker controls.id, true⟩, OrdMap.empty⟩ := rfl
  rw [hset]
  dsimp only
  rw [OrdMap.values_set_of_none _ (OrdMap.get?_empty _)]
  simp only [Selected.empty, OrdMap.values, OrdMap.empty, List.map_nil, List.nil_append, List.length_nil,
    List.length_singleton, List.sum_nil, List.map_cons, List.sum_cons, hsize]
  omega

theorem validateScope_controls (cap : ℕ) : validateScope (controlsInput cap) = .ok () := rfl

theorem fits_controls :
    Fits (controlsInput controlsCap) controlsTask .empty (cut (contextCandidate controls) 97) :=
  maxPromptBytes_controls.ge

theorem fixed_controls :
    (fixedBytes (controlsInput controlsCap) controlsTask : ℤ) ≤ maxPromptBytes (controlsInput controlsCap) := by
  have hroom := room_controls controlsCap
  rw [maxPromptBytes_controls]
  exact_mod_cast Nat.le_of_add_right_le hroom

theorem whole_controls :
    ¬ Fits (controlsInput controlsCap) controlsTask .empty (whole (contextCandidate controls)) := by
  obtain ⟨n, hn⟩ := promptBytes_setCandidate (controlsInput controlsCap) controlsTask
    (s := .empty) (v := contextCandidate controls) rfl
  have hcut := hn (JsonPretty.start 97 controls.resolved_content ++ marker controls.id) true
  have hwhole := hn controls.resolved_content false
  rw [textSize_cut (by omega)] at hcut
  rw [textSize_whole] at hwhole
  intro hfits
  have hle : promptBytes (controlsInput controlsCap) controlsTask (setCandidate .empty (whole (contextCandidate controls))) ≤
      promptBytes (controlsInput controlsCap) controlsTask (setCandidate .empty (cut (contextCandidate controls) 97)) := by
    have hfits' := hfits.trans_eq maxPromptBytes_controls
    exact_mod_cast hfits'
  have hlt := (hwhole.symm.trans_le hle).trans_eq hcut
  omega

/-- The notes are cut before their last characters. -/
theorem cut_controls {bound : ℕ} (hbound : 111 ≤ bound) : ∃ k < 97,
    look (select (controlsInput controlsCap) controlsTask bound (candidates (controlsInput controlsCap)))
      (contextCandidate controls) = some (cut (contextCandidate controls) k) := by
  have hchosen := (built_manifest _ controlsTask (validateScope_controls controlsCap) fixed_controls bound).chosen []
    (contextCandidate controls) [] rfl
  have hcount : count controls.resolved_content = 100 := by
    unfold count controls
    rw [characters_replicate, List.length_replicate]
  have hbytes : byteLength controls.resolved_content = 100 := byteLength_replicate 100
  generalize look (select (controlsInput controlsCap) controlsTask bound (candidates (controlsInput controlsCap)))
    (contextCandidate controls) = found at hchosen ⊢
  cases hchosen with
  | omitted longest =>
    have htry : Try (contextCandidate controls) bound 1 := by
      have hsize : cutSize controls.resolved_content controls.id 1 = 15 := cutSize_controls (by omega)
      have hshort : 15 < byteLength controls.resolved_content := by
        rw [hbytes]
        omega
      have hstart : 1 ≤ count controls.resolved_content := by
        rw [hcount]
        omega
      exact ⟨Nat.one_pos, hstart, hsize.trans_lt hshort, hsize.trans_le (by omega)⟩
    exact absurd (Fits.mono _ _ rfl (by omega) fits_controls) (longest 1 htry)
  | whole fits => exact absurd fits whole_controls
  | cut k tried fits longest =>
    refine ⟨k, ?_, rfl⟩
    have hstart : k ≤ 100 := hcount ▸ tried.start
    have hshorter : cutSize controls.resolved_content controls.id k < byteLength controls.resolved_content := tried.shorter
    rw [cutSize_controls hstart, hbytes] at hshorter
    omega

/-- **A longer start fits** though it is not tried: with its marker it is longer than the source, yet it takes fewer bytes
in the record. -/
theorem longer_start_fits :
    (∃ p, buildStructuredPrompt (controlsInput controlsCap) controlsTask (fun n => n * 34 / 100) = .ok p) ∧
      ¬ LongestThatFits (controlsInput controlsCap) controlsTask
        (maxSourceBytes (controlsInput controlsCap) controlsTask fun n => n * 34 / 100) := by
  have hroom := room_controls controlsCap
  have hlarge : 111 ≤ maxSourceBytes (controlsInput controlsCap) controlsTask fun n => n * 34 / 100 := by
    have hdiff := Nat.le_sub_of_add_le' hroom
    unfold maxSourceBytes
    rw [maxPromptBytes_controls, Int.toNat_natCast]
    dsimp only
    generalize promptBytes _ _ _ - _ = d at hdiff ⊢
    omega
  have hpos : 0 < maxPromptBytes (controlsInput controlsCap) := by
    rw [maxPromptBytes_controls]
    generalize promptBytes _ _ (setCandidate _ _) = bytes at hroom ⊢
    omega
  refine ⟨⟨_, buildStructuredPrompt_ok _ _ (validateScope_controls controlsCap) hpos fixed_controls _⟩, fun hlongest => ?_⟩
  obtain ⟨k, hk, hlook⟩ := cut_controls hlarge
  have hcount : 97 ≤ count controls.resolved_content := by
    unfold count controls
    rw [characters_replicate, List.length_replicate]
    omega
  refine hlongest [] _ [] k rfl hlook 97 hk hcount ?_ fits_controls
  exact (cutSize_controls (by omega)).trans_le hlarge

end Norns.Debates.PromptBudget
