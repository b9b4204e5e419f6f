import Norns.Lib.Sort
import Norns.Execution.TaskContext

/-! # What a briefing keeps

The two trims of `execution/taskContextAssembler.ts` and the assembler around them.

* `Drops`: some drops in turn, `core`: what is never dropped;
* `Kept`: what some drops keep, and in which order they go;
* `Renders`: what the trims need of their sections, `renders_all` and `renders_frozen`;
* `trimWith_law`: a trim keeps to the cap with as few drops as possible, and refuses when the core is over it;
* `assembler_meets`: both trims, the order of the facts, and the total of the references. -/

namespace Norns.Execution.Briefing

open Norns.Lib Norns.Lib.JsonText Norns.Lib.Utf8 Norns.Execution.TaskContext

/-! ### Drops -/

/-- `n` drops in turn. -/
inductive Drops : ℕ → ContextModel → ContextModel → Prop
  | refl {m : ContextModel} : Drops 0 m m
  | step {n : ℕ} {m dropped m' : ContextModel} (h : dropLowestValue m = some dropped) (hrest : Drops n dropped m') :
    Drops (n + 1) m m'

/-- Everything that is never dropped. -/
def core (m : ContextModel) : ContextModel :=
  { m with memory := [], dependencies := [], dependenciesCompact := true, facts := m.facts.filter RepositoryFact.policy }

def otherFacts (m : ContextModel) : List RepositoryFact := m.facts.filter fun fact => !fact.policy

/-- What some drops keep: the end of each list, and nothing of a list is dropped before the lists in front of it. -/
structure Kept (m m' : ContextModel) : Prop where
  core_eq : core m' = core m
  memory : m'.memory <:+ m.memory
  dependencies : m'.dependencies <:+ m.dependencies
  others : otherFacts m' <:+ otherFacts m
  compact : m.dependenciesCompact = true → m'.dependenciesCompact = true
  compactLast : m'.dependenciesCompact ≠ m.dependenciesCompact → m'.memory = []
  dependenciesLast : m'.dependencies ≠ m.dependencies → m'.memory = [] ∧ m'.dependenciesCompact = true
  factsLast : m'.facts ≠ m.facts → m'.memory = [] ∧ m'.dependencies = []

theorem Kept.refl (m : ContextModel) : Kept m m :=
  ⟨rfl, List.suffix_rfl, List.suffix_rfl, List.suffix_rfl, id, fun h => absurd rfl h, fun h => absurd rfl h,
    fun h => absurd rfl h⟩

/-- The first fact that is no policy goes. -/
theorem spliceFirst_cases {facts rest : List RepositoryFact} (h : spliceFirst (fun fact => !fact.policy) facts = some rest) :
    rest.filter RepositoryFact.policy = facts.filter RepositoryFact.policy ∧
      ∃ fact, facts.filter (fun fact => !fact.policy) = fact :: rest.filter fun fact => !fact.policy := by
  induction facts generalizing rest with
  | nil => cases h
  | cons fact facts ih =>
    unfold spliceFirst at h
    cases hpolicy : fact.policy with
    | false =>
      rw [hpolicy, if_pos Bool.not_false] at h
      obtain rfl := Option.some.inj h
      refine ⟨?_, fact, ?_⟩
      · rw [List.filter_cons_of_neg (by simp [hpolicy])]
      · rw [List.filter_cons_of_pos (by simp [hpolicy])]
    | true =>
      rw [hpolicy, if_neg (by simp)] at h
      obtain ⟨rest', hrest, rfl⟩ := Option.map_eq_some_iff.mp h
      obtain ⟨hkept, first, hfirst⟩ := ih hrest
      refine ⟨?_, first, ?_⟩
      · rw [List.filter_cons_of_pos hpolicy, List.filter_cons_of_pos hpolicy, hkept]
      · rw [List.filter_cons_of_neg (by simp [hpolicy]), List.filter_cons_of_neg (by simp [hpolicy]), hfirst]

theorem spliceFirst_eq_none {facts : List RepositoryFact} (h : spliceFirst (fun fact => !fact.policy) facts = none) :
    facts.filter RepositoryFact.policy = facts := by
  induction facts with
  | nil => rfl
  | cons fact facts ih =>
    unfold spliceFirst at h
    cases hpolicy : fact.policy with
    | false =>
      rw [hpolicy, if_pos Bool.not_false] at h
      cases h
    | true =>
      rw [hpolicy, if_neg (by simp)] at h
      rw [List.filter_cons_of_pos hpolicy, ih (Option.map_eq_none_iff.mp h)]

/-- What one drop can be. -/
inductive Drop (m : ContextModel) : ContextModel → Prop
  | memory {item : MemoryItem} {memory : List MemoryItem} (h : m.memory = item :: memory) : Drop m { m with memory }
  | compact (hmemory : m.memory = []) (hcompact : m.dependenciesCompact = false) :
    Drop m { m with dependenciesCompact := true }
  | dependency {dependency : DependencyOutcome} {dependencies : List DependencyOutcome} (hmemory : m.memory = [])
    (hcompact : m.dependenciesCompact = true) (h : m.dependencies = dependency :: dependencies) :
    Drop m { m with dependencies }
  | fact {facts : List RepositoryFact} (hmemory : m.memory = []) (hdependencies : m.dependencies = [])
    (h : spliceFirst (fun fact => !fact.policy) m.facts = some facts) : Drop m { m with facts }

theorem drop_cases {m dropped : ContextModel} (h : dropLowestValue m = some dropped) : Drop m dropped := by
  unfold dropLowestValue at h
  split at h
  · rename_i item memory hmemory
    obtain rfl := Option.some.inj h
    exact .memory hmemory
  · rename_i hmemory
    split at h
    · rename_i dependency dependencies hdependencies
      split_ifs at h with hcompact
      · obtain rfl := Option.some.inj h
        exact .dependency hmemory hcompact hdependencies
      · obtain rfl := Option.some.inj h
        exact .compact hmemory (Bool.eq_false_iff.mpr hcompact)
    · rename_i hdependencies
      obtain ⟨facts, hfacts, rfl⟩ := Option.map_eq_some_iff.mp h
      exact .fact hmemory hdependencies hfacts

/-- When nothing can be dropped, only the core is left. -/
theorem stuck_cases {m : ContextModel} (h : dropLowestValue m = none) :
    m.memory = [] ∧ m.dependencies = [] ∧ m.facts.filter RepositoryFact.policy = m.facts := by
  unfold dropLowestValue at h
  split at h
  · cases h
  · rename_i hmemory
    split at h
    · split_ifs at h
    · rename_i hdependencies
      exact ⟨hmemory, hdependencies, spliceFirst_eq_none (Option.map_eq_none_iff.mp h)⟩

theorem eq_nil_of_suffix {α : Type} {l l' : List α} (h : l' <:+ l) (hl : l = []) : l' = [] := by
  rw [hl] at h
  exact List.suffix_nil.mp h

/-- **One more drop in front**: what is kept of the rest is kept of the whole. -/
theorem Kept.of_drop {m dropped m' : ContextModel} (hdrop : Drop m dropped) (h : Kept dropped m') : Kept m m' := by
  cases hdrop with
  | memory hm =>
    exact ⟨h.core_eq, h.memory.trans (hm ▸ List.suffix_cons _ _), h.dependencies, h.others, h.compact, h.compactLast,
      h.dependenciesLast, h.factsLast⟩
  | compact hmemory hcompact =>
    have hnil : m'.memory = [] := eq_nil_of_suffix h.memory hmemory
    exact ⟨h.core_eq, h.memory, h.dependencies, h.others, fun _ => h.compact rfl, fun _ => hnil, h.dependenciesLast,
      h.factsLast⟩
  | dependency hmemory hcompact hm =>
    have hnil : m'.memory = [] := eq_nil_of_suffix h.memory hmemory
    exact ⟨h.core_eq, h.memory, h.dependencies.trans (hm ▸ List.suffix_cons _ _), h.others, h.compact, h.compactLast,
      fun _ => ⟨hnil, h.compact hcompact⟩, h.factsLast⟩
  | fact hmemory hdependencies hm =>
    have hnil : m'.memory = [] := eq_nil_of_suffix h.memory hmemory
    have hnone : m'.dependencies = [] := eq_nil_of_suffix h.dependencies hdependencies
    obtain ⟨hpolicy, first, hfirst⟩ := spliceFirst_cases hm
    refine ⟨h.core_eq.trans ?_, h.memory, h.dependencies, h.others.trans ?_, h.compact, h.compactLast,
      h.dependenciesLast, fun _ => ⟨hnil, hnone⟩⟩
    · unfold core
      rw [hpolicy]
    · unfold otherFacts
      rw [hfirst]
      exact List.suffix_cons _ _

theorem Drops.kept {n : ℕ} {m m' : ContextModel} (h : Drops n m m') : Kept m m' := by
  induction h with
  | refl => exact Kept.refl _
  | step h _ ih => exact Kept.of_drop (drop_cases h) ih

/-! ### Trims -/

/-- What a trim should return. -/
structure Law (render : ContextModel → List RenderedSection) (cap : ℤ) (m : ContextModel)
    (result : Except AssemblyError (List RenderedSection)) : Prop where
  /-- As few drops as possible, in their order. -/
  fits : ∀ sections, result = .ok sections → (totalBytes sections : ℤ) ≤ cap ∧
    ∃ n m', Drops n m m' ∧ Kept m m' ∧ sections = render m' ∧
      ∀ k < n, ∀ m'', Drops k m m'' → cap < totalBytes (render m'')
  /-- The sections of the core are there, and the architecture and the policy facts. -/
  kept : ∀ sections, result = .ok sections → (∀ s ∈ render (core m), s.name ≠ .repository → s ∈ sections) ∧
    ∃ lines, ⟨.repository, joinLines (architectureLines m ++ lines ++ boundaryLines m) ++ [unit '\n']⟩ ∈ sections
  refused : ∀ e, result = .error e → e.isTooLarge = true
  refused_iff : (∃ e, result = .error e) ↔ cap < totalBytes (render (core m))

/-- What a trim needs of its sections. -/
structure Renders (render : ContextModel → List RenderedSection) : Prop where
  core_le : ∀ m, totalBytes (render (core m)) ≤ totalBytes (render m)
  stuck : ∀ m, dropLowestValue m = none → render (core m) = render m
  kept : ∀ m, ∀ s ∈ render (core m), s.name ≠ .repository → s ∈ render m
  repository : ∀ m, ∃ lines,
    ⟨.repository, joinLines (architectureLines m ++ lines ++ boundaryLines m) ++ [unit '\n']⟩ ∈ render m

section

variable {render : ContextModel → List RenderedSection} {m : ContextModel}

/-- What a model has in common with its core. -/
theorem architectureLines_core {m m' : ContextModel} (h : core m' = core m) :
    architectureLines m' = architectureLines m ∧ boundaryLines m' = boundaryLines m := by
  have harchitecture : ∀ m, architectureLines (core m) = architectureLines m := by
    intro m
    unfold architectureLines core
    simp only [List.filter_filter, Bool.and_self]
  have hboundary : ∀ m, boundaryLines (core m) = boundaryLines m := fun _ => rfl
  refine ⟨?_, ?_⟩
  · rw [← harchitecture, h, harchitecture]
  · rw [← hboundary, h, hboundary]

/-- **A trim**: the first sections that fit, and a refusal when the core does not. -/
theorem trimWith_law (hrender : Renders render) {refuse : ContextModel → AssemblyError}
    (hrefuse : ∀ m, (refuse m).isTooLarge = true) (cap : ℤ) (m : ContextModel) :
    Law render cap m (trimWith render refuse cap m) := by
  induction m using trimWith.induct render cap with
  | case1 m hfits =>
    rw [trimWith, if_pos hfits]
    refine ⟨?_, ?_, ?_, ?_⟩
    · intro sections hok
      obtain rfl := Except.ok.inj hok
      exact ⟨hfits, 0, m, .refl, Kept.refl m, rfl, fun k hk => absurd hk (Nat.not_lt_zero k)⟩
    · intro sections hok
      obtain rfl := Except.ok.inj hok
      exact ⟨hrender.kept m, hrender.repository m⟩
    · intro e herror
      cases herror
    · have hcore := hrender.core_le m
      constructor
      · rintro ⟨e, herror⟩
        cases herror
      · intro hlt
        omega
  | case2 m hover hstuck =>
    have hresult : trimWith render refuse cap m = .error (refuse m) := by
      rw [trimWith, if_neg hover]
      split
      · rfl
      · rename_i hsome
        rw [hstuck] at hsome
        cases hsome
    rw [hresult]
    refine ⟨?_, ?_, ?_, ?_⟩
    · intro sections hok
      cases hok
    · intro sections hok
      cases hok
    · intro e herror
      obtain rfl := Except.error.inj herror
      exact hrefuse m
    · rw [hrender.stuck m hstuck]
      exact ⟨fun _ => not_le.mp hover, fun _ => ⟨_, rfl⟩⟩
  | case3 m hover dropped hdropped ih =>
    have hresult : trimWith render refuse cap m = trimWith render refuse cap dropped := by
      rw [trimWith, if_neg hover]
      split
      · rename_i hnone
        rw [hdropped] at hnone
        cases hnone
      · rename_i dropped' hsome
        rw [hdropped] at hsome
        obtain rfl := Option.some.inj hsome
        rfl
    have hkept := Kept.of_drop (drop_cases hdropped) (Kept.refl dropped)
    rw [hresult]
    refine ⟨?_, ?_, ih.refused, ?_⟩
    · intro sections hok
      obtain ⟨hcap, n, m', hdrops, hkept', hsections, hleast⟩ := ih.fits sections hok
      refine ⟨hcap, n + 1, m', .step hdropped hdrops, Kept.of_drop (drop_cases hdropped) hkept', hsections, ?_⟩
      intro k hk m'' hm''
      cases hm'' with
      | refl => exact not_le.mp hover
      | step hstep hrest =>
        rw [hdropped] at hstep
        obtain rfl := Option.some.inj hstep
        exact hleast _ (Nat.lt_of_succ_lt_succ hk) m'' hrest
    · intro sections hok
      obtain ⟨hsections, lines, hlines⟩ := ih.kept sections hok
      rw [hkept.core_eq] at hsections
      rw [(architectureLines_core hkept.core_eq).1, (architectureLines_core hkept.core_eq).2] at hlines
      exact ⟨hsections, lines, hlines⟩
    · rw [ih.refused_iff, hkept.core_eq]

end

/-! ### The sections -/

theorem totalBytes_append (xs ys : List RenderedSection) : totalBytes (xs ++ ys) = totalBytes xs + totalBytes ys := by
  unfold totalBytes
  rw [List.map_append, List.sum_append]

theorem totalBytes_ofText (name : SectionName) (text : Text) : totalBytes (ofText name text) = byteLength text + 1 := by
  unfold totalBytes ofText
  rw [List.map_singleton, List.sum_singleton, byteLength_line]
  rfl

/-- The lines of the other facts. -/
def factLines (m : ContextModel) : List Text :=
  if otherFacts m = [] then [] else
    [[], units "### Repository facts", [], bullets ((otherFacts m).map fun f => f.key ++ units ": " ++ f.value)]

theorem renderRepository_eq (m : ContextModel) :
    renderRepository m = joinLines (architectureLines m ++ factLines m ++ boundaryLines m) := rfl

theorem otherFacts_core (m : ContextModel) : otherFacts (core m) = [] := by
  unfold otherFacts core
  rw [List.filter_filter, List.filter_eq_nil_iff]
  intro fact _
  simp

/-- The repository of the core has the same lines without the other facts. -/
theorem renderRepository_core (m : ContextModel) :
    renderRepository (core m) = joinLines (architectureLines m ++ boundaryLines m) := by
  have hcore : core (core m) = core m := by
    unfold core
    simp only [List.filter_filter, Bool.and_self]
  rw [renderRepository_eq, (architectureLines_core hcore).1, (architectureLines_core hcore).2]
  unfold factLines
  rw [if_pos (otherFacts_core m), List.append_nil]

theorem repository_core_le (m : ContextModel) :
    byteLength (renderRepository (core m)) ≤ byteLength (renderRepository m) := by
  have hne : ∀ lines, architectureLines m ++ lines ≠ [] := fun lines => List.append_ne_nil_of_left_ne_nil (List.cons_ne_nil _ _) _
  have hcore := byteLength_lines (architectureLines m ++ boundaryLines m) (hne _)
  have hmodel := byteLength_lines (architectureLines m ++ factLines m ++ boundaryLines m) (by
    rw [List.append_assoc]
    exact hne _)
  rw [List.map_append, List.sum_append] at hcore hmodel
  rw [List.map_append, List.sum_append] at hmodel
  rw [renderRepository_core, renderRepository_eq]
  unfold joinLines
  omega

theorem totalBytes_repository_le (m : ContextModel) :
    totalBytes (ofText .repository (renderRepository (core m))) ≤ totalBytes (ofText .repository (renderRepository m)) := by
  rw [totalBytes_ofText, totalBytes_ofText]
  exact Nat.add_le_add_right (repository_core_le m) 1

theorem renderDependencies_core (m : ContextModel) : renderDependencies (core m) = none := if_pos rfl

theorem renderMemory_core (m : ContextModel) : renderMemory (core m) = none := if_pos rfl

theorem mem_repository (m : ContextModel) : ∃ lines,
    ⟨.repository, joinLines (architectureLines m ++ lines ++ boundaryLines m) ++ [unit '\n']⟩ ∈
      ofText .repository (renderRepository m) := ⟨factLines m, List.mem_singleton_self _⟩

/-- The sections of the core, with the one of the repository. -/
theorem renderAll_core (m : ContextModel) : renderAll (core m) =
    ofText .mission (renderMission m) ++ ofText .objective (renderObjective m) ++ ofText .task (renderTask m) ++
      ofOption .ponytail (renderPonytail m) ++ ofOption .knowledge m.knowledge ++
      ofText .repository (renderRepository (core m)) ++ ofOption .directives (renderDirectives m) := by
  have hcore : renderAll (core m) =
      ofText .mission (renderMission m) ++ ofText .objective (renderObjective m) ++ ofText .task (renderTask m) ++
        ofOption .ponytail (renderPonytail m) ++ ofOption .knowledge m.knowledge ++
        ofOption .dependencies (renderDependencies (core m)) ++ ofText .repository (renderRepository (core m)) ++
        ofOption .directives (renderDirectives m) ++ ofOption .memory (renderMemory (core m)) := rfl
  rw [hcore, renderDependencies_core, renderMemory_core]
  simp [ofOption]

theorem renderFrozen_core (canonicalPackage : Text) (m : ContextModel) : renderFrozen canonicalPackage (core m) =
    ofText .mission (renderMission m) ++ [⟨.approved_task_package, canonicalPackage⟩] ++
      ofOption .ponytail (renderPonytail m) ++ ofText .repository (renderRepository (core m)) := by
  have hcore : renderFrozen canonicalPackage (core m) =
      ofText .mission (renderMission m) ++ [⟨.approved_task_package, canonicalPackage⟩] ++
        ofOption .ponytail (renderPonytail m) ++ ofOption .dependencies (renderDependencies (core m)) ++
        ofText .repository (renderRepository (core m)) := rfl
  rw [hcore, renderDependencies_core]
  simp [ofOption]

/-- A stuck model is its core, but for a flag that is not read. -/
theorem renderRepository_stuck {m : ContextModel} (h : dropLowestValue m = none) :
    renderRepository (core m) = renderRepository m ∧ renderDependencies m = none ∧ renderMemory m = none := by
  obtain ⟨hmemory, hdependencies, hfacts⟩ := stuck_cases h
  have hothers : otherFacts m = [] := by
    unfold otherFacts
    rw [← hfacts]
    exact otherFacts_core m
  refine ⟨?_, if_pos hdependencies, if_pos hmemory⟩
  rw [renderRepository_core, renderRepository_eq]
  unfold factLines
  rw [if_pos hothers, List.append_nil]

theorem renders_all : Renders renderAll where
  core_le m := by
    have hrepository := totalBytes_repository_le m
    rw [renderAll_core]
    unfold renderAll
    simp only [totalBytes_append]
    exact Nat.le_add_right_of_le (Nat.add_le_add_right (Nat.add_le_add (Nat.le_add_right _ _) hrepository) _)
  stuck m h := by
    obtain ⟨hrepository, hdependencies, hmemory⟩ := renderRepository_stuck h
    rw [renderAll_core, hrepository]
    unfold renderAll
    rw [hdependencies, hmemory]
    simp [ofOption]
  kept m s hs hname := by
    rw [renderAll_core] at hs
    unfold renderAll
    have hrepository : s ∉ ofText .repository (renderRepository (core m)) := by
      intro hmem
      rw [List.mem_singleton.mp hmem] at hname
      exact hname rfl
    simp only [List.mem_append] at hs ⊢
    tauto
  repository m := by
    obtain ⟨lines, hmem⟩ := mem_repository m
    exact ⟨lines, List.mem_append_left _ (List.mem_append_left _ (List.mem_append_right _ hmem))⟩

theorem renders_frozen (canonicalPackage : Text) : Renders (renderFrozen canonicalPackage) where
  core_le m := by
    have hrepository := totalBytes_repository_le m
    rw [renderFrozen_core]
    unfold renderFrozen
    simp only [totalBytes_append]
    exact Nat.add_le_add (Nat.le_add_right _ _) hrepository
  stuck m h := by
    obtain ⟨hrepository, hdependencies, -⟩ := renderRepository_stuck h
    rw [renderFrozen_core, hrepository]
    unfold renderFrozen
    rw [hdependencies]
    simp [ofOption]
  kept m s hs hname := by
    rw [renderFrozen_core] at hs
    unfold renderFrozen
    have hrepository : s ∉ ofText .repository (renderRepository (core m)) := by
      intro hmem
      rw [List.mem_singleton.mp hmem] at hname
      exact hname rfl
    simp only [List.mem_append] at hs ⊢
    tauto
  repository m := by
    obtain ⟨lines, hmem⟩ := mem_repository m
    exact ⟨lines, List.mem_append_right _ hmem⟩

/-! ### The order of the facts -/

/-- Facts that are no policy come first, the least confident one in front. -/
def Before (f g : RepositoryFact) : Prop :=
  (f.policy = true → g.policy = true) ∧ (f.policy = g.policy → f.confidence ≤ g.confidence)

theorem before_of_compare (localeCompare : Text → Text → Ordering) (f g : RepositoryFact) :
    (compareFacts localeCompare f g ≠ .gt → Before f g) ∧ (compareFacts localeCompare f g = .gt → Before g f) := by
  unfold compareFacts Before
  by_cases hpolicy : f.policy = g.policy
  · rw [if_neg (not_not.mpr hpolicy)]
    by_cases hconfidence : f.confidence = g.confidence
    · rw [if_neg (not_not.mpr hconfidence)]
      exact ⟨fun _ => ⟨fun h => hpolicy ▸ h, fun _ => hconfidence.le⟩,
        fun _ => ⟨fun h => hpolicy.symm ▸ h, fun _ => hconfidence.ge⟩⟩
    · rw [if_pos hconfidence]
      split_ifs with hlt
      · exact ⟨fun _ => ⟨fun h => hpolicy ▸ h, fun _ => hlt.le⟩, fun h => by cases h⟩
      · exact ⟨fun h => absurd rfl h, fun _ => ⟨fun h => hpolicy.symm ▸ h, fun _ => not_lt.mp hlt⟩⟩
  · rw [if_pos hpolicy]
    cases hf : f.policy <;> cases hg : g.policy <;> simp_all

theorem gatherFacts_sorted (localeCompare : Text → Text → Ordering) (rows : List FactRow) :
    (gatherFacts localeCompare rows).Pairwise Before := by
  refine pairwise_insertionSort (fun f g h => (before_of_compare localeCompare f g).1 h)
    (fun f g h => (before_of_compare localeCompare f g).2 (not_not.mp h)) ?_ _
  rintro f g h ⟨hfg, hfg'⟩ ⟨hgh, hgh'⟩
  refine ⟨fun hf => hgh (hfg hf), fun heq => ?_⟩
  cases hf : f.policy <;> cases hg : g.policy <;> cases hh : h.policy <;> simp_all
  all_goals exact hfg'.trans hgh'

/-- **Confidence**: what is dropped of the other facts is not more confident than what is kept. -/
theorem dropped_confidence (localeCompare : Text → Text → Ordering) (rows : Rows) (frozen : Bool) {m' : ContextModel}
    (h : Kept (gather localeCompare rows frozen) m') :
    ∃ dropped, otherFacts (gather localeCompare rows frozen) = dropped ++ otherFacts m' ∧
      ∀ f ∈ dropped, ∀ g ∈ otherFacts m', f.confidence ≤ g.confidence := by
  obtain ⟨dropped, heq⟩ := h.others
  refine ⟨dropped, heq.symm, fun f hf g hg => ?_⟩
  have hfacts : (gather localeCompare rows frozen).facts = gatherFacts localeCompare rows.facts := by
    unfold gather
    cases frozen <;> rfl
  have hsorted : (otherFacts (gather localeCompare rows frozen)).Pairwise Before := by
    unfold otherFacts
    rw [hfacts]
    exact (gatherFacts_sorted localeCompare rows.facts).filter _
  have hother : ∀ f ∈ otherFacts (gather localeCompare rows frozen), f.policy = false := by
    intro f hf
    simpa using (List.mem_filter.mp hf).2
  rw [← heq] at hsorted hother
  have hbefore := (List.pairwise_append.mp hsorted).2.2 f hf g hg
  refine hbefore.2 ?_
  rw [hother f (List.mem_append_left _ hf), hother g (List.mem_append_right _ hg)]

/-! ### The references -/

section

variable (digest : List UInt8 → Text) (documentId : SectionName → Text → Text) (baseUrl : Text)

theorem put_cases (s : RenderedSection) :
    (∃ e, put digest documentId baseUrl s = .error e ∧ e.isTooLarge = false) ∨
      ∃ stored, put digest documentId baseUrl s = .ok stored ∧ stored.byte_size = byteLength s.content := by
  unfold put
  split_ifs
  · exact Or.inl ⟨_, rfl, rfl⟩
  · exact Or.inr ⟨_, rfl, rfl⟩

theorem checkPackage_cases (taskId : Text) (s : RenderedSection) (stored : Reference) (package : Option FrozenPackage) :
    (∃ e, checkPackage taskId s stored package = .error e ∧ e.isTooLarge = false) ∨
      checkPackage taskId s stored package = .ok () := by
  unfold checkPackage
  split
  · exact Or.inr rfl
  · split_ifs
    · exact Or.inl ⟨_, rfl, rfl⟩
    · exact Or.inr rfl

/-- The references have the sizes of the sections, and what is thrown is no refusal of their size. -/
theorem putAll_cases (taskId : Text) (package : Option FrozenPackage) (sections : List RenderedSection) :
    (∃ e, putAll digest documentId baseUrl taskId package sections = .error e ∧ e.isTooLarge = false) ∨
      ∃ refs, putAll digest documentId baseUrl taskId package sections = .ok refs ∧
        (refs.map Reference.byte_size).sum = totalBytes sections := by
  induction sections with
  | nil => exact Or.inr ⟨[], rfl, rfl⟩
  | cons s sections ih =>
    unfold putAll
    rcases put_cases digest documentId baseUrl s with ⟨e, hput, he⟩ | ⟨stored, hput, hsize⟩
    · rw [hput]
      exact Or.inl ⟨e, rfl, he⟩
    · rw [hput]
      dsimp only [bind, Except.bind]
      rcases checkPackage_cases taskId s stored package with ⟨e, hcheck, he⟩ | hcheck
      · rw [hcheck]
        exact Or.inl ⟨e, rfl, he⟩
      · rw [hcheck]
        dsimp only
        rcases ih with ⟨e, hrest, he⟩ | ⟨refs, hrest, hsum⟩
        · rw [hrest]
          exact Or.inl ⟨e, rfl, he⟩
        · rw [hrest]
          refine Or.inr ⟨stored :: refs, rfl, ?_⟩
          rw [List.map_cons, List.sum_cons, hsum, hsize]
          rfl

variable (localeCompare : Text → Text → Ordering)

/-- The bytes that a task cannot do without: the core of its sections, and what is added to a frozen package. -/
def leastBytes (rows : Rows) : Option Frozen → ℕ
  | none => totalBytes (renderAll (core (gather localeCompare rows false)))
  | some frozen =>
    totalBytes (renderFrozen frozen.package.canonical_package (core (gather localeCompare rows true))) + addendaBytes frozen

/-- What the assembler should do, for all tasks. -/
structure Meets : Prop where
  trim : ∀ model cap, Law renderAll cap model (trimToCap model cap)
  frozen : ∀ model canonicalPackage cap,
    Law (renderFrozen canonicalPackage) cap model (trimFrozenPackageContext model canonicalPackage cap)
  confidence : ∀ rows frozen m', Kept (gather localeCompare rows frozen) m' →
    ∃ dropped, otherFacts (gather localeCompare rows frozen) = dropped ++ otherFacts m' ∧
      ∀ f ∈ dropped, ∀ g ∈ otherFacts m', f.confidence ≤ g.confidence
  total : ∀ maxTotalBytes rows frozen refs,
    assembleForTask digest documentId baseUrl localeCompare maxTotalBytes rows frozen = .ok refs →
      (refs.map Reference.byte_size).sum ≤ maxTotalBytes
  refused : ∀ maxTotalBytes rows frozen,
    (∃ e, assembleForTask digest documentId baseUrl localeCompare maxTotalBytes rows frozen = .error e ∧
      e.isTooLarge = true) ↔ maxTotalBytes < leastBytes localeCompare rows frozen

theorem trimToCap_law (model : ContextModel) (cap : ℤ) : Law renderAll cap model (trimToCap model cap) :=
  trimWith_law renders_all (fun _ => rfl) cap model

theorem trimFrozen_law (model : ContextModel) (canonicalPackage : Text) (cap : ℤ) :
    Law (renderFrozen canonicalPackage) cap model (trimFrozenPackageContext model canonicalPackage cap) :=
  trimWith_law (renders_frozen canonicalPackage) (fun _ => rfl) cap model

/-- A trim and the references to its sections. -/
theorem trim_put {render : ContextModel → List RenderedSection} {cap : ℤ} {model : ContextModel}
    {trimmed : Except AssemblyError (List RenderedSection)} (h : Law render cap model trimmed) (taskId : Text)
    (package : Option FrozenPackage) :
    (∃ e, (trimmed >>= putAll digest documentId baseUrl taskId package) = .error e ∧ (e.isTooLarge = true ↔
        cap < totalBytes (render (core model)))) ∨
      ∃ refs, (trimmed >>= putAll digest documentId baseUrl taskId package) = .ok refs ∧
        ((refs.map Reference.byte_size).sum : ℤ) ≤ cap ∧ ¬ cap < totalBytes (render (core model)) := by
  cases trimmed with
  | error e => exact Or.inl ⟨e, rfl, iff_of_true (h.refused e rfl) (h.refused_iff.mp ⟨e, rfl⟩)⟩
  | ok sections =>
    have hnot : ¬ cap < totalBytes (render (core model)) := by
      intro hlt
      obtain ⟨e, he⟩ := h.refused_iff.mpr hlt
      cases he
    rcases putAll_cases digest documentId baseUrl taskId package sections with ⟨e, hput, he⟩ | ⟨refs, hput, hsum⟩
    · exact Or.inl ⟨e, hput, iff_of_false (by simp [he]) hnot⟩
    · refine Or.inr ⟨refs, hput, ?_, hnot⟩
      have hcap := (h.fits sections rfl).1
      rw [← hsum] at hcap
      exact_mod_cast hcap

/-- The core of a frozen task has bytes. -/
theorem frozen_core_pos (canonicalPackage : Text) (model : ContextModel) :
    0 < totalBytes (renderFrozen canonicalPackage (core model)) := by
  rw [renderFrozen_core, totalBytes_append, totalBytes_append, totalBytes_append, totalBytes_ofText]
  exact Nat.add_pos_left (Nat.add_pos_left (Nat.add_pos_left (Nat.succ_pos _) _) _) _

theorem assemble_frozen {maxTotalBytes : ℕ} (rows : Rows) {frozen : Frozen} (h : addendaBytes frozen < maxTotalBytes) :
    assembleForTask digest documentId baseUrl localeCompare maxTotalBytes rows (some frozen) =
      ((trimFrozenPackageContext (gather localeCompare rows true) frozen.package.canonical_package
        (maxTotalBytes - addendaBytes frozen)) >>=
          putAll digest documentId baseUrl rows.others.task.id (some frozen.package)) >>= fun refs =>
            .ok (refs ++ frozen.mockupSupplements ++ frozen.steering.toList) := by
  unfold assembleForTask
  dsimp only
  rw [if_neg (not_le.mpr h), bind_assoc]
  rfl

/-- The references that are added have the bytes of the addenda. -/
theorem sum_addenda (refs : List Reference) (frozen : Frozen) :
    ((refs ++ frozen.mockupSupplements ++ frozen.steering.toList).map Reference.byte_size).sum =
      (refs.map Reference.byte_size).sum + addendaBytes frozen := by
  unfold addendaBytes
  rcases frozen.steering with _ | steering
  · simp
  · simp
    omega

/-- **One assembly**: what is returned is within the limit, and it is refused for its size when the least is over it. -/
theorem assemble_cases (maxTotalBytes : ℕ) (rows : Rows) (frozen : Option Frozen) :
    (∃ e, assembleForTask digest documentId baseUrl localeCompare maxTotalBytes rows frozen = .error e ∧
        (e.isTooLarge = true ↔ maxTotalBytes < leastBytes localeCompare rows frozen)) ∨
      ∃ refs, assembleForTask digest documentId baseUrl localeCompare maxTotalBytes rows frozen = .ok refs ∧
        (refs.map Reference.byte_size).sum ≤ maxTotalBytes ∧ ¬ maxTotalBytes < leastBytes localeCompare rows frozen := by
  cases frozen with
  | none =>
    rcases trim_put digest documentId baseUrl (trimToCap_law (gather localeCompare rows false) maxTotalBytes)
      rows.others.task.id none with ⟨e, herror, he⟩ | ⟨refs, hok, hsum, hnot⟩
    · exact Or.inl ⟨e, herror, he.trans Int.ofNat_lt⟩
    · exact Or.inr ⟨refs, hok, Int.ofNat_le.mp hsum, fun h => hnot (Int.ofNat_lt.mpr h)⟩
  | some frozen =>
    have hleast : leastBytes localeCompare rows (some frozen) =
      totalBytes (renderFrozen frozen.package.canonical_package (core (gather localeCompare rows true))) +
        addendaBytes frozen := rfl
    have hpos := frozen_core_pos frozen.package.canonical_package (gather localeCompare rows true)
    rw [hleast]
    generalize hbytes : totalBytes (renderFrozen frozen.package.canonical_package
      (core (gather localeCompare rows true))) = bytes at hpos ⊢
    by_cases hroom : addendaBytes frozen < maxTotalBytes
    · have hlaw := trimFrozen_law (gather localeCompare rows true) frozen.package.canonical_package
        (maxTotalBytes - addendaBytes frozen)
      rw [assemble_frozen digest documentId baseUrl localeCompare rows hroom]
      rcases trim_put digest documentId baseUrl hlaw rows.others.task.id (some frozen.package) with
        ⟨e, herror, he⟩ | ⟨refs, hok, hsum, hnot⟩
      · rw [herror]
        refine Or.inl ⟨e, rfl, he.trans ?_⟩
        rw [hbytes]
        omega
      · rw [hok]
        rw [hbytes] at hnot
        refine Or.inr ⟨_, rfl, ?_, by omega⟩
        rw [sum_addenda]
        omega
    · refine Or.inl ⟨_, if_pos (not_lt.mp hroom), iff_of_true rfl ?_⟩
      omega

/-- **The briefing of a task**: the trims keep to their cap and drop as little as they can, in order; they refuse exactly
when the core is too large; and the references are within the limit. -/
theorem assembler_meets : Meets digest documentId baseUrl localeCompare where
  trim := trimToCap_law
  frozen := trimFrozen_law
  confidence rows frozen m' h := dropped_confidence localeCompare rows frozen h
  total := by
    intro maxTotalBytes rows frozen refs hok
    rcases assemble_cases digest documentId baseUrl localeCompare maxTotalBytes rows frozen with
      ⟨e, herror, -⟩ | ⟨refs', hok', hsum, -⟩
    · rw [hok] at herror
      cases herror
    · rw [hok] at hok'
      obtain rfl := Except.ok.inj hok'
      exact hsum
  refused := by
    intro maxTotalBytes rows frozen
    rcases assemble_cases digest documentId baseUrl localeCompare maxTotalBytes rows frozen with
      ⟨e, herror, he⟩ | ⟨refs, hok, -, hnot⟩
    · constructor
      · rintro ⟨e', herror', he'⟩
        rw [herror] at herror'
        obtain rfl := Except.error.inj herror'
        exact he.mp he'
      · exact fun h => ⟨e, herror, he.mpr h⟩
    · refine iff_of_false ?_ hnot
      rintro ⟨e, herror, -⟩
      rw [hok] at herror
      cases herror

end

end Norns.Execution.Briefing
