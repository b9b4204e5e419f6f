import Mathlib.Data.List.Find
import Norns.Graph.Atomicity

/-! # What a removal removes

`removeNode` on a well-formed graph whose execution has not started. A cascade walks the dependents depth
first; each loop runs over the dependents its node had before, and a dependent that an earlier one has taken
along is no longer there when its turn comes.

* `Straight`: no walk to a node goes round it once it could go there at once;
* `cascade_sat_iff`: the cascade goes through if and only if the walks are straight, and then removes the cone;
* `reparentExact`: a reparent removes one node and keeps the order of the others. -/

namespace Norns.Graph.Removal

open Relation Norns.Lib Norns.Lib.Edit Norns.Lib.Cycle
open Norns.Contracts.Plan (PlanContract PlanModule Valid validatePlan validatePlan_valid)
open Norns.Graph.Workflow Norns.Graph.Workflow.WorkflowGraph Norns.Graph.Structure Norns.Graph.Atomicity

variable {g g' : WorkflowGraph} {id c d y z : String} {R : Set String} {done rest : List String}

/-! ### Walks -/

open Classical in
/-- On the way to `d`, the walk goes from `z` to its first dependent that is `d` or that `d` depends on. -/
def Leads (g : WorkflowGraph) (d z e : String) : Prop :=
  ((g.dependentsOf z).find? fun c => decide (d ∈ cone g c)) = some e

/-- On no walk to a node outside `R` is there another node before it that it directly depends on. -/
def Straight (g : WorkflowGraph) (R : Set String) (id : String) : Prop :=
  ∀ d, d ∉ R → ∀ z, ReflTransGen (Leads g d) id z → d ∈ g.dependentsOf z → Leads g d z d

/-- What is gone once the cones of `done` are removed as well. -/
def gone (g : WorkflowGraph) (R : Set String) (done : List String) : Set String :=
  R ∪ {y | ∃ d ∈ done, y ∈ cone g d}

theorem gone_nil : gone g R [] = R := by simp [gone]

theorem gone_snoc : gone g R (done ++ [d]) = gone g R done ∪ cone g d := by
  ext y
  simp only [gone, Set.mem_union, Set.mem_ofPred_eq, List.mem_append, List.mem_singleton,
    or_and_right, exists_or, exists_eq_left, or_assoc]

theorem upClosed_gone (h : UpClosed g R) : UpClosed g (gone g R done) := by
  rintro a b hab (hb | ⟨e, he, hb⟩)
  · exact .inl (h a b hab hb)
  · exact .inr ⟨e, he, upClosed_cone a b hab hb⟩

theorem mem_cone_self : id ∈ cone g id := ReflTransGen.refl

theorem mem_cone_of_dependent (h : d ∈ g.dependentsOf z) : d ∈ cone g z :=
  (mem_cone z).mpr (.inr ⟨d, h, mem_cone_self⟩)

theorem Leads.dependent (h : Leads g d z c) : c ∈ g.dependentsOf z := List.mem_of_find?_eq_some h

theorem Leads.cone (h : Leads g d z c) : d ∈ cone g c := by
  have hfound := List.find?_some h
  simpa using hfound

/-- A walk that arrives at a node above `d` starts above `d`. -/
theorem mem_cone_of_walk (h : ReflTransGen (Leads g d) c z) (hd : d ∈ g.dependentsOf z) :
    d ∈ cone g c := by
  rcases ReflTransGen.cases_head h with rfl | ⟨b, hb, -⟩
  · exact mem_cone_of_dependent hd
  · exact (mem_cone c).mpr (.inr ⟨b, hb.dependent, hb.cone⟩)

open Classical in
/-- Among the dependents that are left, the walk goes to the first one as well. -/
theorem leads_iff (hup : UpClosed g R) (hd : d ∉ R)
    (hl : ((g.dependentsOf z).filter fun y => decide (y ∉ R)) = done ++ c :: rest) :
    Leads g d z c ↔ d ∈ cone g c ∧ d ∉ gone g R done := by
  have hnew : c ∉ done := by
    have hnodup := (dependentsOf_nodup g z).filter fun y => decide (y ∉ R)
    rw [hl] at hnodup
    exact fun hm => List.disjoint_of_nodup_append hnodup hm (by simp)
  have hfind : ((g.dependentsOf z).find? fun y => decide (d ∈ cone g y)) =
      (done ++ c :: rest).find? fun y => decide (d ∈ cone g y) := by
    rw [← hl, List.find?_filter]
    refine List.find?_congr fun y _ => ?_
    by_cases hy : d ∈ cone g y
    · have hyR : y ∉ R := fun hR => hd (hup.cone_subset hR hy)
      simp [hy, hyR]
    · simp [hy]
  unfold Leads
  rw [hfind, List.find?_append]
  constructor
  · intro h
    rcases hdone : done.find? fun y => decide (d ∈ cone g y) with _ | e
    · rw [hdone, Option.none_or] at h
      refine ⟨by simpa using List.find?_some h, ?_⟩
      rintro (hR | ⟨e, he, hde⟩)
      · exact hd hR
      · have hno := List.find?_eq_none.mp hdone e he
        exact hno (decide_eq_true hde)
    · rw [hdone, Option.some_or] at h
      cases h
      exact absurd (List.mem_of_find?_eq_some hdone) hnew
  · rintro ⟨hcone, hgone⟩
    have hnone : (done.find? fun y => decide (d ∈ cone g y)) = none := by
      refine List.find?_eq_none.mpr fun e he hde => hgone (.inr ⟨e, he, ?_⟩)
      simpa using hde
    rw [hnone, Option.none_or]
    exact List.find?_cons_of_pos (decide_eq_true hcone)

open Classical in
/-- **The loop over the dependents**: the walks are straight if no dependent is gone before its turn and
the walks from it are straight once the dependents before it are worked off. -/
theorem straight_iff (hup : UpClosed g R) :
    Straight g R id ↔ ∀ done c rest,
      ((g.dependentsOf id).filter fun y => decide (y ∉ R)) = done ++ c :: rest →
        c ∉ gone g R done ∧ Straight g (gone g R done) c := by
  constructor
  · intro h done c rest hl
    obtain ⟨hc, hcR⟩ := List.mem_filter.mp (hl ▸ List.mem_append_right done List.mem_cons_self :
      c ∈ (g.dependentsOf id).filter fun y => decide (y ∉ R))
    rw [decide_eq_true_eq] at hcR
    refine ⟨((leads_iff hup hcR hl).mp (h c hcR id .refl hc)).2, fun d hd z hwalk hz => ?_⟩
    have hdR : d ∉ R := fun hR => hd (.inl hR)
    have hfirst := (leads_iff hup hdR hl).mpr ⟨mem_cone_of_walk hwalk hz, hd⟩
    exact h d hdR z (.head hfirst hwalk) hz
  · intro h d hd z hwalk hz
    have hsplit : ∀ e ∈ g.dependentsOf id, d ∈ cone g e → ∃ done rest,
        ((g.dependentsOf id).filter fun y => decide (y ∉ R)) = done ++ e :: rest := by
      intro e he hde
      have heR : e ∉ R := fun hR => hd (hup.cone_subset hR hde)
      exact List.append_of_mem (List.mem_filter.mpr ⟨he, decide_eq_true heR⟩)
    rcases ReflTransGen.cases_head hwalk with rfl | ⟨c, hc, hrest⟩
    · obtain ⟨done, rest, hl⟩ := hsplit d hz mem_cone_self
      exact (leads_iff hup hd hl).mpr ⟨mem_cone_self, (h done d rest hl).1⟩
    · obtain ⟨done, rest, hl⟩ := hsplit c hc.dependent hc.cone
      exact (h done c rest hl).2 d ((leads_iff hup hd hl).mp hc).2 z hrest hz

/-- Before the execution starts every node is editable. -/
theorem editable_of_free (hfree : g.executionStarted = false) : g.editable y = true := by
  unfold editable
  rw [hfree]
  rfl

theorem missing_sat {mode : Option RemoveMode} (h : d ∉ g.nodes.keys) : ∀ {depth : ℕ},
    Sat (removeNodeAt depth d mode) g (fun _ _ => False) (fun _ _ => True)
  | 0 => trivial
  | _ + 1 => sat_removeNodeAt (fun _ => trivial) (fun _ => trivial) (fun _ _ => trivial)
      (fun hkey => absurd hkey h) fun hkey => absurd hkey h

/-- **The cascade lemma**: a cascade goes through precisely if the walks are straight. -/
theorem cascade_sat_iff (ha : Acyclic g) (hfree : g.executionStarted = false) {depth : ℕ} :
    ∀ {id : String} {R : Set String} {g' : WorkflowGraph}, Without g R g' → UpClosed g R →
      id ∈ g.nodes.keys → id ∉ R → coneCount g id < depth →
      Sat (removeNodeAt depth id (some .cascade)) g'
        (fun removed g'' => Straight g R id ∧ Without g (R ∪ cone g id) g'' ∧ removed.Nodup ∧
          ∀ y, y ∈ removed ↔ y ∈ cone g id ∧ y ∉ R)
        (fun _ _ => ¬ Straight g R id) := by
  classical
  induction depth with
  | zero => intro id R g' _ _ _ _ h; omega
  | succ depth ih =>
    intro id R g' hw hup hkey hR hdepth
    have hdeps := hw.dependentsOf id
    have hgone : ∀ y, y ∈ gone g R (g'.dependentsOf id) ↔ y ∈ R ∨ (y ∈ cone g id ∧ y ≠ id) := by
      intro y
      rw [hdeps]
      constructor
      · rintro (hy | ⟨e, he, hye⟩)
        · exact .inl hy
        · have hdependent := mem_dependentsOf.mp (List.mem_filter.mp he).1
          refine .inr ⟨(mem_cone id).mpr (.inr ⟨e, (List.mem_filter.mp he).1, hye⟩), ?_⟩
          rintro rfl
          exact ha y (TransGen.tail' hye hdependent)
      · rintro (hy | ⟨hy, hne⟩)
        · exact .inl hy
        · obtain ⟨e, he, hye⟩ := ((mem_cone id).mp hy).resolve_left hne
          by_cases heR : e ∈ R
          · exact .inl (hup.cone_subset heR hye)
          · exact .inr ⟨e, List.mem_filter.mpr ⟨he, decide_eq_true heR⟩, hye⟩
    have hlast : ∀ removed g'', Without g (gone g R (g'.dependentsOf id)) g'' → removed.Nodup →
        (∀ y, y ∈ removed ↔ y ∈ gone g R (g'.dependentsOf id) ∧ y ∉ R) →
        Without g (R ∪ cone g id) (g''.deleteNode id).bump ∧ (removed ++ [id]).Nodup ∧
          ∀ y, y ∈ removed ++ [id] ↔ y ∈ cone g id ∧ y ∉ R := by
      intro removed g'' hwithout hnodup hmem
      have hset : insert id (gone g R (g'.dependentsOf id)) = R ∪ cone g id := by
        ext y
        rw [Set.mem_insert_iff, hgone, Set.mem_union]
        by_cases hy : y = id
        · subst hy
          simp [mem_cone_self]
        · simp [hy]
      refine ⟨hset ▸ hwithout.delete id, ?_, fun y => ?_⟩
      · refine List.nodup_append.mpr ⟨hnodup, List.nodup_singleton id, ?_⟩
        rintro y hy y' hy' rfl
        rw [List.mem_singleton] at hy'
        subst hy'
        obtain ⟨hyR, hyne⟩ := (hmem y).mp hy
        rcases (hgone y).mp hyR with h | ⟨-, hne⟩
        · exact hR h
        · exact hne rfl
      · rw [List.mem_append, hmem, hgone, List.mem_singleton]
        by_cases hy : y = id
        · subst hy
          simp [mem_cone_self, hR]
        · simp only [hy, ne_eq, not_false_eq_true, and_true, or_false]
          tauto
    refine sat_removeNodeAt (fun hn => ?_) (fun he => ?_) (fun _ h => by cases h)
      (fun _ _ _ => ?_) (fun _ _ h => ?_)
    · exact absurd (hw.mem_keys.mpr ⟨hkey, hR⟩) (OrdMap.get?_eq_none.mp hn)
    · rw [hw.editable, editable_of_free hfree] at he
      cases he
    · refine (sat_foldlM (fun done removed g'' => Without g (gone g R done) g'' ∧ removed.Nodup ∧
        (∀ y, y ∈ removed ↔ y ∈ gone g R done ∧ y ∉ R) ∧
        ∀ before c after, done = before ++ c :: after →
          c ∉ gone g R before ∧ Straight g (gone g R before) c)
        ⟨gone_nil ▸ hw, List.nodup_nil, by simp [gone_nil], by simp⟩ ?_).mono ?_ fun _ _ h => h
      · rintro done d rest removed g'' hl ⟨hdone, hnodup, hmem, hbefore⟩
        rw [hdeps] at hl
        have hd : d ∈ g.dependentsOf id := (List.mem_filter.mp
          (hl ▸ List.mem_append_right done List.mem_cons_self)).1
        have hturn := fun h => (straight_iff hup).mp h done d rest hl
        refine sat_bind.mpr ?_
        by_cases hdgone : d ∈ gone g R done
        · have hmissing : d ∉ g''.nodes.keys := fun hk => (hdone.mem_keys.mp hk).2 hdgone
          exact (missing_sat hmissing).mono (fun _ _ h => h.elim) fun _ _ _ h => (hturn h).1 hdgone
        · have hdkey : d ∈ g.nodes.keys := mem_keys_of_mem_depsOf (mem_dependentsOf.mp hd)
          have hlt := coneCount_lt ha hkey (mem_dependentsOf.mp hd)
          refine (ih hdone (upClosed_gone hup) hdkey hdgone (by omega)).mono ?_
            fun _ _ h hstraight => h (hturn hstraight).2
          rintro others g3 ⟨hstraight, hwithout, hothers, hin⟩
          refine ⟨gone_snoc ▸ hwithout, ?_, fun y => ?_, fun before c after hbc => ?_⟩
          · refine List.nodup_append.mpr ⟨hnodup, hothers, ?_⟩
            rintro y hy y' hy' rfl
            exact ((hin y).mp hy').2 ((hmem y).mp hy).1
          · rw [List.mem_append, hmem, hin, gone_snoc, Set.mem_union]
            have hsub : y ∈ R → y ∈ gone g R done := .inl
            tauto
          · rcases List.append_eq_append_iff.mp hbc with ⟨l, rfl, hl'⟩ | ⟨l, rfl, hl'⟩
            · rcases l with _ | ⟨e, l⟩
              · rw [List.nil_append] at hl'
                cases hl'
                rw [List.append_nil]
                exact ⟨hdgone, hstraight⟩
              · simp at hl'
            · rcases l with _ | ⟨e, l⟩
              · rw [List.nil_append] at hl'
                cases hl'
                rw [List.append_nil] at hdgone hstraight
                exact ⟨hdgone, hstraight⟩
              · rw [List.cons_append] at hl'
                cases hl'
                exact hbefore before c l rfl
      · rintro removed g'' ⟨hdone, hnodup, hmem, hbefore⟩
        obtain ⟨h1, h2, h3⟩ := hlast removed g'' hdone hnodup hmem
        refine ⟨(straight_iff hup).mpr fun done c rest hl => ?_, h1, h2, h3⟩
        exact hbefore done c rest (hdeps ▸ hl)
    · have hnil : g'.dependentsOf id = [] := h.resolve_left (by simp)
      rw [hnil, List.foldlM_nil, sat_pure]
      rw [hnil] at hlast
      obtain ⟨h1, h2, h3⟩ := hlast [] g' (gone_nil ▸ hw) List.nodup_nil (by simp [gone_nil])
      refine ⟨(straight_iff hup).mpr fun done c rest hl => ?_, h1, h2, h3⟩
      rw [← hdeps, hnil] at hl
      simp at hl

theorem get?_without (h : Without g R g') (hy : y ∉ R) : g'.nodes.get? y = g.nodes.get? y := by
  classical
  refine Option.ext fun node => ?_
  rw [← OrdMap.mem_entries, ← OrdMap.mem_entries, h.entries, List.mem_filter]
  simp [hy]

/-- A cascade removes the node and all that depends on it, each once, and changes nothing else. -/
def CascadesExactly (g : WorkflowGraph) (id : String) : Prop :=
  ∃ removed g', removeNode id (some .cascade) g = .ok removed g' ∧ removed.Nodup ∧
    (∀ y, y ∈ removed ↔ y ∈ cone g id) ∧
    (∀ y, y ∈ g'.nodes.keys ↔ y ∈ g.nodes.keys ∧ y ∉ cone g id) ∧
    ∀ y ∈ g'.nodes.keys, g'.nodes.get? y = g.nodes.get? y

theorem removeNode_eq (g : WorkflowGraph) (id : String) (mode : Option RemoveMode) :
    removeNode id mode g = removeNodeAt (g.nodes.keys.length + 1) id mode g := rfl

/-- **A cascade is exact precisely if the walks are straight.** -/
theorem cascadesExactly_iff (h : WellFormed g) (hfree : g.executionStarted = false)
    (hid : id ∈ g.nodes.keys) : CascadesExactly g id ↔ Straight g ∅ id := by
  have hcount := coneCount_le g id
  have hsat := cascade_sat_iff h.acyclic hfree (without_self g) (fun _ _ _ hf => hf) hid (fun hf => hf)
    (show coneCount g id < g.nodes.keys.length + 1 by omega)
  unfold CascadesExactly
  rw [removeNode_eq]
  constructor
  · rintro ⟨removed, g', hok, -⟩
    exact (hsat.of_ok hok).1
  · intro hstraight
    rcases hrun : removeNodeAt (g.nodes.keys.length + 1) id (some .cascade) g with ⟨removed, g'⟩ | ⟨e, g'⟩
    · obtain ⟨-, hwithout, hnodup, hmem⟩ := hsat.of_ok hrun
      rw [Set.empty_union] at hwithout
      refine ⟨removed, g', rfl, hnodup, fun y => ?_, fun y => hwithout.mem_keys, fun y hy => ?_⟩
      · simpa using hmem y
      · exact get?_without hwithout (hwithout.mem_keys.mp hy).2
    · exact absurd hstraight (hsat.of_error hrun)

/-- With one dependent at most, a walk has no choice. -/
theorem straight_of_chain (h : ∀ z, (g.dependentsOf z).length ≤ 1) : Straight g R id := by
  classical
  intro d _ z _ hz
  obtain ⟨c, hc⟩ := List.length_eq_one_iff.mp
    (Nat.le_antisymm (h z) (List.length_pos_of_mem hz))
  rw [hc, List.mem_singleton] at hz
  subst hz
  unfold Leads
  rw [hc]
  exact List.find?_cons_of_pos (decide_eq_true mem_cone_self)

/-- `b` depends on `a`, and `a` on `x`. -/
def chainPlan : PlanContract :=
  ⟨[plainModule "x" [], plainModule "a" ["x"], plainModule "b" ["a"]]⟩

theorem wellFormed_of_accepted {plan : PlanContract}
    (h : validatePlan (fun plan => .ok plan) plan = .ok plan) : WellFormed (fromPlan plan) :=
  wellFormed_fromPlan (validatePlan_valid h)

theorem chainPlan_wellFormed : WellFormed (fromPlan chainPlan) := wellFormed_of_accepted rfl

theorem chainPlan_dependents (z : String) : ((fromPlan chainPlan).dependentsOf z).length ≤ 1 := by
  have hentries : (fromPlan chainPlan).nodes.entries =
      chainPlan.modules.map fun mod => (mod.id, nodeOfModule mod) := rfl
  unfold dependentsOf
  rw [hentries]
  by_cases hx : z = "x"
  · subst hx
    decide
  · by_cases ha : z = "a"
    · subst ha
      decide
    · simp [chainPlan, plainModule, nodeOfModule, hx, ha]

theorem cascadesExactly_chainPlan : CascadesExactly (fromPlan chainPlan) "x" :=
  (cascadesExactly_iff chainPlan_wellFormed rfl (by decide)).mpr (straight_of_chain chainPlan_dependents)

theorem sharedPlan_wellFormed : WellFormed (fromPlan sharedPlan) :=
  wellFormed_of_accepted rfl

/-- The cascade of `a` takes `b` along, which the loop over the dependents of `x` then looks for. -/
theorem sharedPlan_cascade_fails :
    ¬ ∀ (g : WorkflowGraph) (id : String), WellFormed g → g.executionStarted = false →
      id ∈ g.nodes.keys → CascadesExactly g id := by
  intro hall
  obtain ⟨removed, g', hok, -⟩ := hall (fromPlan sharedPlan) "x"
    sharedPlan_wellFormed rfl (by decide)
  have hthrown : thrown? (removeNode "x" (some .cascade) (fromPlan sharedPlan)) =
      some (.edit (.unknown_node "b")) := rfl
  rw [hok] at hthrown
  cases hthrown

/-! ### Reparenting -/

/-- A reparent removes the node alone, keeps which of the others depend on which, and no list of dependencies
gets an entry twice. -/
def ReparentsExactly (g : WorkflowGraph) (id : String) : Prop :=
  ∃ g', removeNode id (some .reparent) g = .ok [id] g' ∧
    (∀ y, y ∈ g'.nodes.keys ↔ y ∈ g.nodes.keys ∧ y ≠ id) ∧
    (∀ u v, u ≠ id → v ≠ id → (TransGen (Edge g') u v ↔ TransGen (Edge g) u v)) ∧
    (∀ y d, 1 < (g'.depsOf y).count d → (g'.depsOf y).count d ≤ (g.depsOf y).count d) ∧
    WellFormed g'

/-- The graph after the grafts and the deletion. -/
theorem depsOf_regrafted (ha : Acyclic g) (h : Regrafted g id (g.dependentsOf id) g') (hy : y ≠ id) :
    (g'.deleteNode id).bump.depsOf y =
      if y ∈ g.dependentsOf id then inheritedDeps g id y else g.depsOf y := by
  have hdelete : (g'.deleteNode id).bump.depsOf y = (g'.deleteNode id).depsOf y := rfl
  rw [hdelete, depsOf_deleteNode, if_neg (Ne.symm hy), h.deps (ha.not_mem_dependents fun _ hd => hd)]

/-- A path over the removed node goes on along the grafts. -/
theorem path_regrafted (ha : Acyclic g) (h : Regrafted g id (g.dependentsOf id) g') {u w : String}
    (hu : u ≠ id) (hpath : TransGen (Edge g) u w) :
    (w ≠ id → TransGen (Edge (g'.deleteNode id).bump) u w) ∧
      (w = id → ∀ c ∈ g.depsOf id, TransGen (Edge (g'.deleteNode id).bump) u c) := by
  have hkept : ∀ a b, a ≠ id → b ∈ g.depsOf a → b ≠ id → Edge (g'.deleteNode id).bump a b := by
    intro a b ha' hb hne
    show b ∈ (g'.deleteNode id).bump.depsOf a
    rw [depsOf_regrafted ha h ha']
    split_ifs
    · exact mem_inheritedDeps.mpr (.inl ⟨hb, hne⟩)
    · exact hb
  have hgraft : ∀ a c, a ≠ id → id ∈ g.depsOf a → c ∈ g.depsOf id → Edge (g'.deleteNode id).bump a c := by
    intro a c ha' hid hc
    show c ∈ (g'.deleteNode id).bump.depsOf a
    rw [depsOf_regrafted ha h ha', if_pos (mem_dependentsOf.mpr hid)]
    exact mem_inheritedDeps.mpr (.inr hc)
  induction hpath with
  | @single w hw =>
    refine ⟨fun hne => .single (hkept u w hu hw hne), ?_⟩
    rintro rfl c hc
    exact .single (hgraft u c hu hw hc)
  | @tail b w _ hbw ih =>
    by_cases hb : b = id
    · subst hb
      refine ⟨fun _ => ih.2 rfl w hbw, ?_⟩
      rintro rfl
      exact absurd hbw ha.not_mem_depsOf
    · have hub := ih.1 hb
      refine ⟨fun hne => hub.tail (hkept b w hb hbw hne), ?_⟩
      rintro rfl c hc
      exact hub.tail (hgraft b c hb hbw hc)

/-- **A reparent keeps the order of the other nodes.** -/
theorem reparentsExactly (h : WellFormed g) (hfree : g.executionStarted = false)
    (hid : id ∈ g.nodes.keys) : ReparentsExactly g id := by
  have hsat : Sat (removeNodeAt (g.nodes.keys.length + 1) id (some .reparent)) g
      (fun removed g' => removed = [id] ∧ ∃ gr, Regrafted g id (g.dependentsOf id) gr ∧
        g' = (gr.deleteNode id).bump) (fun _ _ => False) := by
    refine sat_removeNodeAt (fun hn => ?_) (fun he => ?_) (fun _ hm => by cases hm)
      (fun _ _ hc => by cases hc) (fun _ _ _ => (grafts_sat g id).mono ?_ ?_)
    · exact OrdMap.get?_eq_none.mp hn hid
    · rw [editable_of_free hfree] at he
      cases he
    · exact fun _ gr hgr => ⟨rfl, gr, hgr, rfl⟩
    · rintro e g' ⟨_, _, _, -, -, hblocked, -⟩
      rw [editable_of_free hfree] at hblocked
      cases hblocked
  have hlawful : Sat (removeNodeAt (g.nodes.keys.length + 1) id (some .reparent)) g
      (fun _ g' => Lawful g g') (fun e g' => Lawful g g' ∧ e ≠ .callDepth) :=
    removeNode_lawful h id (some .reparent)
  unfold ReparentsExactly
  rw [removeNode_eq]
  rcases hrun : removeNodeAt (g.nodes.keys.length + 1) id (some .reparent) g with ⟨removed, g'⟩ | ⟨e, g'⟩
  · obtain ⟨rfl, gr, hgr, rfl⟩ := hsat.of_ok hrun
    refine ⟨_, rfl, fun y => ?_, fun u v hu hv => ⟨fun hpath => ?_, fun hpath => ?_⟩, fun y d hcount => ?_,
      (hlawful.of_ok hrun).wellFormed⟩
    · have hkeys : y ∈ (gr.deleteNode id).bump.nodes.keys ↔ y ≠ id ∧ y ∈ gr.nodes.keys :=
        OrdMap.mem_keys_delete
      rw [hkeys, hgr.keys, and_comm]
    · refine transGen_of_edges (fun a b hb => ?_) hpath
      have ha : a ≠ id := by
        rintro rfl
        have hnone : (gr.deleteNode a).bump.depsOf a = [] := by
          rw [show (gr.deleteNode a).bump.depsOf a = (gr.deleteNode a).depsOf a from rfl,
            depsOf_deleteNode, if_pos rfl]
        rw [hnone] at hb
        cases hb
      rw [depsOf_regrafted h.acyclic hgr ha] at hb
      split_ifs at hb with hdependent
      · rcases mem_inheritedDeps.mp hb with hb | hb
        · exact .single hb.1
        · exact (TransGen.single (mem_dependentsOf.mp hdependent)).tail hb
      · exact .single hb
    · exact (path_regrafted h.acyclic hgr hu hpath).1 hv
    · by_cases hy : y = id
      · subst hy
        rw [show (gr.deleteNode y).bump.depsOf y = (gr.deleteNode y).depsOf y from rfl,
          depsOf_deleteNode, if_pos rfl] at hcount
        simp at hcount
      · rw [depsOf_regrafted h.acyclic hgr hy] at hcount ⊢
        split_ifs at hcount ⊢ with hdependent
        · have hnodup : (inheritedDeps g id y).Nodup := Lib.nodup_eraseDups _
          have hone := List.nodup_iff_count_le_one.mp hnodup d
          omega
        · exact le_rfl
  · exact (hsat.of_error hrun).elim

theorem reparentsExactly_sharedPlan : ReparentsExactly (fromPlan sharedPlan) "a" :=
  reparentsExactly sharedPlan_wellFormed rfl (by decide)

end Norns.Graph.Removal
