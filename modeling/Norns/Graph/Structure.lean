import Norns.Graph.Workflow

/-! # Well-formed graphs

A graph is well-formed if every dependency names an existing node (`Closed`) and no node depends on
itself, directly or through others (`Acyclic`). Every call of an edit, also one that throws half-way,
leaves a well-formed graph and never lowers the version.

* `wellFormed_fromPlan`: the graph of an accepted plan;
* `Cascaded`, `cascade_sat`: what a cascade may do before it returns or throws;
* `Regrafted`, `reparent_sat`: the same for the grafts of a reparent;
* `lawful_perform`: the step lemma. -/

namespace Norns.Graph.Structure

open Relation Norns.Lib Norns.Lib.Edit Norns.Lib.Cycle
open Norns.Contracts.Plan (PlanContract PlanModule Valid)
open Norns.Graph.Workflow Norns.Graph.Workflow.WorkflowGraph

variable {g g' g'' : WorkflowGraph} {id y d : String}

/-- `a` has `b` among its dependencies. -/
abbrev Edge (g : WorkflowGraph) : String → String → Prop := DependsOn g.depsOf

/-- Every dependency names an existing node. -/
def Closed (g : WorkflowGraph) : Prop := ∀ y d, d ∈ g.depsOf y → d ∈ g.nodes.keys

/-- The dependency relation has no cycle. -/
def Acyclic (g : WorkflowGraph) : Prop := Cycle.Acyclic g.depsOf

structure WellFormed (g : WorkflowGraph) : Prop where
  closed : Closed g
  acyclic : Acyclic g

/-! ### Reading the graph -/

theorem depsOf_of_get? {node : GraphNode} (h : g.nodes.get? id = some node) :
    g.depsOf id = node.dependencies := by
  unfold depsOf; rw [h]

theorem mem_keys_of_mem_depsOf (h : d ∈ g.depsOf y) : y ∈ g.nodes.keys := by
  unfold depsOf at h
  rcases hg : g.nodes.get? y with _ | node
  · rw [hg] at h; cases h
  · exact OrdMap.mem_keys.mpr ⟨node, hg⟩

theorem mem_dependentsOf : y ∈ g.dependentsOf id ↔ id ∈ g.depsOf y := by
  unfold dependentsOf
  simp only [List.mem_map, List.mem_filter, decide_eq_true_eq, Prod.exists, exists_and_right,
    exists_eq_right, OrdMap.mem_entries]
  constructor
  · rintro ⟨node, hn, hid⟩
    rwa [depsOf_of_get? hn]
  · intro h
    obtain ⟨node, hn⟩ := OrdMap.mem_keys.mp (mem_keys_of_mem_depsOf h)
    exact ⟨node, hn, by rwa [← depsOf_of_get? hn]⟩

theorem dependentsOf_nodup (g : WorkflowGraph) (id : String) : (g.dependentsOf id).Nodup :=
  g.nodes.nodup.sublist (List.filter_sublist.map Prod.fst)

theorem depsOf_deleteNode : (g.deleteNode id).depsOf y = if id = y then [] else g.depsOf y := by
  unfold depsOf deleteNode
  simp only [OrdMap.get?_delete]
  split_ifs <;> rfl

theorem depsOf_setDependencies {deps : List String} (h : id ∈ g.nodes.keys) :
    (g.setDependencies id deps).depsOf y = if id = y then deps else g.depsOf y := by
  obtain ⟨node, hn⟩ := OrdMap.mem_keys.mp h
  unfold setDependencies
  simp only [hn, depsOf, OrdMap.get?_set]
  split_ifs <;> rfl

theorem mem_keys_setDependencies {deps : List String} :
    y ∈ (g.setDependencies id deps).nodes.keys ↔ y ∈ g.nodes.keys := by
  unfold setDependencies
  rcases hn : g.nodes.get? id with _ | node
  · exact Iff.rfl
  · simp only [OrdMap.mem_keys_set]
    exact ⟨fun h => h.elim (fun he => he ▸ OrdMap.mem_keys.mpr ⟨node, hn⟩) (fun h => h), Or.inr⟩

theorem transGen_of_edges (he : ∀ a b, b ∈ g'.depsOf a → TransGen (Edge g) a b) {a b : String}
    (h : TransGen (Edge g') a b) : TransGen (Edge g) a b := by
  induction h with
  | single hab => exact he _ _ hab
  | tail _ hbc ih => exact ih.trans (he _ _ hbc)

/-- Edges that go along old edges close no cycle. -/
theorem Acyclic.of_edges (h : Acyclic g)
    (he : ∀ a b, b ∈ g'.depsOf a → TransGen (Edge g) a b) : Acyclic g' :=
  fun x hx => h x (transGen_of_edges he hx)

theorem Acyclic.not_mem_depsOf (h : Acyclic g) : id ∉ g.depsOf id := fun hm =>
  h id (.single hm)

/-- A search of the graph that finds nothing means that there is no cycle. -/
theorem acyclic_of_findCycle (h : g.findCycle = none) : Acyclic g := by
  refine Cycle.acyclic_of_findCycle (U := g.mentioned) (fun x hx => ?_) (fun x _ d hd => ?_)
    (Nat.lt_succ_self _) (fun x hx => ?_) h
  · exact List.mem_append_left _ hx
  · obtain ⟨node, hn⟩ := OrdMap.mem_keys.mp (mem_keys_of_mem_depsOf hd)
    refine List.mem_append_right _ (List.mem_flatMap.mpr ⟨node, OrdMap.mem_values.mpr ⟨x, hn⟩, ?_⟩)
    rwa [← depsOf_of_get? hn]
  · obtain ⟨d, hd⟩ := List.exists_mem_of_ne_nil _ hx
    exact mem_keys_of_mem_depsOf hd

/-! ### The graph of a plan -/

section

variable {plan : PlanContract} (hv : Valid plan)

include hv

theorem nodup_planEntries :
    ((plan.modules.map fun mod => (mod.id, nodeOfModule mod)).map Prod.fst).Nodup := by
  rw [List.map_map]; exact hv.distinct

theorem keys_fromPlan : (fromPlan plan).nodes.keys = plan.modules.map PlanModule.id := by
  show (OrdMap.ofList _).keys = _
  rw [OrdMap.keys_ofList (nodup_planEntries hv), List.map_map]; rfl

theorem depsOf_fromPlan (id : String) :
    (fromPlan plan).depsOf id = Contracts.Plan.depsOf plan.modules id := by
  have hget : ∀ mod ∈ plan.modules, (fromPlan plan).nodes.get? mod.id = some (nodeOfModule mod) :=
    fun mod hm => (OrdMap.get?_ofList (nodup_planEntries hv)).mpr (List.mem_map.mpr ⟨mod, hm, rfl⟩)
  by_cases hid : id ∈ plan.modules.map PlanModule.id
  · obtain ⟨mod, hm, rfl⟩ := List.mem_map.mp hid
    rw [Contracts.Plan.depsOf_of_mem hv.distinct hm, depsOf_of_get? (hget mod hm)]
    rfl
  · have hnone : (fromPlan plan).depsOf id = [] :=
      List.eq_nil_iff_forall_not_mem.mpr fun d hd =>
        hid (keys_fromPlan hv ▸ mem_keys_of_mem_depsOf hd)
    have hnone' : Contracts.Plan.depsOf plan.modules id = [] :=
      List.eq_nil_iff_forall_not_mem.mpr fun d hd => by
        obtain ⟨mod, hm, rfl, -⟩ := Contracts.Plan.mem_depsOf hd
        exact hid (List.mem_map.mpr ⟨mod, hm, rfl⟩)
    rw [hnone, hnone']

/-- **The graph of a valid plan is well-formed.** -/
theorem wellFormed_fromPlan : WellFormed (fromPlan plan) where
  closed y d hd := by
    rw [depsOf_fromPlan hv] at hd
    obtain ⟨mod, hm, -, hdep⟩ := Contracts.Plan.mem_depsOf hd
    rw [keys_fromPlan hv]
    exact hv.known mod hm d hdep
  acyclic := by
    have : (fromPlan plan).depsOf = Contracts.Plan.depsOf plan.modules :=
      funext (depsOf_fromPlan hv)
    unfold Acyclic
    rw [this]
    exact hv.acyclic

end

/-! ### The guards -/

theorem sat_requireNode {ok : GraphNode → WorkflowGraph → Prop} {err : Thrown → WorkflowGraph → Prop}
    (hok : ∀ node, g.nodes.get? id = some node → ok node g)
    (herr : g.nodes.get? id = none → err (.edit (.unknown_node id)) g) :
    Sat (requireNode id) g ok err := by
  unfold requireNode
  rw [sat_bind, sat_get]
  rcases hn : g.nodes.get? id with _ | node
  · exact herr hn
  · exact hok node hn

theorem sat_guardEditable {ok : Unit → WorkflowGraph → Prop} {err : Thrown → WorkflowGraph → Prop}
    (hok : g.editable id = true → ok () g)
    (herr : g.editable id = false → err (.edit (.node_started id (g.stateOf id))) g) :
    Sat (guardEditable id) g ok err := by
  unfold guardEditable
  rw [sat_bind, sat_get]
  rcases he : g.editable id
  · rw [if_neg (by simp)]; exact herr he
  · rw [if_pos rfl]; exact hok he

/-- The ways through `removeNode`, for any call depth that is left. -/
theorem sat_removeNodeAt {depth : ℕ} {mode : Option RemoveMode}
    {ok : List String → WorkflowGraph → Prop} {err : Thrown → WorkflowGraph → Prop}
    (hunknown : g.nodes.get? id = none → err (.edit (.unknown_node id)) g)
    (hstarted : g.editable id = false → err (.edit (.node_started id (g.stateOf id))) g)
    (hmode : g.dependentsOf id ≠ [] → mode = none →
      err (.edit (.has_dependents id (g.dependentsOf id))) g)
    (hcascade : id ∈ g.nodes.keys → g.editable id = true → mode = some .cascade →
      Sat ((g.dependentsOf id).foldlM (fun removed dependent => do
          return removed ++ (← removeNodeAt depth dependent (some .cascade))) []) g
        (fun removed g' => ok (removed ++ [id]) (g'.deleteNode id).bump) err)
    (hgraft : id ∈ g.nodes.keys → g.editable id = true →
      mode = some .reparent ∨ g.dependentsOf id = [] →
      Sat ((g.dependentsOf id).foldlM (fun _ dependent => inherit id dependent) ()) g
        (fun _ g' => ok [id] (g'.deleteNode id).bump) err) :
    Sat (removeNodeAt (depth + 1) id mode) g ok err := by
  unfold removeNodeAt
  refine sat_bind.mpr (sat_requireNode (fun node hn => ?_) hunknown)
  refine sat_bind.mpr (sat_guardEditable (fun he => ?_) hstarted)
  rw [sat_bind, sat_get]
  have hkey : id ∈ g.nodes.keys := OrdMap.mem_keys.mpr ⟨node, hn⟩
  by_cases hm : g.dependentsOf id ≠ [] ∧ mode = none
  · simp only [if_pos hm]
    exact hmode hm.1 hm.2
  simp only [if_neg hm]
  by_cases hc : mode = some .cascade ∧ g.dependentsOf id ≠ []
  · simp only [if_pos hc]
    exact sat_bind.mpr (hcascade hkey he hc.1)
  · simp only [if_neg hc]
    refine sat_bind.mpr (hgraft hkey he ?_)
    rcases mode with _ | _ | _
    · exact .inr (by_contra fun hd => hm ⟨hd, rfl⟩)
    · exact .inl rfl
    · exact .inr (by_contra fun hd => hc ⟨rfl, hd⟩)

/-! ### Cascades -/

/-- **What a cascade does**, also when it throws in between: nodes disappear, each with a new
version. -/
structure Cascaded (g g' : WorkflowGraph) : Prop where
  nodes : ∀ y node, g'.nodes.get? y = some node → g.nodes.get? y = some node
  version : g.graphVersion ≤ g'.graphVersion
  same : g'.graphVersion = g.graphVersion → g' = g

theorem Cascaded.refl (g : WorkflowGraph) : Cascaded g g := ⟨fun _ _ h => h, le_rfl, fun _ => rfl⟩

theorem Cascaded.trans (h : Cascaded g g') (h' : Cascaded g' g'') : Cascaded g g'' where
  nodes y node hn := h.nodes y node (h'.nodes y node hn)
  version := h.version.trans h'.version
  same he := by
    have h1 := h.version
    have h2 := h'.version
    rw [h'.same (by omega), h.same (by omega)]

theorem Cascaded.keys (h : Cascaded g g') (hy : y ∈ g'.nodes.keys) : y ∈ g.nodes.keys := by
  obtain ⟨node, hn⟩ := OrdMap.mem_keys.mp hy
  exact OrdMap.mem_keys.mpr ⟨node, h.nodes y node hn⟩

theorem Cascaded.depsOf (h : Cascaded g g') (hd : d ∈ g'.depsOf y) : d ∈ g.depsOf y := by
  obtain ⟨node, hn⟩ := OrdMap.mem_keys.mp (mem_keys_of_mem_depsOf hd)
  rw [depsOf_of_get? hn] at hd
  rwa [depsOf_of_get? (h.nodes y node hn)]

theorem Cascaded.acyclic (h : Cascaded g g') (ha : Acyclic g) : Acyclic g' :=
  ha.of_edges fun _ _ hb => .single (h.depsOf hb)

/-- Deleting a node on which nothing depends any more. -/
theorem cascaded_delete : Cascaded g (g.deleteNode id).bump where
  nodes y node hn := by
    have hn : (g.nodes.delete id).get? y = some node := hn
    rw [OrdMap.get?_delete] at hn
    split_ifs at hn
    exact hn
  version := Nat.le_succ _
  same he := absurd he (Nat.succ_ne_self _)

theorem closed_delete (hc : Closed g) (hnone : ∀ y, id ∈ g.depsOf y → y = id) :
    Closed (g.deleteNode id).bump := by
  intro y d hd
  have hd : d ∈ (g.deleteNode id).depsOf y := hd
  rw [depsOf_deleteNode] at hd
  split_ifs at hd with h
  · cases hd
  · have hne : d ≠ id := fun he => h (hnone y (he ▸ hd)).symm
    exact OrdMap.mem_keys_delete.mpr ⟨hne, hc y d hd⟩

open Classical in
/-- How many nodes are `id` or depend on it, directly or through others. -/
noncomputable def coneCount (g : WorkflowGraph) (id : String) : ℕ :=
  (g.nodes.keys.filter fun y => decide (ReflTransGen (Edge g) y id)).length

theorem coneCount_mono (h : Cascaded g g') (id : String) : coneCount g' id ≤ coneCount g id := by
  classical
  refine List.Subperm.length_le (List.subperm_of_subset (g'.nodes.keys_nodup.filter _) fun y hy => ?_)
  obtain ⟨hk, hr⟩ := List.mem_filter.mp hy
  refine List.mem_filter.mpr ⟨h.keys hk, ?_⟩
  rw [decide_eq_true_eq] at hr ⊢
  exact hr.lift (fun x => x) fun a b hab => h.depsOf hab

/-- A dependent's cone is smaller. -/
theorem coneCount_lt (ha : Acyclic g) (hid : id ∈ g.nodes.keys) (hd : id ∈ g.depsOf d) :
    coneCount g d < coneCount g id := by
  classical
  unfold coneCount
  have hsub : g.nodes.keys.filter (fun y => decide (ReflTransGen (Edge g) y d)) =
      (g.nodes.keys.filter fun y => decide (ReflTransGen (Edge g) y id)).filter
        fun y => decide (ReflTransGen (Edge g) y d) := by
    rw [List.filter_filter]
    refine List.filter_congr fun y _ => ?_
    by_cases h : ReflTransGen (Edge g) y d
    · simp [h, h.tail hd]
    · simp [h]
  rw [hsub]
  refine List.length_filter_lt_length_iff_exists.mpr ⟨id, ?_, ?_⟩
  · exact List.mem_filter.mpr ⟨hid, by simp [ReflTransGen.refl]⟩
  · rw [decide_eq_true_eq]
    exact fun h => ha id (TransGen.trans_right h (.single hd))

theorem coneCount_le (g : WorkflowGraph) (id : String) : coneCount g id ≤ g.nodes.keys.length :=
  List.length_filter_le _ _

/-- **The cascade lemma.** -/
theorem cascade_sat {depth : ℕ} : ∀ {id : String} {g : WorkflowGraph},
    Sat (removeNodeAt depth id (some .cascade)) g
      (fun _ g' => Cascaded g g' ∧ (Closed g → Closed g') ∧ id ∉ g'.nodes.keys ∧
        g.graphVersion < g'.graphVersion)
      (fun e g' => Cascaded g g' ∧ (Closed g → Closed g') ∧
        (Acyclic g → coneCount g id < depth → e ≠ .callDepth)) := by
  induction depth with
  | zero => exact fun {id g} => ⟨.refl g, fun h => h, fun _ h => by omega⟩
  | succ depth ih =>
    intro id g
    have hhere : ∀ e, Cascaded g g ∧ (Closed g → Closed g) ∧
        (Acyclic g → coneCount g id < depth + 1 → Thrown.edit e ≠ .callDepth) :=
      fun e => ⟨.refl g, fun h => h, fun _ _ h => by cases h⟩
    refine sat_removeNodeAt (fun _ => hhere _) (fun _ => hhere _) (fun _ h => by cases h)
      (fun hkey _ _ => ?_) (fun hkey _ h => ?_)
    · -- the loop removes the dependents worked off so far
      refine Sat.mono (sat_foldlM (fun done _ g' => Cascaded g g' ∧ (Closed g → Closed g') ∧
        ∀ d ∈ done, d ∉ g'.nodes.keys) ⟨.refl g, fun h => h, by simp⟩ ?_) ?_ fun _ _ h => h
      · rintro done d rest removed g' hl ⟨hcas, hclosed, hdone⟩
        have hd : id ∈ g.depsOf d := mem_dependentsOf.mp (by rw [hl]; simp)
        refine sat_bind.mpr (ih.mono ?_ ?_)
        · rintro l g'' ⟨hcas', hclosed', hgone, -⟩
          refine ⟨hcas.trans hcas', fun h => hclosed' (hclosed h), fun x hx => ?_⟩
          rcases List.mem_append.mp hx with hx | hx
          · exact fun hk => hdone x hx (hcas'.keys hk)
          · rw [List.mem_singleton.mp hx]; exact hgone
        · rintro e g'' ⟨hcas', hclosed', he⟩
          refine ⟨hcas.trans hcas', fun h => hclosed' (hclosed h), fun ha hlt => ?_⟩
          have h1 := coneCount_lt ha hkey hd
          have h2 := coneCount_mono hcas d
          exact he (hcas.acyclic ha) (by omega)
      · rintro removed g' ⟨hcas, hclosed, hdone⟩
        have hnone : ∀ y, id ∈ g'.depsOf y → y = id := fun y hy =>
          absurd (mem_keys_of_mem_depsOf hy) (hdone y (mem_dependentsOf.mpr (hcas.depsOf hy)))
        exact ⟨hcas.trans cascaded_delete, fun h => closed_delete (hclosed h) hnone,
          fun hk => (OrdMap.mem_keys_delete.mp hk).1 rfl, Nat.lt_succ_of_le hcas.version⟩
    · rcases h with h | h
      · cases h
      · rw [h, List.foldlM_nil, sat_pure]
        have hnone : ∀ y, id ∈ g.depsOf y → y = id := fun y hy => by
          have := mem_dependentsOf.mpr hy
          rw [h] at this
          cases this
        exact ⟨cascaded_delete, fun hc => closed_delete hc hnone,
          fun hk => (OrdMap.mem_keys_delete.mp hk).1 rfl, Nat.lt_succ_self _⟩

/-! ### Grafts -/

theorem mem_inheritedDeps : d ∈ inheritedDeps g id y ↔ (d ∈ g.depsOf y ∧ d ≠ id) ∨ d ∈ g.depsOf id := by
  unfold inheritedDeps
  rw [List.mem_eraseDups, List.mem_append, List.mem_filter, decide_eq_true_eq]

/-- **What the loop of a reparent has done** once the dependents `done` were grafted. -/
structure Regrafted (g : WorkflowGraph) (id : String) (done : List String) (g' : WorkflowGraph) :
    Prop where
  keys : ∀ y, y ∈ g'.nodes.keys ↔ y ∈ g.nodes.keys
  version : g'.graphVersion = g.graphVersion
  editable : ∀ y, g'.editable y = g.editable y
  deps : id ∉ done → ∀ y, g'.depsOf y = if y ∈ done then inheritedDeps g id y else g.depsOf y
  nil : done = [] → g' = g
  guarded : ∀ y ∈ done, g.editable y = true

theorem Regrafted.refl (g : WorkflowGraph) (id : String) : Regrafted g id [] g :=
  ⟨fun _ => Iff.rfl, rfl, fun _ => rfl, fun _ _ => by simp, fun _ => rfl, by simp⟩

theorem version_setDependencies {deps : List String} :
    (g.setDependencies id deps).graphVersion = g.graphVersion := by
  unfold setDependencies; split <;> rfl

theorem editable_setDependencies {deps : List String} :
    (g.setDependencies id deps).editable y = g.editable y := by
  unfold setDependencies; split <;> rfl

theorem Regrafted.snoc {done : List String} (h : Regrafted g id done g') (hd : d ∈ g.nodes.keys)
    (hnew : d ∉ done) (he : g.editable d = true) :
    Regrafted g id (done ++ [d]) (g'.setDependencies d (inheritedDeps g' id d)) where
  keys y := mem_keys_setDependencies.trans (h.keys y)
  version := version_setDependencies.trans h.version
  editable y := editable_setDependencies.trans (h.editable y)
  deps hid y := by
    simp only [List.mem_append, List.mem_singleton, not_or] at hid
    have hin : inheritedDeps g' id d = inheritedDeps g id d := by
      unfold inheritedDeps
      rw [h.deps hid.1 d, h.deps hid.1 id, if_neg hnew, if_neg hid.1]
    rw [depsOf_setDependencies ((h.keys d).mpr hd), hin, h.deps hid.1]
    by_cases hy : d = y
    · subst hy; simp
    · simp [hy, Ne.symm hy]
  nil hn := by simp at hn
  guarded y hy := by
    rcases List.mem_append.mp hy with hy | hy
    · exact h.guarded y hy
    · rw [List.mem_singleton.mp hy]; exact he

/-- **The graft lemma**: the loop stops at the first dependent that is not editable. -/
theorem grafts_sat (g : WorkflowGraph) (id : String) :
    Sat ((g.dependentsOf id).foldlM (fun _ dependent => inherit id dependent) ()) g
      (fun _ g' => Regrafted g id (g.dependentsOf id) g')
      (fun e g' => ∃ done d rest, g.dependentsOf id = done ++ d :: rest ∧ Regrafted g id done g' ∧
        g.editable d = false ∧ ∃ state, e = .edit (.node_started d state)) := by
  refine sat_foldlM (fun done _ g' => Regrafted g id done g') (.refl g id) ?_
  rintro done d rest ⟨⟩ g' hl h
  have hkey : d ∈ g.nodes.keys := mem_keys_of_mem_depsOf (mem_dependentsOf.mp (by rw [hl]; simp))
  have hnew : d ∉ done := by
    have hnd := dependentsOf_nodup g id
    rw [hl] at hnd
    exact fun hm => List.disjoint_of_nodup_append hnd hm (by simp)
  unfold inherit
  refine sat_bind.mpr (sat_requireNode (fun _ _ => ?_) fun hn => ?_)
  · refine sat_bind.mpr (sat_guardEditable (fun he => ?_) fun he => ?_)
    · rw [sat_modify]
      exact h.snoc hkey hnew (h.editable d ▸ he)
    · exact ⟨done, d, rest, hl, h, h.editable d ▸ he, _, rfl⟩
  · exact absurd ((h.keys d).mpr hkey) (OrdMap.get?_eq_none.mp hn)

theorem Acyclic.not_mem_dependents (ha : Acyclic g) {done : List String}
    (hsub : ∀ d ∈ done, d ∈ g.dependentsOf id) : id ∉ done := fun hm =>
  ha.not_mem_depsOf (mem_dependentsOf.mp (hsub id hm))

section

variable {done : List String} (h : Regrafted g id done g') (ha : Acyclic g)
  (hsub : ∀ d ∈ done, d ∈ g.dependentsOf id)

include h ha hsub

theorem Regrafted.depsOf_cases {a b : String} (hb : b ∈ g'.depsOf a) :
    b ∈ g.depsOf a ∨ (id ∈ g.depsOf a ∧ b ∈ g.depsOf id) := by
  rw [h.deps (ha.not_mem_dependents hsub)] at hb
  split_ifs at hb with hm
  · rcases mem_inheritedDeps.mp hb with hb | hb
    · exact .inl hb.1
    · exact .inr ⟨mem_dependentsOf.mp (hsub a hm), hb⟩
  · exact .inl hb

/-- Grafts add only edges that shorten a path over the removed node. -/
theorem Regrafted.wellFormed (hc : Closed g) : WellFormed g' where
  closed a b hb := by
    rcases h.depsOf_cases ha hsub hb with hb | ⟨-, hb⟩
    · exact (h.keys b).mpr (hc a b hb)
    · exact (h.keys b).mpr (hc id b hb)
  acyclic := ha.of_edges fun a b hb => by
    rcases h.depsOf_cases ha hsub hb with hb | ⟨hid, hb⟩
    · exact .single hb
    · exact (TransGen.single hid).tail hb

end

/-- Once every dependent is grafted nothing depends on the removed node. -/
theorem Regrafted.no_dependents (h : Regrafted g id (g.dependentsOf id) g') (ha : Acyclic g) :
    ∀ y, id ∉ g'.depsOf y := by
  intro y hy
  rw [h.deps (ha.not_mem_dependents fun _ hd => hd)] at hy
  split_ifs at hy with hm
  · rcases mem_inheritedDeps.mp hy with hy | hy
    · exact hy.2 rfl
    · exact ha.not_mem_depsOf hy
  · exact hm (mem_dependentsOf.mpr hy)

/-! ### Every edit -/

/-- A well-formed graph, and a version that is not lower. -/
structure Lawful (g g' : WorkflowGraph) : Prop where
  wellFormed : WellFormed g'
  version : g.graphVersion ≤ g'.graphVersion

theorem Lawful.refl (h : WellFormed g) : Lawful g g := ⟨h, le_rfl⟩

theorem removeNode_lawful (h : WellFormed g) (id : String) (mode : Option RemoveMode) :
    Sat (removeNode id mode) g (fun _ g' => Lawful g g')
      (fun e g' => Lawful g g' ∧ e ≠ .callDepth) := by
  have hcount := coneCount_le g id
  unfold removeNode
  rw [sat_bind, sat_get]
  by_cases hm : mode = some .cascade
  · subst hm
    refine cascade_sat.mono ?_ ?_
    · rintro removed g' ⟨hcas, hclosed, -, -⟩
      exact ⟨⟨hclosed h.closed, hcas.acyclic h.acyclic⟩, hcas.version⟩
    · rintro e g' ⟨hcas, hclosed, he⟩
      exact ⟨⟨⟨hclosed h.closed, hcas.acyclic h.acyclic⟩, hcas.version⟩,
        he h.acyclic (by omega)⟩
  · have hhere : ∀ e, Lawful g g ∧ Thrown.edit e ≠ .callDepth := fun e => ⟨.refl h, by simp⟩
    refine sat_removeNodeAt (fun _ => hhere _) (fun _ => hhere _) (fun _ _ => hhere _)
      (fun _ _ hc => absurd hc hm) (fun _ _ _ => (grafts_sat g id).mono ?_ ?_)
    · intro _ g' hg
      have hw := hg.wellFormed h.acyclic (fun _ hd => hd) h.closed
      refine ⟨⟨closed_delete hw.closed fun y hy =>
        absurd hy (hg.no_dependents h.acyclic y), ?_⟩, ?_⟩
      · exact cascaded_delete.acyclic hw.acyclic
      · exact hg.version ▸ Nat.le_succ _
    · rintro e g' ⟨done, d, rest, hl, hg, -, state, rfl⟩
      have hsub : ∀ x ∈ done, x ∈ g.dependentsOf id := fun x hx => by rw [hl]; simp [hx]
      exact ⟨⟨hg.wellFormed h.acyclic hsub h.closed, hg.version.ge⟩, by simp⟩

theorem depsOf_set {node : GraphNode} :
    depsOf { g with nodes := g.nodes.set id node } y =
      if id = y then node.dependencies else g.depsOf y := by
  unfold depsOf
  simp only [OrdMap.get?_set]
  split_ifs <;> rfl

theorem addNode_sat (g : WorkflowGraph) (input : NodeInput) :
    Sat (addNode input) g
      (fun _ g' => g'.graphVersion = g.graphVersion + 1 ∧ (WellFormed g → WellFormed g'))
      (fun e g' => g' = g ∧ e ≠ .callDepth) := by
  unfold addNode
  rw [sat_bind, sat_get]
  by_cases hh : g.nodes.has input.id = true
  · simp only [if_pos hh]
    exact ⟨rfl, by simp⟩
  simp only [if_neg hh]
  have hnew : input.id ∉ g.nodes.keys := fun hk => hh (OrdMap.has_iff.mpr hk)
  refine sat_bind.mpr ((sat_foldlM (fun done _ g' => g' = g ∧ ∀ d ∈ done, d ∈ g.nodes.keys)
    ⟨rfl, by simp⟩ ?_).mono ?_ fun _ _ he => he)
  · rintro done d rest ⟨⟩ g' - ⟨rfl, hdone⟩
    refine sat_bind.mpr (sat_requireNode (fun node hn => ⟨rfl, fun x hx => ?_⟩)
      fun _ => ⟨rfl, by simp⟩)
    rcases List.mem_append.mp hx with hx | hx
    · exact hdone x hx
    · rw [List.mem_singleton.mp hx]; exact OrdMap.mem_keys.mpr ⟨node, hn⟩
  rintro _ g' ⟨rfl, hdeps⟩
  refine ⟨rfl, fun h => ?_⟩
  have hdep : ∀ a b, b ∈ depsOf { g' with nodes := g'.nodes.set input.id input.node } a →
      (a = input.id ∧ b ∈ g'.nodes.keys) ∨ b ∈ g'.depsOf a := by
    intro a b hb
    rw [depsOf_set] at hb
    split_ifs at hb with he
    · exact .inl ⟨he.symm, hdeps b hb⟩
    · exact .inr hb
  refine ⟨fun a b hb => ?_, fun x hx => ?_⟩
  · refine OrdMap.mem_keys_set.mpr (.inr ?_)
    rcases hdep a b hb with ⟨-, hk⟩ | hb
    · exact hk
    · exact h.closed a b hb
  · -- nothing depends on the new node, so a cycle does not pass it
    have hold : ∀ b, TransGen (DependsOn (depsOf
        { g' with nodes := g'.nodes.set input.id input.node })) x b →
        b ∈ g'.nodes.keys ∧ (x ≠ input.id → TransGen (Edge g') x b) := by
      intro b hb
      induction hb with
      | single hab =>
        rcases hdep x _ hab with ⟨he, hk⟩ | hb
        · exact ⟨hk, fun hne => absurd he hne⟩
        · exact ⟨h.closed _ _ hb, fun _ => .single hb⟩
      | @tail b' c _ hbc ih =>
        have hne : b' ≠ input.id := fun he => hnew (he ▸ ih.1)
        rcases hdep _ _ hbc with ⟨he, -⟩ | hb
        · exact absurd he hne
        · exact ⟨h.closed _ _ hb, fun hx => (ih.2 hx).tail hb⟩
    obtain ⟨hk, hcyc⟩ := hold x hx
    exact h.acyclic x (hcyc fun he => hnew (he ▸ hk))

/-- Writing back the dependencies a node had before undoes a change of them. -/
theorem setDependencies_undo {node : GraphNode} {deps : List String}
    (hn : g.nodes.get? id = some node) :
    (g.setDependencies id deps).setDependencies id node.dependencies = g := by
  unfold setDependencies
  simp only [hn, OrdMap.get?_set_self, OrdMap.set_set]
  rw [OrdMap.set_of_get? (by rw [hn])]

theorem addEdge_sat (g : WorkflowGraph) (fromId toId : String) :
    Sat (addEdge fromId toId) g
      (fun _ g' => g'.graphVersion = g.graphVersion + 1 ∧ (WellFormed g → WellFormed g'))
      (fun e g' => g' = g ∧ e ≠ .callDepth) := by
  have hhere : ∀ e, g = g ∧ Thrown.edit e ≠ .callDepth := fun e => ⟨rfl, by simp⟩
  unfold addEdge
  refine sat_bind.mpr (sat_requireNode (fun fromNode hfrom => ?_) fun _ => hhere _)
  refine sat_bind.mpr (sat_requireNode (fun target hn => ?_) fun _ => hhere _)
  refine sat_bind.mpr (sat_guardEditable (fun _ => ?_) fun _ => hhere _)
  have hkey : toId ∈ g.nodes.keys := OrdMap.mem_keys.mpr ⟨target, hn⟩
  have hfromKey : fromId ∈ g.nodes.keys := OrdMap.mem_keys.mpr ⟨fromNode, hfrom⟩
  by_cases hdup : fromId ∈ target.dependencies
  · simp only [if_pos hdup]
    exact hhere _
  simp only [if_neg hdup]
  rw [sat_bind, sat_modify, sat_bind, sat_get]
  rcases hc : (g.setDependencies toId (target.dependencies ++ [fromId])).findCycle with _ | cycle
  · refine ⟨congrArg (· + 1) version_setDependencies, fun h =>
      ⟨fun a b hb => mem_keys_setDependencies.mpr ?_, acyclic_of_findCycle hc⟩⟩
    replace hb : b ∈ (g.setDependencies toId (target.dependencies ++ [fromId])).depsOf a := hb
    rw [depsOf_setDependencies hkey] at hb
    split_ifs at hb with he
    · rcases List.mem_append.mp hb with hb | hb
      · exact h.closed toId b (by rwa [depsOf_of_get? hn])
      · exact List.mem_singleton.mp hb ▸ hfromKey
    · exact h.closed a b hb
  · -- the edge is taken back
    have hback : (g.setDependencies toId (target.dependencies ++ [fromId])).setDependencies toId
        ((g.setDependencies toId (target.dependencies ++ [fromId])).depsOf toId).dropLast = g := by
      rw [depsOf_setDependencies hkey, if_pos rfl, List.dropLast_concat]
      exact setDependencies_undo hn
    exact ⟨hback, by simp⟩

theorem removeEdge_sat (g : WorkflowGraph) (fromId toId : String) :
    Sat (removeEdge fromId toId) g
      (fun _ g' => g'.graphVersion = g.graphVersion + 1 ∧ (WellFormed g → WellFormed g'))
      (fun e g' => g' = g ∧ e ≠ .callDepth) := by
  have hhere : ∀ e, g = g ∧ Thrown.edit e ≠ .callDepth := fun e => ⟨rfl, by simp⟩
  unfold removeEdge
  refine sat_bind.mpr (sat_requireNode (fun target hn => ?_) fun _ => hhere _)
  refine sat_bind.mpr (sat_guardEditable (fun _ => ?_) fun _ => hhere _)
  have hkey : toId ∈ g.nodes.keys := OrdMap.mem_keys.mpr ⟨target, hn⟩
  have hdep : ∀ a b, b ∈ (g.setDependencies toId
      (target.dependencies.filter fun dep => decide (dep ≠ fromId))).depsOf a → b ∈ g.depsOf a := by
    intro a b hb
    rw [depsOf_setDependencies hkey] at hb
    split_ifs at hb with he
    · rw [← he, depsOf_of_get? hn]; exact (List.mem_filter.mp hb).1
    · exact hb
  exact ⟨congrArg (· + 1) version_setDependencies, fun h =>
    ⟨fun a b hb => mem_keys_setDependencies.mpr (h.closed a b (hdep a b hb)),
      h.acyclic.of_edges fun a b hb => .single (hdep a b hb)⟩⟩

/-- **The step lemma**: every call keeps a well-formed graph and does not lower the version; the
call stack is never used up. -/
theorem lawful_perform (h : WellFormed g) (op : GraphOp) :
    Sat (perform op) g (fun _ g' => Lawful g g')
      (fun e g' => Lawful g g' ∧ e ≠ .callDepth) := by
  have hok : ∀ (x : Unit) (g' : WorkflowGraph), g'.graphVersion = g.graphVersion + 1 ∧
      (WellFormed g → WellFormed g') → Lawful g g' :=
    fun _ _ hx => ⟨hx.2 h, by rw [hx.1]; exact Nat.le_succ _⟩
  have herr : ∀ e g', g' = g ∧ e ≠ Thrown.callDepth → Lawful g g' ∧ e ≠ .callDepth :=
    fun _ _ he => ⟨by rw [he.1]; exact .refl h, he.2⟩
  cases op with
  | addNode input => exact (addNode_sat g input).mono hok herr
  | addEdge fromId toId => exact (addEdge_sat g fromId toId).mono hok herr
  | removeEdge fromId toId => exact (removeEdge_sat g fromId toId).mono hok herr
  | removeNode id mode => exact sat_bind.mpr (removeNode_lawful h id mode)
  | attachStateLookup lookup => exact ⟨⟨h.closed, h.acyclic⟩, le_rfl⟩
  | markExecutionStarted => exact ⟨⟨h.closed, h.acyclic⟩, le_rfl⟩

end Norns.Graph.Structure
