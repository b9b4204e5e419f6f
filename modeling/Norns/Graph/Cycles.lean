import Norns.Graph.Structure

/-! # The refusal of cycles

`validatePlan` accepts a plan if and only if it is valid, and what the two searches return is a cycle.
`addEdge` looks for a cycle in the graph with the new edge, once the node, the target and the edge have
passed the other guards.

* `TransGen.through`: a path in a relation with one more edge;
* `addEdge_cycle_iff`: when an edge is refused as a cycle;
* `cycles_exact`: all three together. -/

namespace Norns.Graph.Cycles

open Relation Norns.Lib Norns.Lib.Edit Norns.Lib.Cycle
open Norns.Contracts.Plan (PlanContract PlanModule SchemaIssue Depends validatePlan validatePlan_iff)
open Norns.Graph.Workflow Norns.Graph.Workflow.WorkflowGraph Norns.Graph.Structure

variable {g : WorkflowGraph} {fromId toId : String}

/-- A path in a relation with the edge from `t` to `f` goes without it, or over `t` and on from `f`. -/
theorem TransGen.through {α : Type} {r r' : α → α → Prop} {t f : α}
    (hr : ∀ a b, r' a b → r a b ∨ (a = t ∧ b = f)) {x y : α} (h : TransGen r' x y) :
    TransGen r x y ∨ (ReflTransGen r x t ∧ ReflTransGen r f y) := by
  induction h with
  | single hxy =>
    rcases hr _ _ hxy with hold | ⟨rfl, rfl⟩
    · exact .inl (.single hold)
    · exact .inr ⟨.refl, .refl⟩
  | tail _ hbc ih =>
    rcases hr _ _ hbc with hold | ⟨rfl, rfl⟩
    · rcases ih with hpath | ⟨ht, hf⟩
      · exact .inl (hpath.tail hold)
      · exact .inr ⟨ht, hf.tail hold⟩
    · rcases ih with hpath | ⟨ht, -⟩
      · exact .inr ⟨hpath.to_reflTransGen, .refl⟩
      · exact .inr ⟨ht, .refl⟩

/-- The graph while `addEdge` looks for a cycle. -/
def withEdge (g : WorkflowGraph) (fromId toId : String) : WorkflowGraph :=
  g.setDependencies toId (g.depsOf toId ++ [fromId])

theorem mem_depsOf_withEdge (hkey : toId ∈ g.nodes.keys) {a b : String} :
    b ∈ (withEdge g fromId toId).depsOf a ↔ b ∈ g.depsOf a ∨ (a = toId ∧ b = fromId) := by
  unfold withEdge
  rw [depsOf_setDependencies hkey]
  split_ifs with h
  · subst h
    simp
  · simp [Ne.symm h]

/-- The new edge closes a cycle if its target is reached from its source; other cycles were there before. -/
theorem acyclic_withEdge_iff (hkey : toId ∈ g.nodes.keys) :
    Acyclic (withEdge g fromId toId) ↔ ¬ ReflTransGen (Edge g) fromId toId ∧ Acyclic g := by
  have hold : ∀ a b, Edge g a b → Edge (withEdge g fromId toId) a b := fun a b hab =>
    (mem_depsOf_withEdge hkey).mpr (.inl hab)
  have hnew : Edge (withEdge g fromId toId) toId fromId := (mem_depsOf_withEdge hkey).mpr (.inr ⟨rfl, rfl⟩)
  constructor
  · intro h
    refine ⟨fun hpath => h toId ?_, fun x hx => h x (TransGen.mono hold _ _ hx)⟩
    exact TransGen.head' hnew (ReflTransGen.mono hold _ _ hpath)
  · rintro ⟨hpath, ha⟩ x hx
    rcases TransGen.through (fun a b hab => (mem_depsOf_withEdge hkey).mp hab) hx with hcycle | ⟨ht, hf⟩
    · exact ha x hcycle
    · exact hpath (hf.trans ht)

/-- The search finds a path in precisely the graphs with a cycle. -/
theorem findCycle_iff : (∃ path, g.findCycle = some path) ↔ ¬ Acyclic g := by
  constructor
  · rintro ⟨path, hpath⟩ ha
    obtain ⟨x, hx⟩ := (isCycle_of_findCycle hpath).transGen
    exact ha x hx
  · intro h
    rcases hc : g.findCycle with _ | path
    · exact absurd (acyclic_of_findCycle hc) h
    · exact ⟨path, rfl⟩

/-- The guards that come before the search. -/
structure Guarded (g : WorkflowGraph) (fromId toId : String) : Prop where
  source : fromId ∈ g.nodes.keys
  target : toId ∈ g.nodes.keys
  editable : g.editable toId = true
  fresh : fromId ∉ g.depsOf toId

/-- The edge is refused as a cycle. -/
def RefusedAsCycle (g : WorkflowGraph) (fromId toId : String) : Prop :=
  ∃ path, thrown? (addEdge fromId toId g) = some (.edit (.cycle fromId toId path))

/-- What `addEdge` has found when it returns, and when it throws. -/
theorem addEdge_sat_iff (g : WorkflowGraph) (fromId toId : String) :
    Sat (addEdge fromId toId) g
      (fun _ _ => ¬ (Guarded g fromId toId ∧ ¬ Acyclic (withEdge g fromId toId)))
      (fun e _ => (∃ path, e = .edit (.cycle fromId toId path)) ↔
        Guarded g fromId toId ∧ ¬ Acyclic (withEdge g fromId toId)) := by
  unfold addEdge
  refine sat_bind.mpr (sat_requireNode (fun source hsource => ?_) fun hnone => ?_)
  swap
  · refine iff_of_false (by simp) fun h => ?_
    exact OrdMap.get?_eq_none.mp hnone h.1.source
  refine sat_bind.mpr (sat_requireNode (fun target htarget => ?_) fun hnone => ?_)
  swap
  · refine iff_of_false (by simp) fun h => ?_
    exact OrdMap.get?_eq_none.mp hnone h.1.target
  refine sat_bind.mpr (sat_guardEditable (fun heditable => ?_) fun hstarted => ?_)
  swap
  · refine iff_of_false (by simp) fun h => ?_
    rw [h.1.editable] at hstarted
    cases hstarted
  have hdeps : g.depsOf toId = target.dependencies := depsOf_of_get? htarget
  by_cases hdup : fromId ∈ target.dependencies
  · simp only [if_pos hdup]
    refine iff_of_false (by simp) fun h => ?_
    exact h.1.fresh (hdeps ▸ hdup)
  simp only [if_neg hdup]
  rw [sat_bind, sat_modify, sat_bind, sat_get]
  have hwith : g.setDependencies toId (target.dependencies ++ [fromId]) = withEdge g fromId toId := by
    unfold withEdge
    rw [hdeps]
  rw [hwith]
  rcases hc : (withEdge g fromId toId).findCycle with _ | cycle
  · intro h
    exact h.2 (acyclic_of_findCycle hc)
  · refine iff_of_true ⟨cycle, rfl⟩ ⟨⟨?_, ?_, heditable, hdeps ▸ hdup⟩, findCycle_iff.mp ⟨cycle, hc⟩⟩
    · exact OrdMap.mem_keys.mpr ⟨source, hsource⟩
    · exact OrdMap.mem_keys.mpr ⟨target, htarget⟩

/-- **When an edge is refused as a cycle.** -/
theorem addEdge_cycle_iff : RefusedAsCycle g fromId toId ↔
    Guarded g fromId toId ∧ (ReflTransGen (Edge g) fromId toId ∨ ¬ Acyclic g) := by
  have hcyclic : Guarded g fromId toId → (¬ Acyclic (withEdge g fromId toId) ↔
      ReflTransGen (Edge g) fromId toId ∨ ¬ Acyclic g) := by
    intro h
    rw [acyclic_withEdge_iff h.target]
    tauto
  have hsat := addEdge_sat_iff g fromId toId
  unfold RefusedAsCycle
  rw [← and_congr_right hcyclic]
  rcases hrun : addEdge fromId toId g with ⟨a, g'⟩ | ⟨e, g'⟩
  · exact iff_of_false (by simp [thrown?]) (hsat.of_ok hrun)
  · rw [← hsat.of_error hrun]
    simp [thrown?]

/-- A plan is accepted if its ids are distinct, its dependencies are modules, and no module depends on itself. -/
theorem accepted_iff {Input : Type} {safeParse : Input → Except (List SchemaIssue) PlanContract}
    {input : Input} {plan : PlanContract} (hp : safeParse input = .ok plan) :
    (∃ accepted, validatePlan safeParse input = .ok accepted) ↔
      (plan.modules.map PlanModule.id).Nodup ∧
        (∀ a b, Depends plan.modules a b → b ∈ plan.modules.map PlanModule.id) ∧
        ∀ id, ¬ TransGen (Depends plan.modules) id id := by
  constructor
  · rintro ⟨accepted, h⟩
    rw [Contracts.Plan.validatePlan_same hp h] at h
    obtain ⟨hdistinct, hknown, hacyclic⟩ := (validatePlan_iff hp).mp h
    refine ⟨hdistinct, ?_, fun id hid => hacyclic id (TransGen.mono ?_ _ _ hid)⟩
    · rintro a b ⟨mod, hm, -, hb⟩
      exact hknown mod hm b hb
    · exact fun a b hab => (Contracts.Plan.mem_depsOf_iff hdistinct).mpr hab
  · rintro ⟨hdistinct, hknown, hacyclic⟩
    refine ⟨plan, (validatePlan_iff hp).mpr ⟨hdistinct, fun mod hm b hb => ?_, fun id hid => ?_⟩⟩
    · exact hknown mod.id b ⟨mod, hm, rfl, hb⟩
    · exact hacyclic id (TransGen.mono (fun a b hab => Contracts.Plan.mem_depsOf hab) _ _ hid)

/-- **Plans and edges are refused for the cycles there are.** -/
theorem cycles_exact :
    (∀ (Input : Type) (safeParse : Input → Except (List SchemaIssue) PlanContract) (input : Input)
      (plan : PlanContract), safeParse input = .ok plan →
        ((∃ accepted, validatePlan safeParse input = .ok accepted) ↔
          (plan.modules.map PlanModule.id).Nodup ∧
            (∀ a b, Depends plan.modules a b → b ∈ plan.modules.map PlanModule.id) ∧
            ∀ id, ¬ TransGen (Depends plan.modules) id id)) ∧
    (∀ (modules : List PlanModule) (path : List String),
      Contracts.Plan.findCycle modules = some path → IsCycle (Depends modules) path) ∧
    (∀ (g : WorkflowGraph) (path : List String), g.findCycle = some path → IsCycle (Edge g) path) ∧
    ∀ (g : WorkflowGraph) (fromId toId : String), RefusedAsCycle g fromId toId ↔
      Guarded g fromId toId ∧ (ReflTransGen (Edge g) fromId toId ∨ ¬ Acyclic g) :=
  ⟨fun _ _ _ _ => accepted_iff, fun _ _ => Contracts.Plan.isCycle_of_findCycle,
    fun _ _ => isCycle_of_findCycle, fun _ _ _ => addEdge_cycle_iff⟩

/-- Two modules, the second of which depends on the first. -/
def pairPlan : PlanContract :=
  ⟨[⟨"x", "x", [], .M, .low, false⟩, ⟨"a", "a", ["x"], .M, .low, false⟩]⟩

theorem cycles_exact_pairPlan :
    (∃ accepted, validatePlan Except.ok pairPlan = .ok accepted) ↔
      (pairPlan.modules.map PlanModule.id).Nodup ∧
        (∀ a b, Depends pairPlan.modules a b → b ∈ pairPlan.modules.map PlanModule.id) ∧
        ∀ id, ¬ TransGen (Depends pairPlan.modules) id id :=
  cycles_exact.1 PlanContract Except.ok pairPlan pairPlan rfl

/-- While `x` runs, the edge from `a` to `x` is refused because `x` has started, not as a cycle. -/
theorem started_target_not_cycle :
    ¬ ∀ (g : WorkflowGraph) (fromId toId : String), RefusedAsCycle g fromId toId ↔
      TransGen (fun a b => Edge g a b ∨ (a = toId ∧ b = fromId)) toId toId := by
  intro hall
  have hcycle : TransGen (fun a b => Edge ((fromPlan pairPlan).attachStateLookup
      fun _ => .running).markExecutionStarted a b ∨ (a = "x" ∧ b = "a")) "x" "x" :=
    (TransGen.single (.inr ⟨rfl, rfl⟩)).tail
      (.inl (show "x" ∈ WorkflowGraph.depsOf _ "a" by decide))
  obtain ⟨path, hpath⟩ := (hall _ "a" "x").mpr hcycle
  have hthrown : thrown? (addEdge "a" "x" ((fromPlan pairPlan).attachStateLookup
      fun _ => .running).markExecutionStarted) = some (.edit (.node_started "x" .running)) := rfl
  rw [hthrown] at hpath
  cases hpath

end Norns.Graph.Cycles
