import Norns.Graph.Allocation

/-! # The recommendations of the project manager

`applyPmAllocation` writes the assignments node by node and throws at the first node that is not overridden and
has no recommendation the parser admits. What it wrote before stays.

* `applyPmAllocation_written`: the loop lemma, with what was written before a throw;
* `allOrNothing_iff`: when a call gives all nodes their assignment or changes none. -/

namespace Norns.Graph.PmAllocation

open Norns.Lib Norns.Lib.Edit
open Norns.Contracts.Plan (PlanContract)
open Norns.Graph.Workflow Norns.Graph.Workflow.WorkflowGraph Norns.Graph.Structure Norns.Graph.Assignment
open Norns.Graph.Allocation

variable {g g' : WorkflowGraph} {recommendations : List PmAssignmentRecommendation}
  {done rest : List (String × GraphNode)} {e : String × GraphNode}

section

variable (recommendations : List PmAssignmentRecommendation)

/-- The assignment that a node is recommended, if the parser admits it. -/
def recommended (id : String) : Option NodeAssignment :=
  ((OrdMap.ofList (recommendations.map fun r => (r.node_id, r))).get? id).bind fun r =>
    r.assignment.parse.toOption

/-- The node is to get an assignment, and there is none. -/
def Misses (e : String × GraphNode) : Prop :=
  overridden e.2 = false ∧ recommended recommendations e.1 = none

def allocated (e : String × GraphNode) : GraphNode :=
  if overridden e.2 then e.2
  else match recommended recommendations e.1 with
    | some a => { e.2 with assignment := some a }
    | none => e.2

/-- The graph once the nodes `done` are allocated. -/
structure Written (g : WorkflowGraph) (done : List (String × GraphNode)) (g' : WorkflowGraph) : Prop where
  keys : g'.nodes.keys = g.nodes.keys
  written : ∀ e ∈ done, g'.nodes.get? e.1 = some (allocated recommendations e)
  left : ∀ id, id ∉ done.map Prod.fst → g'.nodes.get? id = g.nodes.get? id

/-- A call leaves overridden nodes alone, and gives every other node what it is recommended or none anything. -/
def AllOrNothing (g : WorkflowGraph) : Prop :=
  Sat (applyPmAllocation recommendations) g
    (fun _ g' => ∀ id node, g.nodes.get? id = some node →
      (overridden node = true → g'.nodes.get? id = some node) ∧
      (overridden node = false → ∃ a, recommended recommendations id = some a ∧ a.source = .pm ∧
        g'.nodes.get? id = some { node with assignment := some a }))
    (fun _ g' =>
      (∀ id node, g.nodes.get? id = some node → overridden node = true → g'.nodes.get? id = some node) ∧
      (∀ id, (g'.nodes.get? id).map GraphNode.assignment = (g.nodes.get? id).map GraphNode.assignment) ∧
      ∀ host, allocationFingerprint host g' = allocationFingerprint host g)

/-- The nodes before the first that misses its assignment are overridden or have already got theirs. -/
def Prepared (g : WorkflowGraph) : Prop :=
  ∀ done e rest, g.nodes.entries = done ++ e :: rest → Misses recommendations e →
    (∀ b ∈ done, ¬ Misses recommendations b) →
      ∀ b ∈ done, overridden b.2 = true ∨ b.2.assignment = recommended recommendations b.1

end

/-! ### The loop -/

theorem recommended_source {id : String} {a : NodeAssignment}
    (h : recommended recommendations id = some a) : a.source = .pm := by
  unfold recommended at h
  obtain ⟨r, -, hparse⟩ := Option.bind_eq_some_iff.mp h
  unfold NodeAssignment.parse at hparse
  split at hparse
  · cases hparse
    rfl
  · cases hparse

theorem allocated_overridden (h : overridden e.2 = true) : allocated recommendations e = e.2 := by
  unfold allocated
  rw [if_pos h]

theorem allocated_recommended (h : overridden e.2 = false) {a : NodeAssignment}
    (ha : recommended recommendations e.1 = some a) :
    allocated recommendations e = { e.2 with assignment := some a } := by
  unfold allocated
  rw [if_neg (by simp [h]), ha]

theorem Written.start (g : WorkflowGraph) : Written recommendations g [] g :=
  ⟨rfl, by simp, fun _ _ => rfl⟩

/-- An overridden node is passed over. -/
theorem Written.pass (h : Written recommendations g done g') (hget : g'.nodes.get? e.1 = some e.2)
    (ho : overridden e.2 = true) : Written recommendations g (done ++ [e]) g' where
  keys := h.keys
  written b hb := by
    rcases List.mem_append.mp hb with hb | hb
    · exact h.written b hb
    · rw [List.mem_singleton.mp hb, allocated_overridden ho]
      exact hget
  left id hid := h.left id fun hm => hid (by rw [List.map_append]; exact List.mem_append_left _ hm)

theorem Written.assign (h : Written recommendations g done g') (hget : g'.nodes.get? e.1 = some e.2)
    (hnew : e.1 ∉ done.map Prod.fst) (ho : overridden e.2 = false) {a : NodeAssignment}
    (ha : recommended recommendations e.1 = some a) :
    Written recommendations g (done ++ [e]) (setAssignment g' e.1 a) := by
  have hset : ∀ id, (setAssignment g' e.1 a).nodes.get? id =
      if e.1 = id then some { e.2 with assignment := some a } else g'.nodes.get? id := by
    intro id
    unfold setAssignment
    rw [hget]
    exact OrdMap.get?_set _ _ _ _
  refine ⟨(reassigned_setAssignment g' e.1 a).keys.trans h.keys, fun b hb => ?_, fun id hid => ?_⟩
  · rw [hset]
    rcases List.mem_append.mp hb with hb | hb
    · have hne : ¬ e.1 = b.1 := fun heq => hnew (heq ▸ List.mem_map_of_mem hb)
      rw [if_neg hne]
      exact h.written b hb
    · rw [List.mem_singleton.mp hb, if_pos rfl, allocated_recommended ho ha]
  · rw [List.map_append, List.mem_append, not_or] at hid
    rw [hset, if_neg fun heq => hid.2 (by simp [heq])]
    exact h.left id hid.1

/-- **The loop lemma**: a return has allocated every node, a throw those before the first that misses. -/
theorem applyPmAllocation_written (recommendations : List PmAssignmentRecommendation) (g : WorkflowGraph) :
    Sat (applyPmAllocation recommendations) g
      (fun _ g' => Written recommendations g g.nodes.entries g' ∧
        ∀ e ∈ g.nodes.entries, ¬ Misses recommendations e)
      (fun _ g' => ∃ done e rest, g.nodes.entries = done ++ e :: rest ∧ Misses recommendations e ∧
        (∀ b ∈ done, ¬ Misses recommendations b) ∧ Written recommendations g done g') := by
  unfold applyPmAllocation
  rw [sat_bind, sat_get]
  refine sat_foldlM (fun done _ g' => Written recommendations g done g' ∧
    ∀ b ∈ done, ¬ Misses recommendations b) ⟨.start g, by simp⟩ ?_
  rintro done e rest ⟨⟩ g' hl ⟨hwritten, hbefore⟩
  replace hl : g.nodes.entries = done ++ e :: rest := hl
  have hnew : e.1 ∉ done.map Prod.fst := by
    have hnodup := g.nodes.nodup
    rw [hl, List.map_append, List.map_cons] at hnodup
    exact fun hm => List.disjoint_of_nodup_append hnodup hm List.mem_cons_self
  have hget : g'.nodes.get? e.1 = some e.2 := by
    rw [hwritten.left e.1 hnew]
    exact OrdMap.mem_entries.mp (by rw [hl]; simp)
  have hsnoc : ∀ {b}, ¬ Misses recommendations e → b ∈ done ++ [e] → ¬ Misses recommendations b := by
    intro b he hb
    rcases List.mem_append.mp hb with hb | hb
    · exact hbefore b hb
    · rw [List.mem_singleton.mp hb]
      exact he
  rw [sat_bind, sat_get]
  simp only [node, hget]
  by_cases ho : overridden e.2 = true
  · simp only [if_pos ho]
    exact ⟨hwritten.pass hget ho, fun b hb => hsnoc (fun hm => by simp [hm.1] at ho) hb⟩
  · simp only [if_neg ho]
    have hfree : overridden e.2 = false := by simpa using ho
    rcases hr : (OrdMap.ofList (recommendations.map fun r => (r.node_id, r))).get? e.1 with _ | r
    · simp only [hr]
      refine ⟨done, e, rest, hl, ⟨hfree, ?_⟩, hbefore, hwritten⟩
      unfold recommended
      rw [hr]
      rfl
    · simp only [hr]
      refine sat_bind.mpr (sat_parsed (fun a ha => ?_) fun error herror => ?_)
      · have hrecommended : recommended recommendations e.1 = some a := by
          unfold recommended
          rw [hr, Option.bind_some, ha]
          rfl
        rw [sat_modify]
        refine ⟨hwritten.assign hget hnew hfree hrecommended, fun b hb => hsnoc (fun hm => ?_) hb⟩
        rw [hm.2] at hrecommended
        cases hrecommended
      · refine ⟨done, e, rest, hl, ⟨hfree, ?_⟩, hbefore, hwritten⟩
        unfold recommended
        rw [hr, Option.bind_some, herror]
        rfl

/-! ### All or nothing -/

/-- The first element with a property is where it is. -/
theorem first_unique {α : Type} {p : α → Prop} {before before' after after' : List α} {a a' : α}
    (h : before ++ a :: after = before' ++ a' :: after') (ha : p a) (ha' : p a')
    (hbefore : ∀ b ∈ before, ¬ p b) (hbefore' : ∀ b ∈ before', ¬ p b) : before = before' := by
  rcases List.append_eq_append_iff.mp h with ⟨l, rfl, hl⟩ | ⟨l, rfl, hl⟩
  · cases l with
    | nil => rw [List.append_nil]
    | cons b l =>
      cases hl
      exact absurd ha (hbefore' a (by simp))
  · cases l with
    | nil => rw [List.append_nil]
    | cons b l =>
      cases hl
      exact absurd ha' (hbefore a' (by simp))

/-- The allocation follows from the keys and what they map to. -/
theorem allocation_congr (hkeys : g'.nodes.keys = g.nodes.keys)
    (h : ∀ id, (g'.nodes.get? id).map GraphNode.assignment = (g.nodes.get? id).map GraphNode.assignment) :
    allocation g' = allocation g := by
  have hread : ∀ g : WorkflowGraph, allocation g =
      g.nodes.keys.map fun id => (id, ((g.nodes.get? id).map GraphNode.assignment).join) := by
    intro g
    unfold allocation OrdMap.keys
    rw [List.map_map]
    refine List.map_congr_left fun e he => ?_
    have hget : g.nodes.get? e.1 = some e.2 := OrdMap.mem_entries.mp he
    simp [hget]
  rw [hread, hread, hkeys]
  refine List.map_congr_left fun id _ => ?_
  rw [h]

theorem get_entry (he : e ∈ g.nodes.entries) : g.nodes.get? e.1 = some e.2 := OrdMap.mem_entries.mp he

theorem prepared_of_allOrNothing (h : AllOrNothing recommendations g) : Prepared recommendations g := by
  intro done e rest hl he hbefore b hb
  have hwritten := applyPmAllocation_written recommendations g
  unfold AllOrNothing at h
  rcases hrun : applyPmAllocation recommendations g with ⟨_, g'⟩ | ⟨error, g'⟩
  · exact absurd he ((hwritten.of_ok hrun).2 e (by rw [hl]; simp))
  · obtain ⟨done', e', rest', hl', he', hbefore', hstate⟩ := hwritten.of_error hrun
    have hdone := first_unique (hl.symm.trans hl') he he' hbefore hbefore'
    subst hdone
    have hsame := (h.of_error hrun).2.1 b.1
    rw [hstate.written b hb, get_entry (by rw [hl]; simp [hb])] at hsame
    by_cases ho : overridden b.2 = true
    · exact .inl ho
    · right
      have hfree : overridden b.2 = false := by simpa using ho
      rcases hr : recommended recommendations b.1 with _ | a
      · exact absurd ⟨hfree, hr⟩ (hbefore b hb)
      · rw [allocated_recommended hfree hr] at hsame
        exact (Option.some.inj hsame).symm

theorem allOrNothing_of_prepared (h : Prepared recommendations g) : AllOrNothing recommendations g := by
  unfold AllOrNothing
  refine (applyPmAllocation_written recommendations g).mono ?_ ?_
  · rintro ⟨⟩ g' ⟨hstate, hnone⟩ id node hnode
    have hentry : (id, node) ∈ g.nodes.entries := OrdMap.mem_entries.mpr hnode
    have hget := hstate.written _ hentry
    refine ⟨fun ho => ?_, fun ho => ?_⟩
    · rw [hget, allocated_overridden ho]
    · rcases hr : recommended recommendations id with _ | a
      · exact absurd ⟨ho, hr⟩ (hnone _ hentry)
      · exact ⟨a, rfl, recommended_source hr, by rw [hget, allocated_recommended ho hr]⟩
  · rintro error g' ⟨done, e, rest, hl, he, hbefore, hstate⟩
    have hsame : ∀ id, g'.nodes.get? id = g.nodes.get? id := by
      intro id
      by_cases hid : id ∈ done.map Prod.fst
      · obtain ⟨b, hb, rfl⟩ := List.mem_map.mp hid
        rw [hstate.written b hb, get_entry (by rw [hl]; simp [hb])]
        rcases h done e rest hl he hbefore b hb with ho | hassigned
        · rw [allocated_overridden ho]
        · by_cases ho : overridden b.2 = true
          · rw [allocated_overridden ho]
          · have hfree : overridden b.2 = false := by simpa using ho
            rcases hr : recommended recommendations b.1 with _ | a
            · exact absurd ⟨hfree, hr⟩ (hbefore b hb)
            · rw [allocated_recommended hfree hr, ← hr, ← hassigned]
      · exact hstate.left id hid
    have hassignments : ∀ id, (g'.nodes.get? id).map GraphNode.assignment =
        (g.nodes.get? id).map GraphNode.assignment := fun id => congrArg _ (hsame id)
    refine ⟨fun id node hnode _ => (hsame id).trans hnode, hassignments, fun host => ?_⟩
    exact fingerprint_congr host g' g (allocation_congr hstate.keys hassignments)

/-- **When a call is all or nothing.** -/
theorem allOrNothing_iff : AllOrNothing recommendations g ↔ Prepared recommendations g :=
  ⟨prepared_of_allOrNothing, allOrNothing_of_prepared⟩

/-! ### A recommendation for the first of two nodes -/

def pairPlan : PlanContract :=
  ⟨[⟨"a", "a", [], .M, .low, false⟩, ⟨"b", "b", [], .M, .low, false⟩]⟩

def firstOnly : List PmAssignmentRecommendation :=
  [⟨"a", .anthropic, "claude-sonnet-5", none, 1, "gpt-5.6-terra", 12, "Recommended."⟩]

/-- The first node keeps its new assignment when the second is found to have no recommendation. -/
theorem firstOnly_not_allOrNothing :
    ¬ ∀ (recommendations : List PmAssignmentRecommendation) (g : WorkflowGraph),
      AllOrNothing recommendations g := by
  intro hall
  have h := prepared_of_allOrNothing (hall firstOnly (fromPlan pairPlan))
  have hentries : (fromPlan pairPlan).nodes.entries =
      [("a", nodeOfModule ⟨"a", "a", [], .M, .low, false⟩)] ++
        ("b", nodeOfModule ⟨"b", "b", [], .M, .low, false⟩) :: [] := rfl
  have hmissing : Misses firstOnly ("b", nodeOfModule ⟨"b", "b", [], .M, .low, false⟩) := ⟨rfl, rfl⟩
  rcases h _ _ _ hentries hmissing (by
    intro b hb hm
    rw [List.mem_singleton.mp hb] at hm
    cases hm.2) _ (List.mem_singleton_self _) with ho | ha
  · cases ho
  · cases ha

end Norns.Graph.PmAllocation
