import Mathlib.Algebra.Order.Floor.Ring
import Mathlib.Data.Rat.Floor
import Norns.Graph.Structure

/-! # Allocation of a graph's nodes

`graph/allocation.ts`: the rule-based recommendation, the three calls that write assignments, and the
fingerprint that `graph.ts` derives from them. What the code takes from its platform, the hash, the
order of strings and the printing of numbers, is a `Host`.

* `fingerprint_inj`: graphs with one fingerprint have the same nodes with the same assignments;
* `Reassigned`: the calls of this module change assignments and nothing else. -/

namespace Norns.Graph.Allocation

open Norns.Lib Norns.Lib.Edit
open Norns.Contracts.Plan (Complexity RiskLevel)
open Norns.Graph.Workflow Norns.Graph.Workflow.WorkflowGraph Norns.Graph.Assignment
open Norns.Graph.Structure

structure Host where
  /-- The hexadecimal SHA-256 of a text. -/
  sha256 : String → String
  localeCompare : String → String → Ordering
  /-- `String(x)` -/
  numberText : ℚ → String

/-- SHA-256 has no collision, and a printed number can be read back. -/
structure Host.Faithful (host : Host) : Prop where
  sha256 : Function.Injective host.sha256
  numberText : Json.Prints host.numberText

/-! ### The recommendation -/

inductive AllocationStrategy
  | quality | balanced | cost
  deriving DecidableEq, Repr

def AllocationStrategy.text : AllocationStrategy → String
  | .quality => "quality"
  | .balanced => "balanced"
  | .cost => "cost"

def complexityText : Complexity → String
  | .S => "S"
  | .M => "M"
  | .L => "L"
  | .XL => "XL"

def riskText : RiskLevel → String
  | .low => "low"
  | .medium => "medium"
  | .high => "high"
  | .critical => "critical"

/-- `BASE_BUDGET_USD` -/
def baseBudgetUsd : Complexity → ℚ
  | .S => 20
  | .M => 50
  | .L => 120
  | .XL => 250

/-- `RISK_MULTIPLIER` -/
def riskMultiplier : RiskLevel → ℚ
  | .low => 1
  | .medium => 5 / 4
  | .high => 3 / 2
  | .critical => 2

/-- `STRATEGY_BUDGET_FACTOR` -/
def strategyBudgetFactor : AllocationStrategy → ℚ
  | .quality => 3 / 2
  | .balanced => 1
  | .cost => 3 / 5

def reviewerModel : String := "openai-reasoning-default"

def pilotWorkerCap : ℚ := 2

def modelFor (strategy : AllocationStrategy) (complexity : Complexity) : String :=
  match strategy, complexity with
  | .quality, _ => "claude-opus-4-8"
  | .cost, .S => "claude-haiku-4-5"
  | .cost, _ => "claude-sonnet-5"
  | .balanced, .L | .balanced, .XL => "claude-opus-4-8"
  | .balanced, _ => "claude-sonnet-5"

/-- `Math.round` -/
def round (x : ℚ) : ℚ := (⌊x + 1 / 2⌋ : ℤ)

section

variable (host : Host)

def recommend (node : GraphNode) (strategy : AllocationStrategy) :
    Except ParseError NodeAssignment :=
  let budget := round (baseBudgetUsd node.complexity * riskMultiplier node.risk *
    strategyBudgetFactor strategy * 100) / 100
  let workers := if node.parallel_safe && (node.complexity = .XL || node.complexity = .L) then
    pilotWorkerCap else 1
  let model := modelFor strategy node.complexity
  NodeAssignment.parse {
    provider := .anthropic
    model
    reasoning_effort := none
    worker_count := workers
    reviewer_model := reviewerModel
    budget_usd := budget
    rationale := strategy.text ++ " strategy: complexity " ++ complexityText node.complexity ++
      " × risk " ++ riskText node.risk ++ " -> " ++ model ++ ", " ++ host.numberText workers ++
      " worker(s), $" ++ host.numberText budget ++ " budget; reviewed by " ++ reviewerModel ++
      " (cross-provider)."
    source := .auto }

/-! ### Writing assignments -/

/-- What the calls of this module throw. -/
inductive AllocationError
  | parse (e : ParseError)
  | notRecommended (nodeId : String)
  | unknownNode (nodeId : String)
  deriving DecidableEq, Repr

/-- The texts of the two errors the module itself raises; a parser error carries its own. -/
def AllocationError.message : AllocationError → Option String
  | .parse _ => none
  | .notRecommended nodeId =>
    some ("project manager did not recommend an assignment for node \"" ++ nodeId ++ "\"")
  | .unknownNode nodeId => some ("unknown node \"" ++ nodeId ++ "\"")

abbrev Alloc (α : Type) := EStateM AllocationError WorkflowGraph α

/-- The result of a parse, thrown if it failed. -/
def parsed (r : Except ParseError NodeAssignment) : Alloc NodeAssignment :=
  match r with
  | .ok a => return a
  | .error e => throw (.parse e)

/-- Assign `record.assignment` of an existing node. -/
def setAssignment (g : WorkflowGraph) (id : String) (a : NodeAssignment) : WorkflowGraph :=
  match g.nodes.get? id with
  | some node => { g with nodes := g.nodes.set id { node with assignment := some a } }
  | none => g

/-- The human has overridden the assignment of the node. -/
def overridden (record : GraphNode) : Bool :=
  match record.assignment with
  | some a => decide (a.source = .override)
  | none => false

/-- Fills every node that the human has not overridden. -/
def autoAllocate (strategy : AllocationStrategy) : Alloc Unit := do
  (← get).snapshot.nodes.foldlM (fun _ node => do
    match (← get).node node.1 with
    | none => return ()
    | some record =>
      if overridden record then return ()
      else do
        let a ← parsed (recommend host record strategy)
        modify fun g => setAssignment g node.1 a) ()

structure PmAssignmentRecommendation where
  node_id : String
  provider : Provider
  model : String
  reasoning_effort : Option CodexReasoningEffort
  worker_count : ℚ
  reviewer_model : String
  budget_usd : ℚ
  rationale : String
  deriving DecidableEq, Repr

/-- The assignment a recommendation is parsed to. -/
def PmAssignmentRecommendation.assignment (r : PmAssignmentRecommendation) : NodeAssignment where
  provider := r.provider
  model := r.model
  reasoning_effort := r.reasoning_effort
  worker_count := r.worker_count
  reviewer_model := r.reviewer_model
  budget_usd := r.budget_usd
  rationale := r.rationale
  source := .pm

/-- Apply a recommendation to every node that the human has not overridden. -/
def applyPmAllocation (recommendations : List PmAssignmentRecommendation) : Alloc Unit := do
  let byNode := OrdMap.ofList (recommendations.map fun r => (r.node_id, r))
  (← get).snapshot.nodes.foldlM (fun _ node => do
    match (← get).node node.1 with
    | none => return ()
    | some record =>
      if overridden record then return ()
      else match byNode.get? node.1 with
        | none => throw (.notRecommended node.1)
        | some recommendation => do
          let a ← parsed recommendation.assignment.parse
          modify fun g => setAssignment g node.1 a) ()

/-- Fields a human sets; the others stay. -/
structure AssignmentPatch where
  provider : Option Provider := none
  model : Option String := none
  reasoning_effort : Option (Option CodexReasoningEffort) := none
  worker_count : Option ℚ := none
  reviewer_model : Option String := none
  budget_usd : Option ℚ := none
  rationale : Option String := none
  deriving DecidableEq, Repr

def AssignmentPatch.apply (patch : AssignmentPatch) (base : NodeAssignment) : NodeAssignment where
  provider := patch.provider.getD base.provider
  model := patch.model.getD base.model
  reasoning_effort := patch.reasoning_effort.getD base.reasoning_effort
  worker_count := patch.worker_count.getD base.worker_count
  reviewer_model := patch.reviewer_model.getD base.reviewer_model
  budget_usd := patch.budget_usd.getD base.budget_usd
  rationale := patch.rationale.getD base.rationale
  source := .override

/-- Human override of any field; marks the node so auto-allocate skips it. -/
def overrideAssignment (nodeId : String) (patch : AssignmentPatch) : Alloc NodeAssignment := do
  match (← get).node nodeId with
  | none => throw (.unknownNode nodeId)
  | some record => do
    let base ← match record.assignment with
      | some a => pure a
      | none => parsed (recommend host record .balanced)
    let next ← parsed (patch.apply base).parse
    modify fun g => setAssignment g nodeId next
    return next

/-! ### The fingerprint -/

def assignmentJson : Option NodeAssignment → Json ℚ
  | some a => a.toJson
  | none => .null

/-- One node of the canonical text. -/
def fingerprintEntry (e : String × GraphNode) : Json ℚ :=
  .obj [("id", .str e.1), ("assignment", assignmentJson e.2.assignment)]

/-- The nodes by id. -/
def sortedNodes (g : WorkflowGraph) : List (String × GraphNode) :=
  g.nodes.entries.mergeSort fun a b => host.localeCompare a.1 b.1 != .gt

/-- A content hash of every node's allocation. -/
def allocationFingerprint (g : WorkflowGraph) : String :=
  host.sha256 (Json.stringify host.numberText (.arr ((sortedNodes host g).map fingerprintEntry)))

end

/-! ### Assignments change, nothing else -/

variable {host : Host} {g g' g'' : WorkflowGraph} {id : String}

structure Reassigned (g g' : WorkflowGraph) : Prop where
  version : g'.graphVersion = g.graphVersion
  deps : ∀ y, g'.depsOf y = g.depsOf y
  keys : g'.nodes.keys = g.nodes.keys

theorem Reassigned.refl (g : WorkflowGraph) : Reassigned g g := ⟨rfl, fun _ => rfl, rfl⟩

theorem Reassigned.trans (h : Reassigned g g') (h' : Reassigned g' g'') : Reassigned g g'' :=
  ⟨h'.version.trans h.version, fun y => (h'.deps y).trans (h.deps y), h'.keys.trans h.keys⟩

theorem reassigned_setAssignment (g : WorkflowGraph) (id : String) (a : NodeAssignment) :
    Reassigned g (setAssignment g id a) := by
  unfold setAssignment
  rcases hn : g.nodes.get? id with _ | node
  · exact .refl g
  · refine ⟨rfl, fun y => ?_, ?_⟩
    · simp only [depsOf_set]
      split_ifs with h
      · rw [← h, depsOf_of_get? hn]
      · rfl
    · show (g.nodes.set id _).keys = _
      rw [OrdMap.keys_set, if_pos (OrdMap.mem_keys.mpr ⟨node, hn⟩)]

theorem sat_parsed {r : Except ParseError NodeAssignment} {ok : NodeAssignment → WorkflowGraph → Prop}
    {err : AllocationError → WorkflowGraph → Prop} (hok : ∀ a, r = .ok a → ok a g)
    (herr : ∀ e, r = .error e → err (.parse e) g) : Sat (parsed r) g ok err := by
  rcases r with e | a
  · exact herr e rfl
  · exact hok a rfl

/-- A loop whose steps only reassign only reassigns. -/
theorem reassigned_foldlM {γ : Type} {f : Unit → γ → Alloc Unit}
    (hf : ∀ x g, Sat (f () x) g (fun _ g' => Reassigned g g') fun _ g' => Reassigned g g')
    (l : List γ) (g : WorkflowGraph) :
    Sat (l.foldlM f ()) g (fun _ g' => Reassigned g g') fun _ g' => Reassigned g g' := by
  refine sat_foldlM (fun _ _ g' => Reassigned g g') (.refl g) ?_
  rintro done x rest ⟨⟩ g' - h
  exact (hf x g').mono (fun _ _ h' => h.trans h') fun _ _ h' => h.trans h'

theorem autoAllocate_sat (strategy : AllocationStrategy) (g : WorkflowGraph) :
    Sat (autoAllocate host strategy) g (fun _ g' => Reassigned g g')
      fun _ g' => Reassigned g g' := by
  unfold autoAllocate
  rw [sat_bind, sat_get]
  refine reassigned_foldlM (fun node g => ?_) _ g
  rw [sat_bind, sat_get]
  rcases g.node node.1 with _ | record
  · exact .refl g
  · by_cases ho : overridden record = true
    · simp only [if_pos ho]
      exact .refl g
    · simp only [if_neg ho]
      exact sat_bind.mpr (sat_parsed (fun a _ => reassigned_setAssignment g node.1 a)
        fun _ _ => .refl g)

theorem applyPmAllocation_sat (recommendations : List PmAssignmentRecommendation)
    (g : WorkflowGraph) :
    Sat (applyPmAllocation recommendations) g (fun _ g' => Reassigned g g')
      fun _ g' => Reassigned g g' := by
  unfold applyPmAllocation
  rw [sat_bind, sat_get]
  refine reassigned_foldlM (fun node g => ?_) _ g
  rw [sat_bind, sat_get]
  rcases g.node node.1 with _ | record
  · exact .refl g
  · by_cases ho : overridden record = true
    · simp only [if_pos ho]
      exact .refl g
    · simp only [if_neg ho]
      rcases hr : (OrdMap.ofList (recommendations.map fun r => (r.node_id, r))).get? node.1 with
        _ | r
      · simp only [hr]
        exact .refl g
      · simp only [hr]
        exact sat_bind.mpr (sat_parsed (fun a _ => reassigned_setAssignment g node.1 a)
          fun _ _ => .refl g)

theorem overrideAssignment_sat (nodeId : String) (patch : AssignmentPatch) (g : WorkflowGraph) :
    Sat (overrideAssignment host nodeId patch) g (fun _ g' => Reassigned g g')
      fun _ g' => Reassigned g g' := by
  unfold overrideAssignment
  rw [sat_bind, sat_get]
  rcases g.node nodeId with _ | record
  · exact .refl g
  have hnext : ∀ base, Sat (do
      let next ← parsed (patch.apply base).parse
      modify fun g => setAssignment g nodeId next
      return next) g (fun _ g' => Reassigned g g') fun _ g' => Reassigned g g' := fun base =>
    sat_bind.mpr (sat_parsed (fun a _ => reassigned_setAssignment g nodeId a) fun _ _ => .refl g)
  rcases hr : record.assignment with _ | a
  · simp only [hr]
    exact sat_bind.mpr (sat_parsed (fun a _ => hnext a) fun _ _ => .refl g)
  · simp only [hr]
    exact hnext a

/-! ### The fingerprint tells the allocation -/

theorem assignmentJson_injective : Function.Injective assignmentJson := by
  intro a b h
  rcases a with _ | a <;> rcases b with _ | b
  · rfl
  · simp [assignmentJson, NodeAssignment.toJson] at h
  · simp [assignmentJson, NodeAssignment.toJson] at h
  · rw [toJson_injective h]

/-- The entries of the canonical text tell id and assignment. -/
theorem fingerprintEntry_inj {e e' : String × GraphNode}
    (h : fingerprintEntry e = fingerprintEntry e') :
    (e.1, e.2.assignment) = (e'.1, e'.2.assignment) := by
  simp only [fingerprintEntry, Json.obj.injEq, List.cons.injEq, Prod.mk.injEq, true_and, and_true,
    Json.str.injEq] at h
  rw [h.1, assignmentJson_injective h.2]

/-- Id and assignment of every node. -/
def allocation (g : WorkflowGraph) : List (String × Option NodeAssignment) :=
  g.nodes.entries.map fun e => (e.1, e.2.assignment)

theorem mem_allocation {a : Option NodeAssignment} :
    (id, a) ∈ allocation g ↔ (g.nodes.get? id).map GraphNode.assignment = some a := by
  unfold allocation
  simp only [List.mem_map, Prod.mk.injEq, Prod.exists, Option.map_eq_some_iff, OrdMap.mem_entries]
  constructor
  · rintro ⟨_, node, hn, rfl, ha⟩
    exact ⟨node, hn, ha⟩
  · rintro ⟨node, hn, ha⟩
    exact ⟨id, node, hn, rfl, ha⟩

/-- The fingerprint depends on nothing but the allocation. -/
theorem fingerprint_congr (host : Host) (g g' : WorkflowGraph) (h : allocation g = allocation g') :
    allocationFingerprint host g = allocationFingerprint host g' := by
  have hmap : ∀ g : WorkflowGraph, (sortedNodes host g).map fingerprintEntry =
      ((allocation g).mergeSort fun a b => host.localeCompare a.1 b.1 != .gt).map
        fun e => .obj [("id", .str e.1), ("assignment", assignmentJson e.2)] := by
    intro g
    unfold allocation sortedNodes
    rw [← List.map_mergeSort (r := fun a b => host.localeCompare a.1 b.1 != .gt)
      (fun _ _ _ _ => rfl), List.map_map]
    rfl
  unfold allocationFingerprint
  rw [hmap, hmap, h]

/-- **One fingerprint, one allocation.** -/
theorem fingerprint_inj (hh : host.Faithful)
    (h : allocationFingerprint host g = allocationFingerprint host g') (id : String) :
    (g.nodes.get? id).map GraphNode.assignment = (g'.nodes.get? id).map GraphNode.assignment := by
  have hsorted : (sortedNodes host g).map (fun e => (e.1, e.2.assignment)) =
      (sortedNodes host g').map fun e => (e.1, e.2.assignment) := by
    have harr := Json.stringify_injective hh.numberText (hh.sha256 h)
    rw [Json.arr.injEq] at harr
    have hlen := congrArg List.length harr
    simp only [List.length_map] at hlen
    refine List.ext_getElem (by simpa using hlen) fun i h1 h2 => ?_
    simp only [List.length_map] at h1 h2
    have hi := List.getElem_of_eq harr (by simpa using h1)
    simp only [List.getElem_map] at hi ⊢
    exact fingerprintEntry_inj hi
  have hperm : ∀ g : WorkflowGraph, ∀ x, x ∈ allocation g ↔
      x ∈ (sortedNodes host g).map fun e => (e.1, e.2.assignment) := fun g x =>
    ((List.mergeSort_perm _ _).map _).mem_iff.symm
  have hmem : ∀ a, (g.nodes.get? id).map GraphNode.assignment = some a ↔
      (g'.nodes.get? id).map GraphNode.assignment = some a := fun a => by
    rw [← mem_allocation, ← mem_allocation, hperm, hperm, hsorted]
  exact Option.ext hmem

end Norns.Graph.Allocation
