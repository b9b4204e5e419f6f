import Mathlib
import Norns.Graph.Allocation
import Norns.Graph.Atomicity

/-! # Graph sessions and the currency of an approval

`GraphSession` of `graph/session.ts`: a plan, its graph and the last allocation approval. Approval
binds to the graph version and the allocation fingerprint, and is *current* while both are unchanged.

The fingerprint stands for nodes and assignments, the version for the dependencies: `kept_perform`
says that an edit which leaves the version alone leaves the dependencies alone, except for a
`removeNode` in mode *reparent* that throws after a graft. Hence `current_keeps_graph`. -/

namespace Norns.Graph.Session

open Norns.Lib Norns.Lib.Edit Norns.Lib.Run
open Norns.Contracts.Plan (PlanContract PlanValidationError SchemaIssue validatePlan)
open Norns.Contracts.Lifecycle (NodeState)
open Norns.Graph.Workflow Norns.Graph.Workflow.WorkflowGraph Norns.Graph.Assignment
open Norns.Graph.Structure Norns.Graph.Atomicity Norns.Graph.Allocation

/-- What an approval says; its id and kind are not kept. -/
structure Approval where
  content_hash : String
  actor : String
  approved_at : String
  deriving DecidableEq, Repr

structure AllocationApprovalRecord where
  content_hash : String
  graph_version : ℕ
  allocation_fingerprint : String
  actor : String
  approved_at : String
  deriving DecidableEq, Repr

structure AllocationApprovalStatus where
  content_hash : String
  approved_at : String
  actor : String
  current : Bool
  deriving DecidableEq, Repr

structure GraphSession where
  plan : PlanContract
  graph : WorkflowGraph
  approvalRecord : Option AllocationApprovalRecord

namespace GraphSession

def new (plan : PlanContract) : GraphSession := ⟨plan, fromPlan plan, none⟩

variable (host : Host)

/-- Bind a fresh approval to the current version and fingerprint. -/
def recordApproval (s : GraphSession) (approval : Approval) : GraphSession :=
  { s with approvalRecord := some {
      content_hash := approval.content_hash
      graph_version := s.graph.version
      allocation_fingerprint := allocationFingerprint host s.graph
      actor := approval.actor
      approved_at := approval.approved_at } }

def approvalStatus (s : GraphSession) : Option AllocationApprovalStatus :=
  match s.approvalRecord with
  | none => none
  | some record => some {
      content_hash := record.content_hash
      approved_at := record.approved_at
      actor := record.actor
      current := decide (record.graph_version = s.graph.version) &&
        decide (record.allocation_fingerprint = allocationFingerprint host s.graph) }

/-- Replace plan and graph by a new plan, if it is valid. -/
def loadPlan {Input : Type} (safeParse : Input → Except (List SchemaIssue) PlanContract)
    (s : GraphSession) (input : Input) : Except (List PlanValidationError) GraphSession :=
  match validatePlan safeParse input with
  | .error errors => .error errors
  | .ok plan => .ok {
      plan
      graph := s.graph.restoreFrom (fromPlan plan).snapshot
      approvalRecord := none }

end GraphSession

open GraphSession

/-- What happens to a session after its approval. -/
inductive SessionOp (Input : Type)
  | edit (op : GraphOp)
  | autoAllocate (strategy : AllocationStrategy)
  | applyPmAllocation (recommendations : List PmAssignmentRecommendation)
  | overrideAssignment (nodeId : String) (patch : AssignmentPatch)
  | loadPlan (input : Input)

section

variable (host : Host) {Input : Type} (safeParse : Input → Except (List SchemaIssue) PlanContract)

/-- One call; one that throws leaves what it wrote. -/
def sessionStep (s : GraphSession) : SessionOp Input → GraphSession
  | .edit op => { s with graph := step s.graph op }
  | .autoAllocate strategy => { s with graph := after (autoAllocate host strategy s.graph) }
  | .applyPmAllocation recommendations =>
    { s with graph := after (applyPmAllocation recommendations s.graph) }
  | .overrideAssignment nodeId patch =>
    { s with graph := after (overrideAssignment host nodeId patch s.graph) }
  | .loadPlan input =>
    match s.loadPlan safeParse input with
    | .ok s' => s'
    | .error _ => s

end

/-- **The condition**: a reparent does not stop after a graft. -/
def GraftsWhole {Input : Type} (s : GraphSession) : SessionOp Input → Prop
  | .edit (.removeNode id (some .reparent)) => GraftsThrough s.graph id
  | _ => True

/-- Same nodes, same dependencies as sets, same assignments. -/
structure SameGraph (g g' : WorkflowGraph) : Prop where
  nodes : ∀ id, id ∈ g'.nodes.keys ↔ id ∈ g.nodes.keys
  dependencies : ∀ id dep, dep ∈ g'.depsOf id ↔ dep ∈ g.depsOf id
  assignment : ∀ id,
    (g'.nodes.get? id).map GraphNode.assignment = (g.nodes.get? id).map GraphNode.assignment

/-! ### Version and dependencies -/

/-- The version does not decrease, and stays only if the dependencies do. -/
structure Kept (g g' : WorkflowGraph) : Prop where
  version : g.graphVersion ≤ g'.graphVersion
  deps : g'.graphVersion = g.graphVersion → ∀ y, g'.depsOf y = g.depsOf y

variable {g g' g'' : WorkflowGraph}

theorem Kept.refl (g : WorkflowGraph) : Kept g g := ⟨le_rfl, fun _ _ => rfl⟩

theorem Kept.trans (h : Kept g g') (h' : Kept g' g'') : Kept g g'' := by
  have h1 := h.version
  have h2 := h'.version
  refine ⟨by omega, fun he y => ?_⟩
  rw [h'.deps (by omega), h.deps (by omega)]

theorem kept_of_bump (h : g'.graphVersion = g.graphVersion + 1) : Kept g g' :=
  ⟨by omega, fun he => by omega⟩

theorem kept_of_eq (h : g' = g) : Kept g g' := by
  subst h; exact .refl g'

/-- **The step lemma for edits**, whatever the graph looks like. -/
theorem kept_perform {op : GraphOp}
    (hop : ∀ id, op = .removeNode id (some .reparent) → GraftsThrough g id) :
    Kept g (step g op) := by
  refine Sat.after (P := fun g' => Kept g g') ?_
  cases op with
  | addNode input =>
    exact (addNode_sat g input).mono (fun _ _ h => kept_of_bump h.1) fun _ _ h => kept_of_eq h.1
  | addEdge fromId toId =>
    exact (addEdge_sat g fromId toId).mono (fun _ _ h => kept_of_bump h.1) fun _ _ h =>
      kept_of_eq h.1
  | removeEdge fromId toId =>
    exact (removeEdge_sat g fromId toId).mono (fun _ _ h => kept_of_bump h.1) fun _ _ h =>
      kept_of_eq h.1
  | removeNode id mode =>
    refine sat_bind.mpr (sat_bind.mpr (sat_get.mpr ?_))
    by_cases hm : mode = some .cascade
    · subst hm
      have hcas : ∀ g', Cascaded g g' → Kept g g' := fun g' h =>
        ⟨h.version, fun he y => by rw [h.same he]⟩
      exact cascade_sat.mono (fun _ g' h => hcas g' h.1) fun _ g' h => hcas g' h.1
    · exact (removeNodeAt_grafts hm (fun hr => hop id (by rw [hr])) _).mono
        (fun _ _ h => kept_of_bump h) fun _ _ h => kept_of_eq h
  | attachStateLookup lookup => exact ⟨le_rfl, fun _ _ => rfl⟩
  | markExecutionStarted => exact ⟨le_rfl, fun _ _ => rfl⟩

theorem kept_of_reassigned (h : Reassigned g g') : Kept g g' := ⟨h.version.ge, fun _ => h.deps⟩

/-! ### Sessions -/

variable {host : Host} {Input : Type} {safeParse : Input → Except (List SchemaIssue) PlanContract}

/-- The approval of the session is gone, or it is `record` and the graph came from `g`. -/
def Bound (record : AllocationApprovalRecord) (g : WorkflowGraph) (s : GraphSession) : Prop :=
  s.approvalRecord = none ∨ (s.approvalRecord = some record ∧ Kept g s.graph)

theorem bound_step {record : AllocationApprovalRecord} {s : GraphSession} {op : SessionOp Input}
    (h : Bound record g s) (hop : GraftsWhole s op) :
    Bound record g (sessionStep host safeParse s op) := by
  have hkept : ∀ g', Kept s.graph g' → Bound record g { s with graph := g' } := fun g' hg' =>
    h.imp (fun hn => hn) fun ⟨hr, hk⟩ => ⟨hr, hk.trans hg'⟩
  cases op with
  | edit op => exact hkept _ (kept_perform fun id hid => by subst hid; exact hop)
  | autoAllocate strategy =>
    exact hkept _ (kept_of_reassigned (autoAllocate_sat strategy s.graph).after)
  | applyPmAllocation recommendations =>
    exact hkept _ (kept_of_reassigned (applyPmAllocation_sat recommendations s.graph).after)
  | overrideAssignment nodeId patch =>
    exact hkept _ (kept_of_reassigned (overrideAssignment_sat nodeId patch s.graph).after)
  | loadPlan input =>
    simp only [sessionStep, GraphSession.loadPlan]
    rcases validatePlan safeParse input with errors | plan
    · exact h
    · exact .inl rfl

theorem loadPlan_clears {s s' : GraphSession} {input : Input}
    (h : s.loadPlan safeParse input = .ok s') : s'.approvalRecord = none := by
  unfold GraphSession.loadPlan at h
  rcases hv : validatePlan safeParse input with errors | plan
  · rw [hv] at h; cases h
  · rw [hv] at h; cases h; rfl

theorem mem_keys_of_assignment {id : String}
    (h : (g'.nodes.get? id).map GraphNode.assignment = (g.nodes.get? id).map GraphNode.assignment) :
    id ∈ g'.nodes.keys ↔ id ∈ g.nodes.keys := by
  rw [← not_iff_not, ← OrdMap.get?_eq_none, ← OrdMap.get?_eq_none, ← Option.map_eq_none_iff, h,
    Option.map_eq_none_iff]

/-- **Currency**: while an approval is current, the graph has the nodes, the dependencies and the
assignments that were approved, provided that no reparent stopped after a graft; and loading a plan
clears the approval. -/
theorem current_keeps_graph (hh : host.Faithful) (s : GraphSession) (approval : Approval)
    (ops : List (SessionOp Input))
    (hops : Along (sessionStep host safeParse) GraftsWhole (s.recordApproval host approval) ops) :
    (∀ status, (run (sessionStep host safeParse) (s.recordApproval host approval)
        ops).approvalStatus host = some status → status.current = true →
      SameGraph s.graph (run (sessionStep host safeParse) (s.recordApproval host approval) ops).graph) ∧
    ∀ (input : Input) (s' : GraphSession),
      (run (sessionStep host safeParse) (s.recordApproval host approval) ops).loadPlan safeParse
        input = .ok s' → s'.approvalStatus host = none := by
  set last := run (sessionStep host safeParse) (s.recordApproval host approval) ops with hlast
  refine ⟨fun status hstatus hcur => ?_, fun input s' hload => ?_⟩
  · obtain ⟨record, hrecord⟩ : ∃ r, (s.recordApproval host approval).approvalRecord = some r := ⟨_, rfl⟩
    have hbound : Bound record s.graph last :=
      run_induct (fun _ _ h hop => bound_step h hop) (.inr ⟨hrecord, .refl s.graph⟩) hops
    unfold GraphSession.approvalStatus at hstatus
    rcases hbound with hnone | ⟨hsome, hkept⟩
    · rw [hnone] at hstatus; cases hstatus
    · rw [hsome] at hstatus
      cases hrecord
      cases hstatus
      simp only [Bool.and_eq_true, decide_eq_true_eq] at hcur
      have hassign := fun id => (fingerprint_inj hh hcur.2 id).symm
      refine ⟨fun id => mem_keys_of_assignment (hassign id), fun id dep => ?_, hassign⟩
      rw [hkept.deps hcur.1.symm]
  · unfold GraphSession.approvalStatus
    rw [loadPlan_clears hload]

/-! ### Two dependents, one of them finished -/

/-- `d1` and `d2` depend on `x`. -/
def forkPlan : PlanContract :=
  ⟨[plainModule "x" [], plainModule "d1" ["x"], plainModule "d2" ["x"]]⟩

/-- The canonical text of the allocation of `forkPlan`, and its SHA-256. -/
def forkText : String :=
  "[\x7b\"id\":\"d1\",\"assignment\":null\x7d,\x7b\"id\":\"d2\",\"assignment\":null\x7d,\x7b\"id\":\"x\",\"assignment\":null\x7d]"

def forkHash : String := "9a180284b97791e1baa81010b7fcd0b9448546c1800e2d75d8b615d837298b2b"

/-- A host that agrees with the platform on the allocation of `forkPlan`, where no number is
printed. -/
def forkHost : Host where
  sha256 s := if s = forkText then forkHash else "#" ++ s
  localeCompare := compare
  numberText q := (Encodable.encode q).repr

theorem forkHost_faithful : forkHost.Faithful where
  sha256 s t h := by
    have hne : ∀ u : String, forkHash ≠ "#" ++ u := fun u he => by
      have := congrArg (fun v => v.toList.head?) he
      simp [forkHash] at this
    simp only [forkHost] at h
    split_ifs at h with hs ht ht
    · rw [hs, ht]
    · exact absurd h (hne t)
    · exact absurd h.symm (hne s)
    · exact (String.append_right_inj _).mp h
  numberText := by
    refine ⟨fun p q h => ?_, fun q h => ?_, fun q c hc => ?_⟩
    · exact Encodable.encode_injective (Nat.repr_injective h)
    · exact Nat.repr_ne_empty (String.toList_eq_nil_iff.mp h)
    · rw [forkHost, Nat.toList_repr] at hc
      unfold Json.numberChar
      rw [Nat.isDigit_of_mem_toDigits (by decide) (by decide) hc, Bool.true_or]

def forkApproval : Approval := ⟨"hash", "human", "2026-01-01T00:00:00Z"⟩

/-- Calls that are refused, a reparent at its first dependent among them, and the start of the execution. -/
def refusedOps : List (SessionOp PlanContract) :=
  [.edit (.removeNode "x" none), .edit .markExecutionStarted,
    .edit (.attachStateLookup fun id => if id = "d1" then .cancelled else .pending),
    .edit (.removeNode "x" (some .reparent)), .edit (.addEdge "d1" "x")]

theorem current_keeps_graph_refusedOps :
    (∀ status, (run (sessionStep forkHost Except.ok)
        ((GraphSession.new forkPlan).recordApproval forkHost forkApproval)
        refusedOps).approvalStatus forkHost = some status → status.current = true →
      SameGraph (GraphSession.new forkPlan).graph (run (sessionStep forkHost Except.ok)
        ((GraphSession.new forkPlan).recordApproval forkHost forkApproval) refusedOps).graph) ∧
    ∀ (input : PlanContract) (s' : GraphSession),
      (run (sessionStep forkHost Except.ok)
        ((GraphSession.new forkPlan).recordApproval forkHost forkApproval)
        refusedOps).loadPlan Except.ok input = .ok s' → s'.approvalStatus forkHost = none := by
  refine current_keeps_graph forkHost_faithful (GraphSession.new forkPlan) forkApproval refusedOps
    ⟨trivial, trivial, trivial, fun d rest hdependents _ heditable => ?_, trivial, trivial⟩
  have hd : d = "d1" := (List.cons.inj hdependents).1.symm
  subst hd
  cases heditable

/-- The execution starts, `d2` is found cancelled, and `x` is to be removed. -/
def halfGraftOps : List (SessionOp PlanContract) :=
  [.edit .markExecutionStarted,
    .edit (.attachStateLookup fun id => if id = "d2" then .cancelled else .pending),
    .edit (.removeNode "x" (some .reparent))]

/-- The removal throws at `d2` when `d1` has already lost its dependency, and the approval stays
current. -/
theorem halfGraft_stays_current :
    ¬ ∀ (host : Host), host.Faithful → ∀ (s : GraphSession) (approval : Approval)
      (ops : List (SessionOp PlanContract)) (status : AllocationApprovalStatus),
      (run (sessionStep host Except.ok) (s.recordApproval host approval) ops).approvalStatus host =
        some status → status.current = true →
      SameGraph s.graph
        (run (sessionStep host Except.ok) (s.recordApproval host approval) ops).graph := by
  intro hall
  have hsame := hall forkHost forkHost_faithful (GraphSession.new forkPlan) forkApproval halfGraftOps
    _ rfl (by
      have hfp := fingerprint_congr forkHost (fromPlan forkPlan)
        (run (sessionStep forkHost Except.ok)
          ((GraphSession.new forkPlan).recordApproval forkHost forkApproval) halfGraftOps).graph rfl
      simp only [Bool.and_eq_true, decide_eq_true_eq]
      exact ⟨rfl, hfp⟩)
  have hdep := (hsame.dependencies "d1" "x").mpr (by decide)
  revert hdep
  decide

end Norns.Graph.Session
