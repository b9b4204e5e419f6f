import Mathlib.Algebra.Order.Group.Multiset
import Mathlib.Data.Rat.Encodable
import Mathlib.Tactic.Abel
import Norns.Migration.ImportPlan

/-! # What an import accounts for

The findings of `analyzeLegacyProject` fall into those that name an edge and the others; the others never
share an id. The import of a project is then compared with its plan and its graph.

* `allFindings_perm`: the two kinds of findings;
* `findings_nodup_iff`, `named_iff`: whose ids are distinct, and which edges have a finding;
* `accounted_iff`: when an import accounts for everything exactly once. -/

namespace Norns.Migration

open Norns.Lib
open Norns.Graph.Allocation (Host)

/-! ### Codes, subjects, ids -/

section

variable {host : Host}

def tag (f : LegacyProjectReconciliationFinding) : LegacyProjectReconciliationCode × String :=
  (f.code, f.subject_id)

/-- A finding of one of the codes, not about an edge. -/
structure Made (host : Host) (codes : List LegacyProjectReconciliationCode)
    (f : LegacyProjectReconciliationFinding) : Prop where
  code : f.code ∈ codes
  subject : f.subject_type ≠ .dependency
  identified : Identified host f

theorem nodup_ids (hh : host.Faithful) {l : List LegacyProjectReconciliationFinding}
    (hl : ∀ f ∈ l, Identified host f) (h : (l.map tag).Nodup) :
    (l.map LegacyProjectReconciliationFinding.id).Nodup := by
  refine List.pairwise_map.mpr ((List.pairwise_map.mp h).imp_of_mem ?_)
  intro f g hf hg hne hid
  obtain ⟨hcode, hsubject⟩ := finding_id_inj hh (hl f hf) (hl g hg) hid
  exact hne (Prod.ext hcode hsubject)

theorem nodup_tags_of_codes {l : List LegacyProjectReconciliationFinding}
    (h : (l.map LegacyProjectReconciliationFinding.code).Nodup) : (l.map tag).Nodup := by
  have hfst : l.map LegacyProjectReconciliationFinding.code = (l.map tag).map Prod.fst := by
    rw [List.map_map]
    rfl
  rw [hfst] at h
  exact List.Nodup.of_map _ h

/-- Findings of different codes, one subject after the other. -/
theorem nodup_tags_flatMap {xs : List String} (hxs : xs.Nodup)
    {g : String → List LegacyProjectReconciliationFinding}
    (hsubject : ∀ x ∈ xs, ∀ f ∈ g x, f.subject_id = x)
    (hcodes : ∀ x ∈ xs, ((g x).map LegacyProjectReconciliationFinding.code).Nodup) :
    ((xs.flatMap g).map tag).Nodup := by
  rw [List.map_flatMap, List.nodup_flatMap]
  refine ⟨fun x hx => nodup_tags_of_codes (hcodes x hx), ?_⟩
  refine hxs.imp_of_mem ?_
  intro x y hx hy hne t htx hty
  obtain ⟨f, hf, rfl⟩ := List.mem_map.mp htx
  obtain ⟨f', hf', heq⟩ := List.mem_map.mp hty
  have hsame : f'.subject_id = f.subject_id := congrArg Prod.snd heq
  rw [hsubject x hx f hf, hsubject y hy f' hf'] at hsame
  exact hne hsame.symm

theorem Made.mono {codes codes' : List LegacyProjectReconciliationCode} (hcodes : codes ⊆ codes')
    {f : LegacyProjectReconciliationFinding} (h : Made host codes f) : Made host codes' f :=
  ⟨hcodes h.code, h.subject, h.identified⟩

theorem made_append {codes : List LegacyProjectReconciliationCode}
    {l l' : List LegacyProjectReconciliationFinding} (h : ∀ f ∈ l, Made host codes f)
    (h' : ∀ f ∈ l', Made host codes f) : ∀ f ∈ l ++ l', Made host codes f := by
  intro f hf
  rcases List.mem_append.mp hf with hf | hf
  · exact h f hf
  · exact h' f hf

theorem made_finding {codes : List LegacyProjectReconciliationCode} {projectId : String}
    {code : LegacyProjectReconciliationCode} {severity : LegacyProjectFindingSeverity}
    {subjectType : LegacyProjectFindingSubject} {subjectId summary : String}
    {details : List (String × Json ℚ)} (hcode : code ∈ codes) (hsubject : subjectType ≠ .dependency) :
    Made host codes
      (finding host projectId code severity subjectType subjectId summary details) :=
  ⟨hcode, hsubject, rfl⟩

/-- Findings of these codes, no two with one code and one subject. -/
structure Group (host : Host) (codes : List LegacyProjectReconciliationCode)
    (l : List LegacyProjectReconciliationFinding) : Prop where
  made : ∀ f ∈ l, Made host codes f
  tags : (l.map tag).Nodup

theorem Group.nil {codes : List LegacyProjectReconciliationCode} : Group host codes [] := by
  refine ⟨fun f hf => ?_, List.nodup_nil⟩
  cases hf

theorem Group.append {l l' : List LegacyProjectReconciliationFinding}
    {codes codes' : List LegacyProjectReconciliationCode} (h : Group host codes l)
    (h' : Group host codes' l') (hcodes : ∀ code ∈ codes, code ∉ codes') :
    Group host (codes ++ codes') (l ++ l') := by
  constructor
  · exact made_append (fun f hf => (h.made f hf).mono (List.subset_append_left _ _))
      fun f hf => (h'.made f hf).mono (List.subset_append_right _ _)
  · rw [List.map_append, List.nodup_append]
    refine ⟨h.tags, h'.tags, ?_⟩
    intro t ht t' ht' heq
    obtain ⟨f, hf, rfl⟩ := List.mem_map.mp ht
    obtain ⟨f', hf', rfl⟩ := List.mem_map.mp ht'
    have hsame : f.code = f'.code := congrArg Prod.fst heq
    exact hcodes _ (h.made f hf).code (hsame ▸ (h'.made f' hf').code)

/-- At most one finding of each of the codes, in their order. -/
structure AtMost (host : Host) (codes : List LegacyProjectReconciliationCode)
    (l : List LegacyProjectReconciliationFinding) : Prop where
  made : ∀ f ∈ l, Made host codes f
  codes : (l.map LegacyProjectReconciliationFinding.code).Sublist codes

theorem AtMost.nil {codes : List LegacyProjectReconciliationCode} : AtMost host codes [] := by
  refine ⟨fun f hf => ?_, List.nil_sublist _⟩
  cases hf

theorem AtMost.one {projectId : String} {code : LegacyProjectReconciliationCode}
    {severity : LegacyProjectFindingSeverity} {subjectType : LegacyProjectFindingSubject}
    {subjectId summary : String} {details : List (String × Json ℚ)}
    (hsubject : subjectType ≠ .dependency) :
    AtMost host [code]
      [finding host projectId code severity subjectType subjectId summary details] := by
  refine ⟨fun f hf => ?_, List.Sublist.refl _⟩
  rw [List.mem_singleton.mp hf]
  exact made_finding (List.mem_singleton_self _) hsubject

theorem AtMost.ite {codes : List LegacyProjectReconciliationCode} {c : Prop} [Decidable c]
    {l l' : List LegacyProjectReconciliationFinding} (h : AtMost host codes l)
    (h' : AtMost host codes l') : AtMost host codes (if c then l else l') := by
  split
  · exact h
  · exact h'

theorem AtMost.append {codes codes' : List LegacyProjectReconciliationCode}
    {l l' : List LegacyProjectReconciliationFinding} (h : AtMost host codes l)
    (h' : AtMost host codes' l') : AtMost host (codes ++ codes') (l ++ l') := by
  constructor
  · exact made_append (fun f hf => (h.made f hf).mono (List.subset_append_left _ _))
      fun f hf => (h'.made f hf).mono (List.subset_append_right _ _)
  · rw [List.map_append]
    exact h.codes.append h'.codes

theorem AtMost.sublist {codes codes' : List LegacyProjectReconciliationCode}
    {l : List LegacyProjectReconciliationFinding} (h : AtMost host codes l)
    (hcodes : codes.Sublist codes') : AtMost host codes' l :=
  ⟨fun f hf => (h.made f hf).mono hcodes.subset, h.codes.trans hcodes⟩

theorem AtMost.group {codes : List LegacyProjectReconciliationCode}
    {l : List LegacyProjectReconciliationFinding} (h : AtMost host codes l) (hcodes : codes.Nodup) :
    Group host codes l :=
  ⟨h.made, nodup_tags_of_codes (h.codes.nodup hcodes)⟩

end

/-! ### The findings that name no edge -/

section

variable (host : Host) (projectId : String)

theorem payload_atMost (source : LegacyProjectSnapshot) (parsed : ParsedLegacyProjectPayloads)
    (duplicates : List String) :
    AtMost host [.invalid_plan_payload, .invalid_graph_payload, .invalid_approval_payload,
      .plan_without_graph, .graph_without_plan] (payloadFindings host source parsed duplicates) := by
  unfold payloadFindings
  refine ((((AtMost.append (.ite .nil (.one ?_)) (.ite .nil (.one ?_))).append
    (.ite .nil (.one ?_))).append (.ite (.one ?_) .nil))).append (.ite (.one ?_) .nil) <;>
  decide

theorem approval_atMost (approval : LegacyAllocationApproval) (graph : LegacyGraphSnapshot)
    (graphSource : LegacyGraphSnapshotInput) (attributable : String → Bool) :
    AtMost host [.approval_graph_version_mismatch, .assignment_changed_since_approval,
      .approval_content_hash_mismatch, .approval_actor_unattributable]
      (approvalFindings host projectId approval graph graphSource attributable) := by
  unfold approvalFindings
  refine (((AtMost.append (.ite (.one ?_) .nil) (.ite (.one ?_) .nil)).append
    (.ite (.one ?_) .nil))).append (.ite .nil (.one ?_)) <;>
  decide

theorem graphOnly_atMost (node : Option LegacyGraphNode) (nodeId : String) :
    AtMost host [.graph_node_without_plan_module, .acceptance_criteria_unavailable]
      (graphOnlyFindings host projectId node nodeId) := by
  unfold graphOnlyFindings
  exact AtMost.append (.one (by decide)) (.ite (.one (by decide)) .nil)

theorem compare_atMost (mod : LegacyPlanModule) (node : LegacyGraphNode) :
    AtMost host [.shared_task_field_mismatch, .acceptance_criteria_projection_mismatch]
      (compareSharedFields host projectId mod node) := by
  unfold compareSharedFields sharedFieldFindings acceptanceFindings
  refine AtMost.append (.ite .nil (.one (by decide))) ?_
  split
  · exact .nil
  · exact .ite .nil (.one (by decide))

theorem compare_subject {mod : LegacyPlanModule} {node : LegacyGraphNode}
    {f : LegacyProjectReconciliationFinding} (hf : f ∈ compareSharedFields host projectId mod node) :
    f.subject_id = mod.id := by
  unfold compareSharedFields sharedFieldFindings acceptanceFindings at hf
  rcases List.mem_append.mp hf with hf | hf
  · dsimp only at hf
    split at hf
    · cases hf
    · rw [List.mem_singleton.mp hf]
      rfl
  · split at hf
    · cases hf
    · split at hf
      · cases hf
      · rw [List.mem_singleton.mp hf]
        rfl

theorem assignment_atMost (node : LegacyGraphNode) :
    AtMost host [.assignment_missing, .assignment_worker_count_requires_reconciliation]
      (assignmentFindings host projectId node) := by
  unfold assignmentFindings
  split
  · exact (AtMost.one (by decide)).sublist (by simp)
  · exact (AtMost.ite (.one (by decide)) .nil).sublist (List.sublist_cons_self _ _)

/-- What plan and graph say of each other's tasks. -/
def taskFindings (plan : LegacyPlan) (graph : LegacyGraphSnapshot) :
    List LegacyProjectReconciliationFinding :=
  let planIds := plan.ids.dedup
  let graphIds := graph.ids.dedup
  (sortTexts (graphIds.filter fun id => id ∉ planIds)).flatMap
    (fun nodeId => graphOnlyFindings host projectId (graph.byId.get? nodeId) nodeId) ++
  (sortTexts (planIds.filter fun id => id ∉ graphIds)).map
    (fun moduleId => finding host projectId .plan_module_without_graph_node .blocking .task moduleId
      ("Plan module " ++ moduleId ++ " is absent from the current graph")
      [("imported_task_intent", .str "cancelled")]) ++
  (sortTexts (planIds.filter fun id => id ∈ graphIds)).flatMap
    (fun id => match plan.byId.get? id, graph.byId.get? id with
      | some mod, some node => compareSharedFields host projectId mod node
      | _, _ => [])

theorem sorted_nodup {l : List String} {p : String → Bool} :
    (sortTexts (l.dedup.filter p)).Nodup :=
  (sortTexts_perm _).nodup_iff.mpr ((List.nodup_dedup l).filter p)

theorem taskFindings_group {plan : LegacyPlan} (hplan : plan.ids.Nodup) (graph : LegacyGraphSnapshot) :
    Group host [.graph_node_without_plan_module, .acceptance_criteria_unavailable,
      .plan_module_without_graph_node, .shared_task_field_mismatch,
      .acceptance_criteria_projection_mismatch] (taskFindings host projectId plan graph) := by
  unfold taskFindings
  have honly : Group host [.graph_node_without_plan_module, .acceptance_criteria_unavailable]
      ((sortTexts (graph.ids.dedup.filter fun id => id ∉ plan.ids.dedup)).flatMap
        fun nodeId => graphOnlyFindings host projectId (graph.byId.get? nodeId) nodeId) := by
    constructor
    · intro f hf
      obtain ⟨nodeId, -, hf⟩ := List.mem_flatMap.mp hf
      exact (graphOnly_atMost host projectId _ nodeId).made f hf
    · refine nodup_tags_flatMap sorted_nodup (fun nodeId _ f hf => ?_) fun nodeId _ => ?_
      · unfold graphOnlyFindings at hf
        rcases List.mem_cons.mp hf with rfl | hf
        · rfl
        · split at hf
          · rw [List.mem_singleton.mp hf]
            rfl
          · cases hf
      · exact (graphOnly_atMost host projectId _ nodeId).codes.nodup (by decide)
  have hmissing : Group host [.plan_module_without_graph_node]
      ((sortTexts (plan.ids.dedup.filter fun id => id ∉ graph.ids.dedup)).map
        fun moduleId => finding host projectId .plan_module_without_graph_node .blocking .task moduleId
          ("Plan module " ++ moduleId ++ " is absent from the current graph")
          [("imported_task_intent", .str "cancelled")]) := by
    constructor
    · intro f hf
      obtain ⟨moduleId, -, rfl⟩ := List.mem_map.mp hf
      exact made_finding (by decide) (by decide)
    · rw [List.map_map]
      exact List.Nodup.map (fun a b h => congrArg Prod.snd h) sorted_nodup
  have hboth : Group host [.shared_task_field_mismatch, .acceptance_criteria_projection_mismatch]
      ((sortTexts (plan.ids.dedup.filter fun id => id ∈ graph.ids.dedup)).flatMap
        fun id => match plan.byId.get? id, graph.byId.get? id with
          | some mod, some node => compareSharedFields host projectId mod node
          | _, _ => []) := by
    constructor
    · intro f hf
      obtain ⟨id, -, hf⟩ := List.mem_flatMap.mp hf
      split at hf
      · exact (compare_atMost host projectId _ _).made f hf
      · cases hf
    · refine nodup_tags_flatMap sorted_nodup (fun id _ f hf => ?_) fun id _ => ?_
      · split at hf
        case h_1 mod node hmod hnode =>
          rw [compare_subject host projectId hf]
          exact ((byId_get?_plan hplan).mp hmod).2
        case h_2 => cases hf
      · split
        · exact (compare_atMost host projectId _ _).codes.nodup (by decide)
        · exact List.nodup_nil
  exact (honly.append hmissing (by decide)).append hboth (by decide)

theorem assignment_subject {node : LegacyGraphNode} {f : LegacyProjectReconciliationFinding}
    (hf : f ∈ assignmentFindings host projectId node) : f.subject_id = node.id := by
  unfold assignmentFindings at hf
  split at hf
  · rw [List.mem_singleton.mp hf]
    rfl
  · split at hf
    · rw [List.mem_singleton.mp hf]
      rfl
    · cases hf

theorem assignments_group {graph : LegacyGraphSnapshot} (hgraph : graph.ids.Nodup) :
    Group host [.assignment_missing, .assignment_worker_count_requires_reconciliation]
      (graph.nodes.flatMap (assignmentFindings host projectId)) := by
  constructor
  · intro f hf
    obtain ⟨node, -, hf⟩ := List.mem_flatMap.mp hf
    exact (assignment_atMost host projectId node).made f hf
  · rw [List.map_flatMap, List.nodup_flatMap]
    constructor
    · intro node _
      exact nodup_tags_of_codes ((assignment_atMost host projectId node).codes.nodup (by decide))
    · refine (List.pairwise_map.mp hgraph).imp ?_
      intro node node' hne t ht ht'
      obtain ⟨f, hf, rfl⟩ := List.mem_map.mp ht
      obtain ⟨f', hf', heq⟩ := List.mem_map.mp ht'
      have hsame : f'.subject_id = f.subject_id := congrArg Prod.snd heq
      rw [assignment_subject host projectId hf, assignment_subject host projectId hf'] at hsame
      exact hne hsame.symm

end

/-! ### The findings that name an edge -/

section

variable (host : Host) (projectId : String)

/-- The keys that only the graph has. -/
def addedEdges : Option LegacyPlan → Option LegacyGraphSnapshot → List String
  | some plan, some graph => (graphEdges graph).filter fun edge => edge ∉ planEdges plan
  | _, _ => []

/-- The keys that only the plan has. -/
def removedEdges : Option LegacyPlan → Option LegacyGraphSnapshot → List String
  | some plan, some graph => (planEdges plan).filter fun edge => edge ∉ graphEdges graph
  | _, _ => []

/-- The edges of the graph from a missing node, as often as they are there. -/
def orphanEdges : Option LegacyGraphSnapshot → List (String × String)
  | some graph => graph.edges.filter fun e => e.1 ∉ graph.ids
  | none => []

/-- How a finding names an edge. -/
def label (e : String × String) : String := e.1 ++ "->" ++ e.2

def edgeFindings (plan : Option LegacyPlan) (graph : Option LegacyGraphSnapshot) :
    List LegacyProjectReconciliationFinding :=
  (addedEdges plan graph).map (addedFinding host projectId) ++
  (removedEdges plan graph).map (removedFinding host projectId) ++
  (orphanEdges graph).map fun e => orphanFinding host projectId e.1 e.2

theorem graphFindings_perm (graph : LegacyGraphSnapshot) :
    (graphFindings host projectId graph).Perm
      (((orphanEdges (some graph)).map fun e => orphanFinding host projectId e.1 e.2) ++
        graph.nodes.flatMap (assignmentFindings host projectId)) := by
  have hsorted : ∀ g : LegacyGraphNode → List LegacyProjectReconciliationFinding,
      ((graph.nodes.mergeSort fun a b => host.localeCompare a.id b.id != .gt).flatMap g).Perm
        (graph.nodes.flatMap g) := fun g => (List.mergeSort_perm _ _).flatMap_right g
  have horphans : ((orphanEdges (some graph)).map fun e => orphanFinding host projectId e.1 e.2) =
      graph.nodes.flatMap fun node => (node.dependencies.filter fun id => id ∉ graph.ids).map
        fun dependencyId => orphanFinding host projectId dependencyId node.id := by
    unfold orphanEdges LegacyGraphSnapshot.edges
    dsimp only
    rw [List.filter_flatMap, List.map_flatMap]
    refine List.flatMap_congr fun node _ => ?_
    rw [List.filter_map, List.map_map]
    rfl
  unfold graphFindings
  refine (List.flatMap_append_perm _ _ _).symm.trans ?_
  refine (List.Perm.append (hsorted _) (hsorted _)).trans ?_
  rw [horphans]
  refine List.Perm.append_right _ (List.Perm.flatMap_left _ fun node _ => ?_)
  exact ((sortTexts_perm _).filter _).map _

theorem comparisonFindings_perm (plan : LegacyPlan) (graph : LegacyGraphSnapshot) :
    (comparisonFindings host projectId plan graph).Perm
      (taskFindings host projectId plan graph ++
        ((addedEdges (some plan) (some graph)).map (addedFinding host projectId) ++
          (removedEdges (some plan) (some graph)).map (removedFinding host projectId))) := by
  unfold comparisonFindings
  dsimp only
  rw [List.append_assoc]
  exact List.Perm.append_left _
    (List.Perm.append ((sortTexts_perm _).map _) ((sortTexts_perm _).map _))

def taskFindingsOf : Option LegacyPlan → Option LegacyGraphSnapshot →
    List LegacyProjectReconciliationFinding
  | some plan, some graph => taskFindings host projectId plan graph
  | _, _ => []

def assignmentFindingsOf : Option LegacyGraphSnapshot → List LegacyProjectReconciliationFinding
  | some graph => graph.nodes.flatMap (assignmentFindings host projectId)
  | none => []

variable (schemas : Schemas) (source : LegacyProjectSnapshot) (attributable : String → Bool)

/-- The findings that name no edge. -/
def otherFindings : List LegacyProjectReconciliationFinding :=
  let parsed := parseLegacyProjectPayloads schemas source
  let graph := usableGraph schemas source
  payloadFindings host source parsed (duplicateNodeIds schemas source) ++
  taskFindingsOf host source.id parsed.plan graph ++
  assignmentFindingsOf host source.id graph ++
  approvalFindingsOf host source.id attributable parsed.approval graph parsed.graph_source

/-- **The two kinds of findings.** -/
theorem allFindings_perm :
    (allFindings host schemas source attributable).Perm
      (otherFindings host schemas source attributable ++
        edgeFindings host source.id (parseLegacyProjectPayloads schemas source).plan
          (usableGraph schemas source)) := by
  unfold allFindings otherFindings edgeFindings
  dsimp only
  generalize approvalFindingsOf host source.id attributable _ _ _ = approvals
  generalize payloadFindings host source (parseLegacyProjectPayloads schemas source)
    (duplicateNodeIds schemas source) = payloads
  cases hgraph : usableGraph schemas source with
  | none =>
    cases (parseLegacyProjectPayloads schemas source).plan <;>
    simp [comparisonFindingsOf, graphFindingsOf, taskFindingsOf, assignmentFindingsOf, addedEdges,
      removedEdges, orphanEdges]
  | some graph =>
    have hown := graphFindings_perm host source.id graph
    cases hplan : (parseLegacyProjectPayloads schemas source).plan with
    | none =>
      simp only [comparisonFindingsOf, graphFindingsOf, taskFindingsOf, assignmentFindingsOf,
        addedEdges, removedEdges, List.map_nil, List.nil_append, List.append_nil]
      rw [← Multiset.coe_eq_coe] at hown ⊢
      simp only [← Multiset.coe_add] at hown ⊢
      rw [hown]
      abel
    | some plan =>
      have hboth := comparisonFindings_perm host source.id plan graph
      simp only [comparisonFindingsOf, graphFindingsOf, taskFindingsOf, assignmentFindingsOf]
      rw [← Multiset.coe_eq_coe] at hown hboth ⊢
      simp only [← Multiset.coe_add] at hown hboth ⊢
      rw [hown, hboth]
      abel

end

/-! ### Whose ids are distinct -/

section

variable {host : Host} {schemas : Schemas} {source : LegacyProjectSnapshot} {attributable : String → Bool}

def otherCodes : List LegacyProjectReconciliationCode :=
  ([.invalid_plan_payload, .invalid_graph_payload, .invalid_approval_payload, .plan_without_graph,
    .graph_without_plan] : List LegacyProjectReconciliationCode) ++
  ([.graph_node_without_plan_module, .acceptance_criteria_unavailable, .plan_module_without_graph_node,
    .shared_task_field_mismatch, .acceptance_criteria_projection_mismatch] : List LegacyProjectReconciliationCode) ++
  ([.assignment_missing, .assignment_worker_count_requires_reconciliation] : List LegacyProjectReconciliationCode) ++
  ([.approval_graph_version_mismatch, .assignment_changed_since_approval,
    .approval_content_hash_mismatch, .approval_actor_unattributable] : List LegacyProjectReconciliationCode)

theorem otherFindings_group : Group host otherCodes (otherFindings host schemas source attributable) := by
  unfold otherFindings otherCodes
  have hpayload := (payload_atMost host source (parseLegacyProjectPayloads schemas source)
    (duplicateNodeIds schemas source)).group (by decide)
  have htasks : Group host [.graph_node_without_plan_module, .acceptance_criteria_unavailable,
      .plan_module_without_graph_node, .shared_task_field_mismatch,
      .acceptance_criteria_projection_mismatch]
      (taskFindingsOf host source.id (parseLegacyProjectPayloads schemas source).plan
        (usableGraph schemas source)) := by
    unfold taskFindingsOf
    split
    case h_1 plan graph hplan _ => exact taskFindings_group host source.id (parsedPlan_ids hplan) graph
    case h_2 => exact .nil
  have hassignments : Group host [.assignment_missing, .assignment_worker_count_requires_reconciliation]
      (assignmentFindingsOf host source.id (usableGraph schemas source)) := by
    unfold assignmentFindingsOf
    split
    case h_1 graph hgraph => exact assignments_group host source.id (usableGraph_ids hgraph)
    case h_2 => exact .nil
  have happroval : Group host [.approval_graph_version_mismatch, .assignment_changed_since_approval,
      .approval_content_hash_mismatch, .approval_actor_unattributable]
      (approvalFindingsOf host source.id attributable (parseLegacyProjectPayloads schemas source).approval
        (usableGraph schemas source) (parseLegacyProjectPayloads schemas source).graph_source) := by
    unfold approvalFindingsOf
    split
    · exact (approval_atMost host source.id _ _ _ _).group (by decide)
    · exact .nil
  exact ((hpayload.append htasks (by decide)).append hassignments (by decide)).append happroval
    (by decide)

theorem edgeFindings_identified {projectId : String} {plan : Option LegacyPlan}
    {graph : Option LegacyGraphSnapshot} :
    ∀ f ∈ edgeFindings host projectId plan graph, Identified host f ∧ f.code ∉ otherCodes := by
  intro f hf
  unfold edgeFindings at hf
  rcases List.mem_append.mp hf with hf | hf
  · rcases List.mem_append.mp hf with hf | hf
    · obtain ⟨key, -, rfl⟩ := List.mem_map.mp hf
      exact ⟨rfl, show LegacyProjectReconciliationCode.dependency_edge_added_in_graph ∉ otherCodes by
        decide⟩
    · obtain ⟨key, -, rfl⟩ := List.mem_map.mp hf
      exact ⟨rfl, show LegacyProjectReconciliationCode.dependency_edge_removed_from_graph ∉ otherCodes by
        decide⟩
  · obtain ⟨e, -, rfl⟩ := List.mem_map.mp hf
    exact ⟨rfl, show LegacyProjectReconciliationCode.orphan_dependency_reference ∉ otherCodes by decide⟩

theorem nodup_ids_append (hh : host.Faithful) {l l' : List LegacyProjectReconciliationFinding}
    (hl : ∀ f ∈ l, Identified host f) (hl' : ∀ f ∈ l', Identified host f)
    (hcodes : ∀ f ∈ l, ∀ g ∈ l', f.code ≠ g.code) :
    ((l ++ l').map LegacyProjectReconciliationFinding.id).Nodup ↔
      (l.map LegacyProjectReconciliationFinding.id).Nodup ∧
        (l'.map LegacyProjectReconciliationFinding.id).Nodup := by
  rw [List.map_append, List.nodup_append]
  constructor
  · rintro ⟨h, h', -⟩
    exact ⟨h, h'⟩
  · rintro ⟨h, h'⟩
    refine ⟨h, h', ?_⟩
    intro id hid id' hid' heq
    obtain ⟨f, hf, rfl⟩ := List.mem_map.mp hid
    obtain ⟨g, hg, rfl⟩ := List.mem_map.mp hid'
    exact hcodes f hf g hg (finding_id_inj hh (hl f hf) (hl' g hg) heq).1

/-- Findings that differ in their subject alone. -/
theorem nodup_ids_iff (hh : host.Faithful) {α : Type} {l : List α}
    {mk : α → LegacyProjectReconciliationFinding} (hmk : ∀ a, Identified host (mk a))
    (hsame : ∀ a b, (mk a).subject_id = (mk b).subject_id → (mk a).id = (mk b).id) :
    ((l.map mk).map LegacyProjectReconciliationFinding.id).Nodup ↔
      (l.map fun a => (mk a).subject_id).Nodup := by
  rw [List.map_map]
  constructor
  · intro h
    refine List.pairwise_map.mpr ((List.pairwise_map.mp h).imp fun {a b} hne hsubject => ?_)
    exact hne (hsame a b hsubject)
  · intro h
    refine List.pairwise_map.mpr ((List.pairwise_map.mp h).imp fun {a b} hne hid => ?_)
    exact hne (finding_id_inj hh (hmk a) (hmk b) hid).2

theorem findings_nodup_iff (hh : host.Faithful) :
    ((allFindings host schemas source attributable).map LegacyProjectReconciliationFinding.id).Nodup ↔
      ((addedEdges (parseLegacyProjectPayloads schemas source).plan
        (usableGraph schemas source)).map edgeSubjectId).Nodup ∧
      ((removedEdges (parseLegacyProjectPayloads schemas source).plan
        (usableGraph schemas source)).map edgeSubjectId).Nodup ∧
      ((orphanEdges (usableGraph schemas source)).map label).Nodup := by
  generalize hplan : (parseLegacyProjectPayloads schemas source).plan = plan
  generalize hgraph : usableGraph schemas source = graph
  have hperm := allFindings_perm host schemas source attributable
  rw [hplan, hgraph] at hperm
  have hother : Group host otherCodes (otherFindings host schemas source attributable) :=
    otherFindings_group
  have hedges : ∀ f ∈ edgeFindings host source.id plan graph, Identified host f ∧ f.code ∉ otherCodes :=
    edgeFindings_identified
  have hadded : ∀ key, Identified host (addedFinding host source.id key) := fun _ => rfl
  have hremoved : ∀ key, Identified host (removedFinding host source.id key) := fun _ => rfl
  have horphan : ∀ e : String × String, Identified host (orphanFinding host source.id e.1 e.2) :=
    fun _ => rfl
  rw [(hperm.map _).nodup_iff, nodup_ids_append hh (fun f hf => (hother.made f hf).identified)
    (fun f hf => (hedges f hf).1)
    (fun f hf g hg heq => (hedges g hg).2 (heq ▸ (hother.made f hf).code))]
  have hids : ((otherFindings host schemas source attributable).map
      LegacyProjectReconciliationFinding.id).Nodup :=
    nodup_ids hh (fun f hf => (hother.made f hf).identified) hother.tags
  rw [and_iff_right hids]
  unfold edgeFindings
  rw [nodup_ids_append hh, nodup_ids_append hh, nodup_ids_iff hh hadded, nodup_ids_iff hh hremoved,
    nodup_ids_iff hh horphan, and_assoc]
  · rfl
  · rintro e e' h
    exact congrArg (fun subject => "migration-finding:" ++ canonicalSha256 host (findingIdentity source.id
      .orphan_dependency_reference .dependency subject (.obj []))) h
  · rintro key key' h
    exact congrArg (fun subject => "migration-finding:" ++ canonicalSha256 host (findingIdentity source.id
      .dependency_edge_removed_from_graph .dependency subject
        (.obj [("selected_source", .str "graph")]))) h
  · rintro key key' h
    exact congrArg (fun subject => "migration-finding:" ++ canonicalSha256 host (findingIdentity source.id
      .dependency_edge_added_in_graph .dependency subject
        (.obj [("selected_source", .str "graph")]))) h
  · intro f hf
    obtain ⟨key, -, rfl⟩ := List.mem_map.mp hf
    exact hadded key
  · intro f hf
    obtain ⟨key, -, rfl⟩ := List.mem_map.mp hf
    exact hremoved key
  · intro f hf g hg
    obtain ⟨key, -, rfl⟩ := List.mem_map.mp hf
    obtain ⟨key', -, rfl⟩ := List.mem_map.mp hg
    exact LegacyProjectReconciliationCode.noConfusion
  · intro f hf
    rcases List.mem_append.mp hf with hf | hf
    · obtain ⟨key, -, rfl⟩ := List.mem_map.mp hf
      exact hadded key
    · obtain ⟨key, -, rfl⟩ := List.mem_map.mp hf
      exact hremoved key
  · intro f hf
    obtain ⟨e, -, rfl⟩ := List.mem_map.mp hf
    exact horphan e
  · intro f hf g hg
    obtain ⟨e, -, rfl⟩ := List.mem_map.mp hg
    rcases List.mem_append.mp hf with hf | hf
    · obtain ⟨key, -, rfl⟩ := List.mem_map.mp hf
      exact LegacyProjectReconciliationCode.noConfusion
    · obtain ⟨key, -, rfl⟩ := List.mem_map.mp hf
      exact LegacyProjectReconciliationCode.noConfusion

/-- A finding names the edge. -/
def Named (findings : List LegacyProjectReconciliationFinding) (e : String × String) : Prop :=
  ∃ f ∈ findings, f.subject_type = .dependency ∧ f.subject_id = label e

theorem named_iff {e : String × String} :
    Named (allFindings host schemas source attributable) e ↔
      label e ∈ (addedEdges (parseLegacyProjectPayloads schemas source).plan
        (usableGraph schemas source)).map edgeSubjectId ∨
      label e ∈ (removedEdges (parseLegacyProjectPayloads schemas source).plan
        (usableGraph schemas source)).map edgeSubjectId ∨
      label e ∈ (orphanEdges (usableGraph schemas source)).map label := by
  have hperm := allFindings_perm host schemas source attributable
  constructor
  · rintro ⟨f, hf, htype, hsubject⟩
    rcases List.mem_append.mp (hperm.mem_iff.mp hf) with hf | hf
    · exact absurd htype (otherFindings_group.made f hf).subject
    · unfold edgeFindings at hf
      rcases List.mem_append.mp hf with hf | hf
      · rcases List.mem_append.mp hf with hf | hf
        · obtain ⟨key, hkey, rfl⟩ := List.mem_map.mp hf
          exact .inl (List.mem_map.mpr ⟨key, hkey, hsubject⟩)
        · obtain ⟨key, hkey, rfl⟩ := List.mem_map.mp hf
          exact .inr (.inl (List.mem_map.mpr ⟨key, hkey, hsubject⟩))
      · obtain ⟨e', he', rfl⟩ := List.mem_map.mp hf
        exact .inr (.inr (List.mem_map.mpr ⟨e', he', hsubject⟩))
  · have hmem : ∀ f ∈ edgeFindings host source.id (parseLegacyProjectPayloads schemas source).plan
        (usableGraph schemas source), f ∈ allFindings host schemas source attributable := fun f hf =>
      hperm.mem_iff.mpr (List.mem_append_right _ hf)
    unfold edgeFindings at hmem
    rintro (h | h | h)
    · obtain ⟨key, hkey, hlabel⟩ := List.mem_map.mp h
      exact ⟨addedFinding host source.id key, hmem _ (List.mem_append_left _ (List.mem_append_left _
        (List.mem_map.mpr ⟨key, hkey, rfl⟩))), rfl, hlabel⟩
    · obtain ⟨key, hkey, hlabel⟩ := List.mem_map.mp h
      exact ⟨removedFinding host source.id key, hmem _ (List.mem_append_left _ (List.mem_append_right _
        (List.mem_map.mpr ⟨key, hkey, rfl⟩))), rfl, hlabel⟩
    · obtain ⟨e', he', hlabel⟩ := List.mem_map.mp h
      exact ⟨orphanFinding host source.id e'.1 e'.2, hmem _ (List.mem_append_right _
        (List.mem_map.mpr ⟨e', he', rfl⟩)), rfl, hlabel⟩

end

/-! ### Mappings -/

section

variable {host : Host} (source : LegacyProjectSnapshot) (analysis : LegacyProjectAnalysis)

theorem projectMappings_types (hasImportedPhase hasStrategy : Bool)
    (approval : Option LegacyHistoricalApprovalEvidence) :
    ((projectMappings source analysis hasImportedPhase hasStrategy approval).map
      fun m => (m.legacy_entity_type, m.v2_entity_type)).Sublist
      [("project", "project"), ("project_initial_phase", "phase"), ("project_objective", "objective"),
        ("project_strategy", "strategy_version"),
        ("allocation_approval", "legacy_approval_evidence")] := by
  unfold projectMappings
  cases hasImportedPhase <;> cases hasStrategy <;> cases approval <;> simp

/-- Mappings of one list, told apart by two keys. -/
theorem nodup_pairs_append {α : Type} {l l' : List α} {kind id : α → String}
    (h : (l.map fun a => (kind a, id a)).Nodup) (h' : (l'.map fun a => (kind a, id a)).Nodup)
    (hkind : ∀ a ∈ l, ∀ b ∈ l', kind a ≠ kind b) :
    ((l ++ l').map fun a => (kind a, id a)).Nodup := by
  rw [List.map_append, List.nodup_append]
  refine ⟨h, h', ?_⟩
  intro x hx y hy heq
  obtain ⟨a, ha, rfl⟩ := List.mem_map.mp hx
  obtain ⟨b, hb, rfl⟩ := List.mem_map.mp hy
  exact hkind a ha b hb (congrArg Prod.fst heq)

theorem projectMappings_kinds {hasImportedPhase hasStrategy : Bool}
    {approval : Option LegacyHistoricalApprovalEvidence} {m : LegacyImportIdMapping}
    (hm : m ∈ projectMappings source analysis hasImportedPhase hasStrategy approval) :
    m.legacy_entity_type ∉ ["project_task_identity", "project_assignment"] ∧
      m.v2_entity_type ∉ ["task", "agent_assignment"] := by
  have hmem := (projectMappings_types source analysis hasImportedPhase hasStrategy approval).subset
    (List.mem_map.mpr ⟨m, hm, rfl⟩)
  simp only [List.mem_cons, Prod.mk.injEq, List.not_mem_nil, or_false] at hmem
  rcases hmem with ⟨h, h'⟩ | ⟨h, h'⟩ | ⟨h, h'⟩ | ⟨h, h'⟩ | ⟨h, h'⟩ <;> rw [h, h'] <;> decide

theorem mappings_nodup (hasImportedPhase hasStrategy : Bool)
    (approval : Option LegacyHistoricalApprovalEvidence) :
    ((projectMappings source analysis hasImportedPhase hasStrategy approval ++
        (importedTasks source.id analysis).map (taskMapping host source) ++
        ((importedTasks source.id analysis).map (importedAssignment host)).map
          (assignmentMapping source)).map fun m => (m.legacy_entity_type, m.legacy_id)).Nodup ∧
      ((projectMappings source analysis hasImportedPhase hasStrategy approval ++
        (importedTasks source.id analysis).map (taskMapping host source) ++
        ((importedTasks source.id analysis).map (importedAssignment host)).map
          (assignmentMapping source)).map fun m => (m.v2_entity_type, m.v2_id)).Nodup := by
  have htypes := projectMappings_types source analysis hasImportedPhase hasStrategy approval
  have hlegacy : ((projectMappings source analysis hasImportedPhase hasStrategy approval).map
      fun m => (m.legacy_entity_type, m.legacy_id)).Nodup := by
    have h := (htypes.map Prod.fst).nodup (by decide)
    rw [List.map_map] at h
    refine List.Nodup.of_map Prod.fst ?_
    rw [List.map_map]
    exact h
  have hv2 : ((projectMappings source analysis hasImportedPhase hasStrategy approval).map
      fun m => (m.v2_entity_type, m.v2_id)).Nodup := by
    have h := (htypes.map Prod.snd).nodup (by decide)
    rw [List.map_map] at h
    refine List.Nodup.of_map Prod.fst ?_
    rw [List.map_map]
    exact h
  have hlocal := localIds_nodup analysis.plan analysis.graph
  constructor
  · refine nodup_pairs_append (nodup_pairs_append hlegacy ?_ ?_) ?_ ?_
    · unfold importedTasks
      rw [List.map_map, List.map_map]
      refine hlocal.map fun a b h => ?_
      exact (String.append_right_inj _).mp (congrArg Prod.snd h)
    · intro a ha b hb heq
      obtain ⟨task, -, rfl⟩ := List.mem_map.mp hb
      exact (projectMappings_kinds source analysis ha).1 (heq ▸ by simp [taskMapping])
    · unfold importedTasks
      rw [List.map_map, List.map_map, List.map_map]
      refine hlocal.map fun a b h => ?_
      exact taskIdOf_injective source.id ((String.append_right_inj _).mp (congrArg Prod.snd h))
    · intro a ha b hb heq
      obtain ⟨assignment, -, rfl⟩ := List.mem_map.mp hb
      rcases List.mem_append.mp ha with ha | ha
      · exact (projectMappings_kinds source analysis ha).1 (heq ▸ by simp [assignmentMapping])
      · obtain ⟨task, -, rfl⟩ := List.mem_map.mp ha
        revert heq
        exact (by decide : "project_task_identity" ≠ "project_assignment")
  · refine nodup_pairs_append (nodup_pairs_append hv2 ?_ ?_) ?_ ?_
    · unfold importedTasks
      rw [List.map_map, List.map_map]
      refine hlocal.map fun a b h => ?_
      exact taskIdOf_injective source.id (congrArg Prod.snd h)
    · intro a ha b hb heq
      obtain ⟨task, -, rfl⟩ := List.mem_map.mp hb
      exact (projectMappings_kinds source analysis ha).2 (heq ▸ by simp [taskMapping])
    · unfold importedTasks
      rw [List.map_map, List.map_map, List.map_map]
      refine hlocal.map fun a b h => ?_
      exact assignmentIdOf_injective source.id (congrArg Prod.snd h)
    · intro a ha b hb heq
      obtain ⟨assignment, -, rfl⟩ := List.mem_map.mp hb
      rcases List.mem_append.mp ha with ha | ha
      · exact (projectMappings_kinds source analysis ha).2 (heq ▸ by simp [assignmentMapping])
      · obtain ⟨task, -, rfl⟩ := List.mem_map.mp ha
        revert heq
        exact (by decide : "task" ≠ "agent_assignment")

end

/-! ### A clean import -/

section

variable {host : Host} {schemas : Schemas} {source : LegacyProjectSnapshot} {attributable : String → Bool}

theorem parsed_of_payload_clean
    (h : ∀ f ∈ payloadFindings host source (parseLegacyProjectPayloads schemas source)
      (duplicateNodeIds schemas source), f.severity ≠ .blocking)
    (hplan : isNull source.plan = false) (hgraph : isNull source.graph = false) :
    ∃ plan graph, (parseLegacyProjectPayloads schemas source).plan = some plan ∧
      usableGraph schemas source = some graph := by
  have hplanValid : (parseLegacyProjectPayloads schemas source).plan_valid = true := by
    by_contra hnot
    refine h (finding host source.id .invalid_plan_payload .blocking .plan source.id
      "Legacy plan payload failed PlanContract validation" []) ?_ rfl
    unfold payloadFindings
    rw [if_neg hnot]
    exact List.mem_append_left _ (List.mem_append_left _ (List.mem_append_left _
      (List.mem_append_left _ (List.mem_singleton_self _))))
  have hgraphValid : ((parseLegacyProjectPayloads schemas source).graph_valid &&
      (duplicateNodeIds schemas source).isEmpty) = true := by
    by_contra hnot
    refine h (finding host source.id .invalid_graph_payload .blocking .graph source.id
      "Legacy graph payload is invalid or contains duplicate node IDs"
      [("duplicate_node_ids", .arr ((duplicateNodeIds schemas source).map .str))]) ?_ rfl
    unfold payloadFindings
    rw [if_neg hnot]
    exact List.mem_append_left _ (List.mem_append_left _ (List.mem_append_left _
      (List.mem_append_right _ (List.mem_singleton_self _))))
  have hsomePlan : (parseLegacyProjectPayloads schemas source).plan.isSome = true := by
    unfold parseLegacyProjectPayloads at hplanValid ⊢
    simpa [hplan] using hplanValid
  have hsomeGraph : (parseLegacyProjectPayloads schemas source).graph.isSome = true := by
    have hvalid := (Bool.and_eq_true _ _ ▸ hgraphValid).1
    unfold parseLegacyProjectPayloads at hvalid ⊢
    simpa [hgraph] using hvalid
  obtain ⟨plan, hplan'⟩ := Option.isSome_iff_exists.mp hsomePlan
  obtain ⟨graph, hgraph'⟩ := Option.isSome_iff_exists.mp hsomeGraph
  refine ⟨plan, graph, hplan', ?_⟩
  unfold usableGraph
  dsimp only
  rw [hgraph', hgraphValid]
  rfl

/-- Without a blocking finding, plan and graph have the same ids and keys, and no edge lacks its node. -/
theorem reconciled_of_clean
    (h : ∀ f ∈ allFindings host schemas source attributable, f.severity ≠ .blocking)
    (hplan : isNull source.plan = false) (hgraph : isNull source.graph = false) :
    ∃ plan graph, (parseLegacyProjectPayloads schemas source).plan = some plan ∧
      usableGraph schemas source = some graph ∧ addedEdges (some plan) (some graph) = [] ∧
      removedEdges (some plan) (some graph) = [] ∧ orphanEdges (some graph) = [] ∧
      ∀ id, id ∈ plan.ids ↔ id ∈ graph.ids := by
  have hpayload : ∀ f ∈ payloadFindings host source (parseLegacyProjectPayloads schemas source)
      (duplicateNodeIds schemas source), f.severity ≠ .blocking := fun f hf =>
    h f (List.mem_append_left _ (List.mem_append_left _ (List.mem_append_left _ hf)))
  obtain ⟨plan, graph, hplan', hgraph'⟩ := parsed_of_payload_clean hpayload hplan hgraph
  have hperm := allFindings_perm host schemas source attributable
  have hedges : ∀ f ∈ edgeFindings host source.id (some plan) (some graph), f.severity ≠ .blocking := by
    intro f hf
    refine h f (hperm.mem_iff.mpr (List.mem_append_right _ ?_))
    rw [hplan', hgraph']
    exact hf
  have htasks : ∀ f ∈ taskFindings host source.id plan graph, f.severity ≠ .blocking := by
    intro f hf
    refine h f (hperm.mem_iff.mpr (List.mem_append_left _ ?_))
    unfold otherFindings
    dsimp only
    rw [hplan', hgraph']
    exact List.mem_append_left _ (List.mem_append_left _ (List.mem_append_right _ hf))
  unfold edgeFindings at hedges
  refine ⟨plan, graph, hplan', hgraph', ?_, ?_, ?_, fun id => ⟨fun hid => ?_, fun hid => ?_⟩⟩
  · refine List.eq_nil_iff_forall_not_mem.mpr fun key hkey => ?_
    exact hedges _ (List.mem_append_left _ (List.mem_append_left _
      (List.mem_map.mpr ⟨key, hkey, rfl⟩))) rfl
  · refine List.eq_nil_iff_forall_not_mem.mpr fun key hkey => ?_
    exact hedges _ (List.mem_append_left _ (List.mem_append_right _
      (List.mem_map.mpr ⟨key, hkey, rfl⟩))) rfl
  · refine List.eq_nil_iff_forall_not_mem.mpr fun e he => ?_
    exact hedges _ (List.mem_append_right _ (List.mem_map.mpr ⟨e, he, rfl⟩)) rfl
  · by_contra hnot
    have hmem : id ∈ sortTexts (plan.ids.dedup.filter fun id => id ∉ graph.ids.dedup) := by
      rw [mem_sortTexts, List.mem_filter, List.mem_dedup]
      exact ⟨hid, by simpa using hnot⟩
    exact htasks _ (List.mem_append_left _ (List.mem_append_right _
      (List.mem_map.mpr ⟨id, hmem, rfl⟩))) rfl
  · by_contra hnot
    have hmem : id ∈ sortTexts (graph.ids.dedup.filter fun id => id ∉ plan.ids.dedup) := by
      rw [mem_sortTexts, List.mem_filter, List.mem_dedup]
      exact ⟨hid, by simpa using hnot⟩
    exact htasks _ (List.mem_append_left _ (List.mem_append_left _
      (List.mem_flatMap.mpr ⟨id, hmem, List.mem_cons_self⟩))) rfl

end

/-! ### Everything once -/

section

variable (host : Host) (schemas : Schemas) (source : LegacyProjectSnapshot) (attributable : String → Bool)

/-- An edge that became a dependency. -/
def ImportedEdge (imported : LegacyProjectImportPlan) (e : String × String) : Prop :=
  dependencyOf source.id e ∈ imported.task_dependencies

/-- A local id that became a task. -/
def HasTask (imported : LegacyProjectImportPlan) (id : String) : Prop :=
  ∃ task ∈ imported.tasks, task.local_id = id

/-- The edges of a graph that can be used. -/
def usableEdges : List (String × String) :=
  ((usableGraph schemas source).map LegacyGraphSnapshot.edges).getD []

structure Accounted (imported : LegacyProjectImportPlan) : Prop where
  tasks : (imported.tasks.map LegacyImportedTask.id).Nodup
  assignments : (imported.agent_assignments.map LegacyImportedAssignment.id).Nodup
  dependencies : (imported.task_dependencies.map LegacyImportedTaskDependency.id).Nodup
  findings : (imported.findings.map LegacyProjectReconciliationFinding.id).Nodup
  mappings : (imported.id_mappings.map fun m => (m.legacy_entity_type, m.legacy_id)).Nodup ∧
    (imported.id_mappings.map fun m => (m.v2_entity_type, m.v2_id)).Nodup
  modules : ∀ plan ∈ (parseLegacyProjectPayloads schemas source).plan, ∀ mod ∈ plan.modules,
    ∃ task, (imported.tasks.filter fun task => task.local_id = mod.id) = [task] ∧
      task.legacy_module = some mod
  nodes : ∀ graph ∈ usableGraph schemas source, ∀ node ∈ graph.nodes,
    ∃ task, (imported.tasks.filter fun task => task.local_id = node.id) = [task] ∧
      task.legacy_graph_node = some node
  edges : ∃ edges : List (String × String), edges.Nodup ∧
    (∀ e, e ∈ edges ↔ e ∈ usableEdges schemas source ∧ HasTask imported e.1 ∧ HasTask imported e.2) ∧
    imported.task_dependencies.Perm (edges.map (dependencyOf source.id))
  planEdges : ∀ plan ∈ (parseLegacyProjectPayloads schemas source).plan, ∀ e ∈ plan.edges,
    ¬ ImportedEdge source imported e → Named imported.findings e
  graphEdges : ∀ e ∈ usableEdges schemas source,
    ¬ ImportedEdge source imported e → Named imported.findings e
  unplanned : ∀ plan ∈ (parseLegacyProjectPayloads schemas source).plan, ∀ e,
    ImportedEdge source imported e → e ∉ plan.edges → Named imported.findings e
  clean : (∀ f ∈ imported.findings, f.severity ≠ .blocking) → isNull source.plan = false →
    isNull source.graph = false →
      ∃ plan ∈ (parseLegacyProjectPayloads schemas source).plan,
        (imported.tasks.map LegacyImportedTask.local_id).Perm plan.ids ∧
        (∀ e, ImportedEdge source imported e ↔ e ∈ plan.edges) ∧
        (∀ e, ImportedEdge source imported e → HasTask imported e.1 ∧ HasTask imported e.2) ∧
        ∀ id, ¬ Relation.TransGen (fun a b => ImportedEdge source imported (b, a)) id id

/-- No dependency is repeated, what the findings say of edges tells them apart, an edge with a null character
that only one side has reads as one that lacks its node, and a plan with dependencies has its graph. -/
structure Unambiguous : Prop where
  single : ∀ graph ∈ usableGraph schemas source, ∀ node ∈ graph.nodes, node.dependencies.Nodup
  added : ((addedEdges (parseLegacyProjectPayloads schemas source).plan
    (usableGraph schemas source)).map edgeSubjectId).Nodup
  removed : ((removedEdges (parseLegacyProjectPayloads schemas source).plan
    (usableGraph schemas source)).map edgeSubjectId).Nodup
  orphans : ((orphanEdges (usableGraph schemas source)).map label).Nodup
  legible : ∀ plan ∈ (parseLegacyProjectPayloads schemas source).plan,
    ∀ graph ∈ usableGraph schemas source, ∀ e, ¬ (Plain e.1 ∧ Plain e.2) →
      (e ∈ plan.edges ↔ e ∉ graph.edges) →
        label e ∈ (orphanEdges (usableGraph schemas source)).map label
  compared : ∀ plan ∈ (parseLegacyProjectPayloads schemas source).plan,
    usableGraph schemas source = none → plan.edges = []

end

section

variable {host : Host} {schemas : Schemas} {source : LegacyProjectSnapshot} {attributable : String → Bool}

theorem analysis_distinct : Distinct (analyzeLegacyProject host schemas source attributable) :=
  ⟨fun _ hplan => parsedPlan_ids hplan, fun _ hgraph => usableGraph_ids hgraph⟩

/-- A list is without repetition if two parts that cover it are. -/
theorem nodup_of_filters {α : Type} [DecidableEq α] {l : List α} {p q : α → Bool}
    (hp : (l.filter p).Nodup) (hq : (l.filter q).Nodup) (hpq : ∀ a ∈ l, p a = true ∨ q a = true) :
    l.Nodup := by
  rw [List.nodup_iff_count_le_one] at hp hq ⊢
  intro a
  by_cases ha : a ∈ l
  · rcases hpq a ha with h | h
    · rw [← List.count_filter h]
      exact hp a
    · rw [← List.count_filter h]
      exact hq a
  · rw [List.count_eq_zero.mpr ha]
    exact Nat.zero_le 1

theorem edges_nodup_iff {graph : LegacyGraphSnapshot} (hids : graph.ids.Nodup) :
    graph.edges.Nodup ↔ ∀ node ∈ graph.nodes, node.dependencies.Nodup := by
  unfold LegacyGraphSnapshot.edges
  rw [List.nodup_flatMap]
  constructor
  · rintro ⟨h, -⟩ node hnode
    exact List.Nodup.of_map _ (h node hnode)
  · intro h
    refine ⟨fun node hnode => (h node hnode).map fun a b hab => congrArg Prod.fst hab, ?_⟩
    refine (List.pairwise_map.mp hids).imp ?_
    intro node node' hne e he he'
    obtain ⟨a, -, rfl⟩ := List.mem_map.mp he
    obtain ⟨b, -, heq⟩ := List.mem_map.mp he'
    exact hne (congrArg Prod.snd heq).symm

theorem hasTask_iff {id : String} :
    HasTask (buildLegacyProjectImportPlan host schemas source attributable) id ↔
      id ∈ localIds (parseLegacyProjectPayloads schemas source).plan (usableGraph schemas source) := by
  have hlocal := importedTasks_local source.id (analyzeLegacyProject host schemas source attributable)
  constructor
  · rintro ⟨task, htask, rfl⟩
    have hmem : task.local_id ∈ (importedTasks source.id
        (analyzeLegacyProject host schemas source attributable)).map LegacyImportedTask.local_id :=
      List.mem_map.mpr ⟨task, htask, rfl⟩
    rw [hlocal] at hmem
    exact hmem
  · intro hid
    have hmem : id ∈ (importedTasks source.id
        (analyzeLegacyProject host schemas source attributable)).map LegacyImportedTask.local_id := by
      rw [hlocal]
      exact hid
    obtain ⟨task, htask, heq⟩ := List.mem_map.mp hmem
    exact ⟨task, htask, heq⟩

theorem hasTask_of {id : String} :
    HasTask (buildLegacyProjectImportPlan host schemas source attributable) id ↔
      (∃ plan ∈ (parseLegacyProjectPayloads schemas source).plan, id ∈ plan.ids) ∨
        ∃ graph ∈ usableGraph schemas source, id ∈ graph.ids := by
  have hdistinct : Distinct (analyzeLegacyProject host schemas source attributable) := analysis_distinct
  rw [hasTask_iff]
  exact mem_localIds hdistinct

/-- The edges that become dependencies. -/
theorem dependencies_perm :
    (buildLegacyProjectImportPlan host schemas source attributable).task_dependencies.Perm
      (((usableEdges schemas source).filter fun e => Imported
        (analyzeLegacyProject host schemas source attributable) e).map (dependencyOf source.id)) := by
  cases hgraph : usableGraph schemas source with
  | none =>
    have hnone : (analyzeLegacyProject host schemas source attributable).graph = none := hgraph
    unfold buildLegacyProjectImportPlan importedDependencies usableEdges
    dsimp only
    rw [hnone, hgraph]
    exact List.Perm.refl _
  | some graph =>
    have hsome : (analyzeLegacyProject host schemas source attributable).graph = some graph := hgraph
    unfold usableEdges
    rw [hgraph]
    exact importedDependencies_perm host hsome

theorem importedEdge_iff {e : String × String} :
    ImportedEdge source (buildLegacyProjectImportPlan host schemas source attributable) e ↔
      e ∈ usableEdges schemas source ∧
        HasTask (buildLegacyProjectImportPlan host schemas source attributable) e.1 ∧
        HasTask (buildLegacyProjectImportPlan host schemas source attributable) e.2 := by
  unfold ImportedEdge
  rw [dependencies_perm.mem_iff, List.mem_map_of_injective (dependencyOf_injective source.id),
    List.mem_filter, hasTask_iff, hasTask_iff]
  refine and_congr_right fun _ => ?_
  exact decide_eq_true_iff

/-- An edge of the graph that is not imported starts at a missing node. -/
theorem imported_or_orphan {graph : LegacyGraphSnapshot} (hgraph : usableGraph schemas source = some graph)
    {e : String × String} (he : e ∈ graph.edges) :
    ImportedEdge source (buildLegacyProjectImportPlan host schemas source attributable) e ∨
      e ∈ orphanEdges (some graph) := by
  by_cases hid : e.1 ∈ graph.ids
  · refine .inl (importedEdge_iff.mpr ⟨?_, ?_, ?_⟩)
    · unfold usableEdges
      rw [hgraph]
      exact he
    · exact hasTask_of.mpr (.inr ⟨graph, hgraph, hid⟩)
    · exact hasTask_of.mpr (.inr ⟨graph, hgraph, graph.edge_end he⟩)
  · exact .inr (List.mem_filter.mpr ⟨he, by simpa using hid⟩)

theorem mem_usableEdges {e : String × String} :
    e ∈ usableEdges schemas source ↔ ∃ graph ∈ usableGraph schemas source, e ∈ graph.edges := by
  unfold usableEdges
  cases usableGraph schemas source <;> simp

/-- The ids of the dependencies are as distinct as the edges. -/
theorem dependencies_nodup_iff :
    ((buildLegacyProjectImportPlan host schemas source attributable).task_dependencies.map
      LegacyImportedTaskDependency.id).Nodup ↔
      ((usableEdges schemas source).filter fun e => Imported
        (analyzeLegacyProject host schemas source attributable) e).Nodup := by
  rw [(dependencies_perm.map _).nodup_iff, List.map_map]
  refine List.nodup_map_iff fun e e' h => ?_
  obtain ⟨h1, h2⟩ := dependencyIdOf_cancel h
  exact Prod.ext h1 h2

/-- No edge is repeated when neither the dependencies nor the findings for lacking nodes are. -/
theorem single_of_nodup (hdependencies : ((buildLegacyProjectImportPlan host schemas source
      attributable).task_dependencies.map LegacyImportedTaskDependency.id).Nodup)
    (horphans : ((orphanEdges (usableGraph schemas source)).map label).Nodup)
    {graph : LegacyGraphSnapshot} (hgraph : usableGraph schemas source = some graph) :
    ∀ node ∈ graph.nodes, node.dependencies.Nodup := by
  have husable : usableEdges schemas source = graph.edges := by
    unfold usableEdges
    rw [hgraph]
    rfl
  rw [dependencies_nodup_iff, husable] at hdependencies
  rw [hgraph] at horphans
  refine (edges_nodup_iff (usableGraph_ids hgraph)).mp
    (nodup_of_filters hdependencies (List.Nodup.of_map _ horphans) ?_)
  intro e he
  have hcovered : ImportedEdge source (buildLegacyProjectImportPlan host schemas source attributable) e ∨
      e ∈ orphanEdges (some graph) := imported_or_orphan hgraph he
  rcases hcovered with himported | horphan
  · obtain ⟨-, h1, h2⟩ := importedEdge_iff.mp himported
    exact .inl (decide_eq_true ⟨hasTask_iff.mp h1, hasTask_iff.mp h2⟩)
  · exact .inr (List.mem_filter.mp horphan).2

/-! ### Names -/

/-- An edge of plain ids that only one side has is named. -/
theorem named_of_plain {plan : LegacyPlan} {graph : LegacyGraphSnapshot}
    (hplan : (parseLegacyProjectPayloads schemas source).plan = some plan)
    (hgraph : usableGraph schemas source = some graph) {e : String × String}
    (hplain : Plain e.1 ∧ Plain e.2) (hside : e ∈ plan.edges ↔ e ∉ graph.edges) :
    Named (allFindings host schemas source attributable) e := by
  have hkey : ∀ edges : List (String × String),
      (∃ e' ∈ edges, edgeKey e'.1 e'.2 = edgeKey e.1 e.2) ↔ e ∈ edges := by
    intro edges
    constructor
    · rintro ⟨e', he', heq⟩
      obtain ⟨h1, h2⟩ := edgeKey_cancel hplain.1 hplain.2 heq.symm
      rw [show e = e' from Prod.ext h1 h2]
      exact he'
    · intro he
      exact ⟨e, he, rfl⟩
  have hsubject : edgeSubjectId (edgeKey e.1 e.2) = label e := edgeSubjectId_edgeKey hplain.1 hplain.2
  have hp : edgeKey e.1 e.2 ∈ planEdges plan ↔ e ∈ plan.edges := mem_planEdges.trans (hkey _)
  have hg : edgeKey e.1 e.2 ∈ graphEdges graph ↔ e ∈ graph.edges := mem_graphEdges.trans (hkey _)
  rw [named_iff, hplan, hgraph]
  by_cases he : e ∈ plan.edges
  · refine .inr (.inl (List.mem_map.mpr ⟨edgeKey e.1 e.2, List.mem_filter.mpr ⟨hp.mpr he, ?_⟩, hsubject⟩))
    exact decide_eq_true fun h => hside.mp he (hg.mp h)
  · have hin : e ∈ graph.edges := by
      by_contra hnot
      exact he (hside.mpr hnot)
    refine .inl (List.mem_map.mpr ⟨edgeKey e.1 e.2, List.mem_filter.mpr ⟨hg.mpr hin, ?_⟩, hsubject⟩)
    exact decide_eq_true fun h => he (hp.mp h)

theorem label_plain {e : String × String} (h : Plain (label e)) : Plain e.1 ∧ Plain e.2 := by
  unfold Plain label at h
  rw [String.toList_append, String.toList_append, List.mem_append, List.mem_append] at h
  push Not at h
  exact ⟨h.1.1, h.2⟩

/-- An edge with a null character is named only as one that lacks its node. -/
theorem orphan_of_named {e : String × String} (hplain : ¬ (Plain e.1 ∧ Plain e.2))
    (h : Named (allFindings host schemas source attributable) e) :
    label e ∈ (orphanEdges (usableGraph schemas source)).map label := by
  rcases named_iff.mp h with h | h | h
  · obtain ⟨key, -, heq⟩ := List.mem_map.mp h
    exact absurd (label_plain (heq ▸ edgeSubjectId_plain key)) hplain
  · obtain ⟨key, -, heq⟩ := List.mem_map.mp h
    exact absurd (label_plain (heq ▸ edgeSubjectId_plain key)) hplain
  · exact h

theorem Unambiguous.named (h : Unambiguous schemas source) {plan : LegacyPlan} {graph : LegacyGraphSnapshot}
    (hplan : (parseLegacyProjectPayloads schemas source).plan = some plan)
    (hgraph : usableGraph schemas source = some graph) {e : String × String}
    (hside : e ∈ plan.edges ↔ e ∉ graph.edges) :
    Named (allFindings host schemas source attributable) e := by
  by_cases hplain : Plain e.1 ∧ Plain e.2
  · exact named_of_plain hplan hgraph hplain hside
  · exact named_iff.mpr (.inr (.inr (h.legible plan hplan graph hgraph e hplain hside)))

theorem named_build {e : String × String} :
    Named (buildLegacyProjectImportPlan host schemas source attributable).findings e ↔
      Named (allFindings host schemas source attributable) e := by
  have hperm : (buildLegacyProjectImportPlan host schemas source attributable).findings.Perm
      (allFindings host schemas source attributable) := List.mergeSort_perm _ _
  exact ⟨fun ⟨f, hf, h⟩ => ⟨f, hperm.mem_iff.mp hf, h⟩, fun ⟨f, hf, h⟩ => ⟨f, hperm.mem_iff.mpr hf, h⟩⟩

/-! ### The accounting -/

/-- The edges of the plan become dependencies or are named. -/
theorem Unambiguous.planEdges (h : Unambiguous schemas source) {plan : LegacyPlan}
    (hplan : (parseLegacyProjectPayloads schemas source).plan = some plan) {e : String × String}
    (he : e ∈ plan.edges)
    (hnot : ¬ ImportedEdge source (buildLegacyProjectImportPlan host schemas source attributable) e) :
    Named (allFindings host schemas source attributable) e := by
  cases hgraph : usableGraph schemas source with
  | none =>
    rw [h.compared plan hplan hgraph] at he
    cases he
  | some graph =>
    have hout : e ∉ graph.edges := by
      intro hin
      obtain ⟨h1, h2⟩ := LegacyPlan.edge_ends (parsedPlan_valid hplan) he
      exact hnot (importedEdge_iff.mpr ⟨mem_usableEdges.mpr ⟨graph, hgraph, hin⟩,
        hasTask_of.mpr (.inl ⟨plan, hplan, h1⟩), hasTask_of.mpr (.inl ⟨plan, hplan, h2⟩)⟩)
    exact h.named hplan hgraph ⟨fun _ => hout, fun _ => he⟩

theorem graphEdges_named {e : String × String} (he : e ∈ usableEdges schemas source)
    (hnot : ¬ ImportedEdge source (buildLegacyProjectImportPlan host schemas source attributable) e) :
    Named (allFindings host schemas source attributable) e := by
  obtain ⟨graph, hgraph, hin⟩ := mem_usableEdges.mp he
  have horphan := (imported_or_orphan hgraph hin).resolve_left hnot
  refine named_iff.mpr (.inr (.inr ?_))
  rw [show usableGraph schemas source = some graph from hgraph]
  exact List.mem_map_of_mem horphan

/-- The dependencies that the plan lacks are named. -/
theorem Unambiguous.unplanned (h : Unambiguous schemas source) {plan : LegacyPlan}
    (hplan : (parseLegacyProjectPayloads schemas source).plan = some plan) {e : String × String}
    (himported : ImportedEdge source (buildLegacyProjectImportPlan host schemas source attributable) e)
    (hout : e ∉ plan.edges) : Named (allFindings host schemas source attributable) e := by
  obtain ⟨graph, hgraph, hin⟩ := mem_usableEdges.mp (importedEdge_iff.mp himported).1
  exact h.named hplan hgraph ⟨fun he => absurd he hout, fun hnot => absurd hin hnot⟩

/-- The tasks of the modules and the nodes. -/
theorem importedTask_module {plan : LegacyPlan}
    (hplan : (parseLegacyProjectPayloads schemas source).plan = some plan) {mod : LegacyPlanModule}
    (hmod : mod ∈ plan.modules) :
    ∃ task, ((buildLegacyProjectImportPlan host schemas source attributable).tasks.filter
      fun task => task.local_id = mod.id) = [task] ∧ task.legacy_module = some mod := by
  have hids := parsedPlan_ids hplan
  have htask : HasTask (buildLegacyProjectImportPlan host schemas source attributable) mod.id :=
    hasTask_of.mpr (.inl ⟨plan, hplan, List.mem_map_of_mem hmod⟩)
  refine ⟨_, importedTasks_one (hasTask_iff.mp htask), ?_⟩
  have hbind : ((parseLegacyProjectPayloads schemas source).plan.bind
      fun plan => plan.byId.get? mod.id) = some mod := by
    rw [hplan]
    exact (byId_get?_plan hids).mpr ⟨hmod, rfl⟩
  exact hbind

theorem importedTask_node {graph : LegacyGraphSnapshot} (hgraph : usableGraph schemas source = some graph)
    {node : LegacyGraphNode} (hnode : node ∈ graph.nodes) :
    ∃ task, ((buildLegacyProjectImportPlan host schemas source attributable).tasks.filter
      fun task => task.local_id = node.id) = [task] ∧ task.legacy_graph_node = some node := by
  have hids := usableGraph_ids hgraph
  have htask : HasTask (buildLegacyProjectImportPlan host schemas source attributable) node.id :=
    hasTask_of.mpr (.inr ⟨graph, hgraph, List.mem_map_of_mem hnode⟩)
  refine ⟨_, importedTasks_one (hasTask_iff.mp htask), ?_⟩
  have hbind : ((usableGraph schemas source).bind fun graph => graph.byId.get? node.id) = some node := by
    rw [hgraph]
    exact (byId_get?_graph hids).mpr ⟨hnode, rfl⟩
  exact hbind

/-- A clean import is the plan. -/
theorem Unambiguous.clean (h : Unambiguous schemas source)
    (hclean : ∀ f ∈ allFindings host schemas source attributable, f.severity ≠ .blocking)
    (hplan : isNull source.plan = false) (hgraph : isNull source.graph = false) :
    ∃ plan ∈ (parseLegacyProjectPayloads schemas source).plan,
      ((buildLegacyProjectImportPlan host schemas source attributable).tasks.map
        LegacyImportedTask.local_id).Perm plan.ids ∧
      (∀ e, ImportedEdge source (buildLegacyProjectImportPlan host schemas source attributable) e ↔
        e ∈ plan.edges) ∧
      (∀ e, ImportedEdge source (buildLegacyProjectImportPlan host schemas source attributable) e →
        HasTask (buildLegacyProjectImportPlan host schemas source attributable) e.1 ∧
          HasTask (buildLegacyProjectImportPlan host schemas source attributable) e.2) ∧
      ∀ id, ¬ Relation.TransGen (fun a b => ImportedEdge source
        (buildLegacyProjectImportPlan host schemas source attributable) (b, a)) id id := by
  obtain ⟨plan, graph, hplan', hgraph', hadded, hremoved, horphans, hids⟩ :=
    reconciled_of_clean hclean hplan hgraph
  have hvalid := parsedPlan_valid hplan'
  have hunnamed : ∀ e, ¬ Named (allFindings host schemas source attributable) e := by
    intro e he
    rw [named_iff, hplan', hgraph', hadded, hremoved, horphans] at he
    simp at he
  have hedges : ∀ e, ImportedEdge source
      (buildLegacyProjectImportPlan host schemas source attributable) e ↔ e ∈ plan.edges := by
    intro e
    constructor
    · intro himported
      by_contra hout
      exact hunnamed e (h.unplanned hplan' himported hout)
    · intro he
      by_contra hnot
      exact hunnamed e (h.planEdges hplan' he hnot)
  refine ⟨plan, hplan', ?_, hedges, fun e he => (importedEdge_iff.mp he).2, fun id hcycle => ?_⟩
  · have hlocal := importedTasks_local source.id (analyzeLegacyProject host schemas source attributable)
    refine (List.perm_ext_iff_of_nodup (hlocal ▸ localIds_nodup _ _) (parsedPlan_ids hplan')).mpr ?_
    intro id
    have htask : id ∈ (buildLegacyProjectImportPlan host schemas source attributable).tasks.map
        LegacyImportedTask.local_id ↔
          HasTask (buildLegacyProjectImportPlan host schemas source attributable) id := List.mem_map
    rw [htask, hasTask_of, hplan', hgraph']
    simp [hids id]
  · refine hvalid.acyclic id (Relation.TransGen.mono (fun a b hab => ?_) id id hcycle)
    obtain ⟨mod, hmod, rfl, hdependency⟩ := LegacyPlan.mem_edges.mp ((hedges _).mp hab)
    have hdeps := Contracts.Plan.depsOf_of_mem hvalid.distinct
      (List.mem_map.mpr ⟨mod, hmod, rfl⟩ : mod.toPlanModule ∈ plan.contract.modules)
    show b ∈ Contracts.Plan.depsOf plan.contract.modules mod.id
    rw [hdeps]
    exact hdependency

end

/-! ### When an import accounts for everything -/

section

variable {host : Host} {schemas : Schemas} {source : LegacyProjectSnapshot} {attributable : String → Bool}

theorem accounted_of_unambiguous (hh : host.Faithful) (h : Unambiguous schemas source) :
    Accounted schemas source (buildLegacyProjectImportPlan host schemas source attributable) := by
  have hsorted : (buildLegacyProjectImportPlan host schemas source attributable).findings.Perm
      (allFindings host schemas source attributable) := List.mergeSort_perm _ _
  have hassignments : (buildLegacyProjectImportPlan host schemas source attributable).agent_assignments.Perm
      ((importedTasks source.id (analyzeLegacyProject host schemas source attributable)).map
        (importedAssignment host)) := List.mergeSort_perm _ _
  have hedges : ((usableEdges schemas source).filter fun e => Imported
      (analyzeLegacyProject host schemas source attributable) e).Nodup := by
    refine List.Nodup.filter _ ?_
    unfold usableEdges
    cases hgraph : usableGraph schemas source with
    | none => exact List.nodup_nil
    | some graph => exact (edges_nodup_iff (usableGraph_ids hgraph)).mpr (h.single graph hgraph)
  constructor
  case tasks => exact importedTasks_ids _ _
  case assignments => exact (hassignments.map _).nodup_iff.mpr (importedAssignments_ids host _ _)
  case dependencies => exact dependencies_nodup_iff.mpr hedges
  case findings =>
    exact (hsorted.map _).nodup_iff.mpr ((findings_nodup_iff hh).mpr ⟨h.added, h.removed, h.orphans⟩)
  case mappings =>
    exact ⟨((List.mergeSort_perm _ _).map _).nodup_iff.mpr (mappings_nodup _ _ _ _ _).1,
      ((List.mergeSort_perm _ _).map _).nodup_iff.mpr (mappings_nodup _ _ _ _ _).2⟩
  case modules => exact fun plan hplan mod hmod => importedTask_module hplan hmod
  case nodes => exact fun graph hgraph node hnode => importedTask_node hgraph hnode
  case edges =>
    refine ⟨_, hedges, fun e => ?_, dependencies_perm⟩
    rw [List.mem_filter, hasTask_iff, hasTask_iff]
    exact and_congr_right fun _ => decide_eq_true_iff
  case planEdges => exact fun plan hplan e he hnot => named_build.mpr (h.planEdges hplan he hnot)
  case graphEdges => exact fun e he hnot => named_build.mpr (graphEdges_named he hnot)
  case unplanned =>
    exact fun plan hplan e himported hout => named_build.mpr (h.unplanned hplan himported hout)
  case clean =>
    exact fun hclean hplan hgraph =>
      h.clean (fun f hf => hclean f (hsorted.mem_iff.mpr hf)) hplan hgraph

theorem unambiguous_of_accounted (hh : host.Faithful)
    (h : Accounted schemas source (buildLegacyProjectImportPlan host schemas source attributable)) :
    Unambiguous schemas source := by
  have hsorted : (buildLegacyProjectImportPlan host schemas source attributable).findings.Perm
      (allFindings host schemas source attributable) := List.mergeSort_perm _ _
  obtain ⟨hadded, hremoved, horphans⟩ :=
    (findings_nodup_iff hh).mp ((hsorted.map _).nodup_iff.mp h.findings)
  constructor
  case single => exact fun graph hgraph => single_of_nodup h.dependencies horphans hgraph
  case added => exact hadded
  case removed => exact hremoved
  case orphans => exact horphans
  case legible =>
    intro plan hplan graph hgraph e hplain hside
    have hnamed : Named (allFindings host schemas source attributable) e := by
      by_cases he : e ∈ plan.edges
      · refine named_build.mp (h.planEdges plan hplan e he fun himported => ?_)
        obtain ⟨graph', hgraph', hin⟩ := mem_usableEdges.mp (importedEdge_iff.mp himported).1
        cases hgraph.symm.trans hgraph'
        exact hside.mp he hin
      · by_cases himported : ImportedEdge source
            (buildLegacyProjectImportPlan host schemas source attributable) e
        · exact named_build.mp (h.unplanned plan hplan e himported he)
        · have hin : e ∈ graph.edges := by
            by_contra hnot
            exact he (hside.mpr hnot)
          exact named_build.mp (h.graphEdges e (mem_usableEdges.mpr ⟨graph, hgraph, hin⟩) himported)
    exact orphan_of_named hplain hnamed
  case compared =>
    intro plan hplan hgraph
    refine List.eq_nil_iff_forall_not_mem.mpr fun e he => ?_
    have hnot : ¬ ImportedEdge source (buildLegacyProjectImportPlan host schemas source attributable) e := by
      intro himported
      obtain ⟨graph, hsome, -⟩ := mem_usableEdges.mp (importedEdge_iff.mp himported).1
      rw [hgraph] at hsome
      cases hsome
    have hnamed := named_iff.mp (named_build.mp (h.planEdges plan hplan e he hnot))
    rw [hgraph] at hnamed
    simp [addedEdges, removedEdges, orphanEdges] at hnamed

/-- **An import accounts for everything exactly once precisely if its edges are unambiguous.** -/
theorem accounted_iff (hh : host.Faithful) :
    Accounted schemas source (buildLegacyProjectImportPlan host schemas source attributable) ↔
      Unambiguous schemas source :=
  ⟨unambiguous_of_accounted hh, accounted_of_unambiguous hh⟩

end

/-! ### A graph of two nodes without a plan -/

def nodePayload (id : String) (dependencies : List String) : Json ℚ :=
  .obj [("id", .str id), ("title", .str id), ("complexity", .str "S"), ("risk", .str "low"),
    ("parallel_safe", .bool true), ("dependencies", .arr (dependencies.map .str)), ("assignment", .null)]

def pairNode (id : String) (dependencies : List String) : LegacyGraphNode where
  id := id
  title := id
  complexity := .S
  risk := .low
  parallel_safe := true
  dependencies := dependencies
  assignment := none
  acceptance := none
  json := nodePayload id dependencies

def pairGraph (dependencies : List String) : LegacyGraphSnapshot :=
  ⟨1, [pairNode "a" [], pairNode "b" dependencies]⟩

/-- What the schemas say of the payloads of `pairProject`. -/
def pairSchemas (dependencies : List String) : Schemas where
  plan _ := .error []
  graph _ := some (pairGraph dependencies, ⟨1, [⟨"a", [], none⟩, ⟨"b", dependencies, none⟩]⟩)
  approval _ := none

def pairPayload (dependencies : List String) : Json ℚ :=
  .obj [("version", .num 1), ("nodes", .arr [nodePayload "a" [], nodePayload "b" dependencies])]

def pairProject (dependencies : List String) : LegacyProjectSnapshot where
  id := "p"
  name := "pair"
  plan := .null
  graph := pairPayload dependencies
  approval := .null
  others := [("description", .str ""), ("pmProvider", .str "anthropic"),
    ("createdAt", .str "2026-01-01T00:00:00Z")]

theorem pair_usable (dependencies : List String) :
    usableGraph (pairSchemas dependencies) (pairProject dependencies) = some (pairGraph dependencies) := by
  have hduplicates : duplicateNodeIds (pairSchemas dependencies) (pairProject dependencies) = [] := by
    have hnone : (["a", "b"].dedup.filter fun id => 1 < ["a", "b"].count id) = [] := by decide
    show sortTexts (["a", "b"].dedup.filter fun id => 1 < ["a", "b"].count id) = []
    rw [hnone]
    exact List.mergeSort_nil
  unfold usableGraph
  dsimp only
  rw [hduplicates]
  rfl

def pairNumber (q : ℚ) : String :=
  if q = 1 then "1" else .ofList ('-' :: List.replicate (Encodable.encode q) '0')

theorem pairNumber_prints : Json.Prints pairNumber := by
  have hne : ∀ l : List Char, "1" ≠ String.ofList ('-' :: l) := fun l he => by
    have hhead := congrArg (fun t => t.toList.head?) he
    simp at hhead
  refine ⟨fun p q h => ?_, fun q h => ?_, fun q c hc => ?_⟩
  · unfold pairNumber at h
    split_ifs at h with hp hq hq
    · rw [hp, hq]
    · exact absurd h (hne _)
    · exact absurd h.symm (hne _)
    · have hlength := congrArg (fun t => t.toList.length) h
      simp only [String.toList_ofList, List.length_cons, List.length_replicate] at hlength
      exact Encodable.encode_injective (by omega)
  · unfold pairNumber at h
    split_ifs at h <;> simp at h
  · unfold pairNumber at hc
    split_ifs at hc
    · rw [List.mem_singleton.mp hc]
      decide
    · rw [String.toList_ofList] at hc
      rcases List.mem_cons.mp hc with rfl | hc
      · decide
      · rw [List.eq_of_mem_replicate hc]
        decide

/-- The SHA-256 of what the import of `pairProject ["a"]` takes the hash of. -/
def pairHashes : List (Json ℚ × String) :=
  [((pairProject ["a"]).toJson, "b42e17f2965f3d6d1adec685ecab439b343f5070555753ce125c91d8f043c99a"),
    (pairPayload ["a"], "31c2287e0147b039fb7c9a786b9bacf253785f184d8004b6037142667a49904a"),
    (.null, "74234e98afe7498fb5daf1f36ac2d78acc339464f950703b8c019892f982b90b"),
    (findingIdentity "p" .graph_without_plan .project "p" (.obj []),
      "dd55bf35ae84376651741827f620c316f5f58b128377f9c36f90d88bafaf2f72"),
    (findingIdentity "p" .assignment_missing .assignment "a" (.obj []),
      "b6ec531ca00bb168d5615a2c300496f32e7f79d3e4db351bda845d38d710fa55"),
    (findingIdentity "p" .assignment_missing .assignment "b" (.obj []),
      "f97e29bcbc67126399726b07285ffae155d00b78a57a12e9ad04890d629840ac"),
    (.obj [("module", .null), ("node", nodePayload "a" [])],
      "e63d4bcdb588489a1f7b773975bf8dca3078eb42e719dd26abf9e2318e42d37b"),
    (.obj [("module", .null), ("node", nodePayload "b" ["a"])],
      "8173c970e06aa8b158a337eb8f8890da10aeb5a33ef3d92f4660084a57b0b245")]

def pairText (row : Json ℚ × String) : String := Json.stringify pairNumber (canonical row.1)

def pairHost : Host where
  sha256 s := ((pairHashes.find? fun row => pairText row = s).map Prod.snd).getD ("#" ++ s)
  localeCompare := compare
  numberText := pairNumber

theorem ofList_ne_marked (l : List Char) (h : l.head? ≠ some '#') (u : String) : String.ofList l ≠ "#" ++ u := by
  intro he
  have hlist := congrArg String.toList he
  rw [String.toList_ofList] at hlist
  rw [hlist] at h
  simp at h

theorem pairHost_faithful : pairHost.Faithful where
  sha256 s t h := by
    have hdistinct : (pairHashes.map Prod.snd).Nodup := by decide +kernel
    have hhex : ∀ row ∈ pairHashes, ∀ u : String, row.2 ≠ "#" ++ u := by
      intro row hrow u he
      unfold pairHashes at hrow
      simp only [List.mem_cons, List.not_mem_nil, or_false] at hrow
      rcases hrow with rfl | rfl | rfl | rfl | rfl | rfl | rfl | rfl
      all_goals exact ofList_ne_marked _ (by simp) u he
    have hfound : ∀ {u : String} {row : Json ℚ × String},
        (pairHashes.find? fun row => pairText row = u) = some row → row ∈ pairHashes ∧ pairText row = u := by
      intro u row hrow
      exact ⟨List.mem_of_find?_eq_some hrow, by simpa using List.find?_some hrow⟩
    simp only [pairHost] at h
    cases hs : pairHashes.find? fun row => pairText row = s with
    | none =>
      cases ht : pairHashes.find? fun row => pairText row = t with
      | none =>
        rw [hs, ht] at h
        exact (String.append_right_inj _).mp h
      | some row =>
        rw [hs, ht] at h
        exact absurd h.symm (hhex row (hfound ht).1 s)
    | some row =>
      obtain ⟨hrow, rfl⟩ := hfound hs
      cases ht : pairHashes.find? fun row => pairText row = t with
      | none =>
        rw [hs, ht] at h
        exact absurd h (hhex row hrow t)
      | some row' =>
        obtain ⟨hrow', rfl⟩ := hfound ht
        rw [hs, ht] at h
        have hsame : row = row' := List.inj_on_of_nodup_map hdistinct hrow hrow' h
        rw [hsame]
  numberText := pairNumber_prints

theorem accounted_pair :
    Accounted (pairSchemas ["a"]) (pairProject ["a"])
      (buildLegacyProjectImportPlan pairHost (pairSchemas ["a"]) (pairProject ["a"]) fun _ => true) := by
  refine (accounted_iff pairHost_faithful).mpr ⟨?_, ?_, ?_, ?_, ?_, ?_⟩
  · intro graph hgraph
    rw [pair_usable] at hgraph
    cases hgraph
    decide
  · exact List.nodup_nil
  · exact List.nodup_nil
  · rw [pair_usable]
    decide
  · intro plan hplan
    cases hplan
  · intro plan hplan
    cases hplan

/-- A node that repeats a dependency gives two dependencies with one id. -/
theorem repeated_dependency_fails :
    ¬ ∀ (host : Host) (schemas : Schemas) (source : LegacyProjectSnapshot) (attributable : String → Bool),
      host.Faithful → Accounted schemas source
        (buildLegacyProjectImportPlan host schemas source attributable) := by
  intro hall
  have h := unambiguous_of_accounted pairHost_faithful
    (hall pairHost (pairSchemas ["a", "a"]) (pairProject ["a", "a"]) (fun _ => true) pairHost_faithful)
  have hsingle := h.single (pairGraph ["a", "a"]) (pair_usable _) (pairNode "b" ["a", "a"]) (by simp [pairGraph])
  revert hsingle
  decide

end Norns.Migration
