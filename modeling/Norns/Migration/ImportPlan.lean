import Norns.Migration.Reconciliation

/-! # The import plan of a legacy project

`buildLegacyProjectImportPlan` (`projectImportPlan.ts`): tasks from the modules of the plan and the nodes of the
graph, an assignment each, dependencies from the graph, and the identities all of them get. Texts that are
only carried over (titles, descriptions, rationales, the policies, the agent profiles) are left out.

* `taskIdOf_injective`, `dependencyIdOf_cancel`: an id tells what it is the id of;
* `importedTasks_one`: what the plan and the graph name becomes one task;
* `importedDependencies_perm`: the dependencies are the edges of the graph between tasks. -/

namespace Norns.Migration

open Norns.Lib
open Norns.Graph.Allocation (Host)

inductive LegacyImportedTaskIntent
  | pending | cancelled
  deriving DecidableEq, Repr

inductive LegacyImportedTaskSource
  | plan_and_graph | graph_only | plan_only_deleted | plan_unverified
  deriving DecidableEq, Repr

structure LegacyImportedTask where
  id : String
  local_id : String
  state : LegacyImportedTaskIntent
  designated_assignment_id : String
  source_kind : LegacyImportedTaskSource
  blocked_by_finding_ids : List String
  legacy_module : Option LegacyPlanModule
  legacy_graph_node : Option LegacyGraphNode

structure LegacyImportedAssignment where
  id : String
  task_id : String
  /-- `cancelled`, else `proposed` -/
  cancelled : Bool
  budget_limit_usd : ℚ
  legacy_worker_count : ℚ
  source_hash : String

structure LegacyImportedTaskDependency where
  id : String
  predecessor_task_id : String
  successor_task_id : String
  deriving DecidableEq

structure LegacyHistoricalApprovalEvidence where
  id : String
  source_actor_text : String
  approved_at : String
  content_hash : String
  graph_version : ℕ
  allocation_fingerprint : String
  current_at_freeze : Bool
  source_hash : String

structure LegacyImportIdMapping where
  legacy_entity_type : String
  legacy_id : String
  v2_entity_type : String
  v2_id : String
  source_hash : String

structure LegacyImportedStrategy where
  id : String
  proposed_objective_id : String
  proposed_task_ids : List String
  proposed_assignment_ids : List String
  finding_ids : List String

inductive LegacyImportedProjectStatus
  | initializing | paused | blocked
  deriving DecidableEq, Repr

structure LegacyProjectImportPlan where
  source_hash : String
  legacy_graph_version : Option ℕ
  status : LegacyImportedProjectStatus
  /-- The phase and the objective, if there is something to import. -/
  phase_id : Option String
  objective_id : Option String
  strategy : Option LegacyImportedStrategy
  tasks : List LegacyImportedTask
  task_dependencies : List LegacyImportedTaskDependency
  agent_assignments : List LegacyImportedAssignment
  historical_approval : Option LegacyHistoricalApprovalEvidence
  findings : List LegacyProjectReconciliationFinding
  id_mappings : List LegacyImportIdMapping

/-! ### Ids -/

def materializedId (kind phaseId : String) (localParts : List String) : String :=
  String.intercalate ":" ((kind :: phaseId :: localParts).map encodeURIComponent)

def phaseIdOf (projectId : String) : String := "phase:legacy:" ++ encodeURIComponent projectId

def taskIdOf (projectId localId : String) : String :=
  materializedId "task" (phaseIdOf projectId) [localId]

def assignmentIdOf (projectId localId : String) : String :=
  materializedId "assignment" (phaseIdOf projectId) ["legacy-assignment:" ++ localId]

def dependencyIdOf (projectId predecessorId successorId : String) : String :=
  materializedId "task-dependency" (phaseIdOf projectId) [predecessorId, successorId]

variable (host : Host)

def deterministicId (kind : String) (identity : Json ℚ) : String :=
  kind ++ ":" ++ canonicalSha256 host identity

/-! ### The plan -/

def findingsForTask (findings : List LegacyProjectReconciliationFinding) (localId : String) :
    List String :=
  sortTexts ((findings.filter fun entry =>
    (entry.subject_type = .task ∨ entry.subject_type = .assignment) ∧ entry.subject_id = localId).map
      LegacyProjectReconciliationFinding.id)

def currentApprovalAtFreeze (approval : LegacyAllocationApproval)
    (findings : List LegacyProjectReconciliationFinding) : Bool :=
  !findings.any fun entry => entry.subject_id = approval.content_hash ∧
    entry.code ∈ [LegacyProjectReconciliationCode.assignment_changed_since_approval,
      .approval_graph_version_mismatch, .approval_content_hash_mismatch]

/-- The ids of the modules and the nodes. -/
def localIds (plan : Option LegacyPlan) (graph : Option LegacyGraphSnapshot) : List String :=
  sortTexts (((plan.map fun plan => plan.byId.keys).getD [] ++
    (graph.map fun graph => graph.byId.keys).getD []).dedup)

def sourceKind (mod : Option LegacyPlanModule) (node : Option LegacyGraphNode)
    (graphIsUsable : Bool) : LegacyImportedTaskSource :=
  match mod, node with
  | some _, some _ => .plan_and_graph
  | none, some _ => .graph_only
  | _, none => if graphIsUsable then .plan_only_deleted else .plan_unverified

def taskState (kind : LegacyImportedTaskSource) : LegacyImportedTaskIntent :=
  if kind = .plan_only_deleted then .cancelled else .pending

section

variable (projectId : String) (analysis : LegacyProjectAnalysis)

def importedTask (localId : String) : LegacyImportedTask :=
  let mod := analysis.plan.bind fun plan => plan.byId.get? localId
  let node := analysis.graph.bind fun graph => graph.byId.get? localId
  let kind := sourceKind mod node analysis.graph.isSome
  { id := taskIdOf projectId localId
    local_id := localId
    state := taskState kind
    designated_assignment_id := assignmentIdOf projectId localId
    source_kind := kind
    blocked_by_finding_ids := findingsForTask analysis.report.findings localId
    legacy_module := mod
    legacy_graph_node := node }

def importedAssignment (task : LegacyImportedTask) : LegacyImportedAssignment :=
  let legacyAssignment := task.legacy_graph_node.bind LegacyGraphNode.assignment
  { id := task.designated_assignment_id
    task_id := task.id
    cancelled := task.state = .cancelled
    budget_limit_usd := (legacyAssignment.map fun assignment => assignment.budget_usd).getD 0
    legacy_worker_count := (legacyAssignment.map fun assignment => assignment.worker_count).getD 0
    source_hash := canonicalSha256 host
      ((legacyAssignment.map fun assignment => assignment.toJson).getD .null) }

def importedTasks : List LegacyImportedTask :=
  (localIds analysis.plan analysis.graph).map (importedTask projectId analysis)

def taskIdByLocalId : OrdMap String String :=
  .ofList ((importedTasks projectId analysis).map fun task => (task.local_id, task.id))

def importedDependency (predecessorLocalId nodeId : String) : Option LegacyImportedTaskDependency :=
  match (taskIdByLocalId projectId analysis).get? predecessorLocalId,
      (taskIdByLocalId projectId analysis).get? nodeId with
  | some predecessorTaskId, some successorTaskId => some {
      id := dependencyIdOf projectId predecessorLocalId nodeId
      predecessor_task_id := predecessorTaskId
      successor_task_id := successorTaskId }
  | _, _ => none

def importedDependencies : List LegacyImportedTaskDependency :=
  match analysis.graph with
  | none => []
  | some graph =>
    (graph.nodes.flatMap fun node => node.dependencies.filterMap fun predecessorLocalId =>
      importedDependency projectId analysis predecessorLocalId node.id).mergeSort
        fun left right => host.localeCompare left.id right.id != .gt

end

section

variable (source : LegacyProjectSnapshot) (analysis : LegacyProjectAnalysis)

def historicalApproval (hasImportedPhase : Bool) : Option LegacyHistoricalApprovalEvidence :=
  match analysis.approval with
  | none => none
  | some approval =>
    if hasImportedPhase then some {
      id := deterministicId host "legacy-approval"
        (.obj [("project_id", .str source.id), ("approval", approval.toJson)])
      source_actor_text := approval.actor
      approved_at := approval.approved_at
      content_hash := approval.content_hash
      graph_version := approval.graph_version
      allocation_fingerprint := approval.allocation_fingerprint
      current_at_freeze := analysis.graph.isSome &&
        currentApprovalAtFreeze approval analysis.report.findings
      source_hash := canonicalSha256 host approval.toJson }
    else none

def objectiveIdOf : String :=
  materializedId "objective" (phaseIdOf source.id) ["legacy-project-objective"]

def strategyIdOf : String :=
  "strategy:legacy:" ++ encodeURIComponent source.id ++ ":" ++
    (analysis.report.plan_hash.orElse fun _ => analysis.report.graph_hash).getD
      analysis.report.source_hash

def taskMapping (task : LegacyImportedTask) : LegacyImportIdMapping where
  legacy_entity_type := "project_task_identity"
  legacy_id := source.id ++ "#" ++ task.local_id
  v2_entity_type := "task"
  v2_id := task.id
  source_hash := canonicalSha256 host
    (.obj [("module", (task.legacy_module.map LegacyPlanModule.json).getD .null),
      ("node", (task.legacy_graph_node.map LegacyGraphNode.json).getD .null)])

def assignmentMapping (assignment : LegacyImportedAssignment) : LegacyImportIdMapping where
  legacy_entity_type := "project_assignment"
  legacy_id := source.id ++ "#" ++ assignment.task_id
  v2_entity_type := "agent_assignment"
  v2_id := assignment.id
  source_hash := assignment.source_hash

/-- The mappings of the project and of what it has once. -/
def projectMappings (hasImportedPhase hasStrategy : Bool)
    (approval : Option LegacyHistoricalApprovalEvidence) : List LegacyImportIdMapping :=
  let report := analysis.report
  [{ legacy_entity_type := "project", legacy_id := source.id, v2_entity_type := "project",
     v2_id := source.id, source_hash := report.source_hash }] ++
  (if hasImportedPhase then
    [{ legacy_entity_type := "project_initial_phase", legacy_id := source.id ++ "#initial-phase",
       v2_entity_type := "phase", v2_id := phaseIdOf source.id, source_hash := report.source_hash },
     { legacy_entity_type := "project_objective", legacy_id := source.id ++ "#objective",
       v2_entity_type := "objective", v2_id := objectiveIdOf source,
       source_hash := report.plan_hash.getD report.source_hash }] else []) ++
  (if hasStrategy then
    [{ legacy_entity_type := "project_strategy", legacy_id := source.id ++ "#strategy",
       v2_entity_type := "strategy_version", v2_id := strategyIdOf source analysis,
       source_hash := (report.plan_hash.orElse fun _ => report.graph_hash).getD
         report.source_hash }] else []) ++
  (approval.map fun approval =>
    { legacy_entity_type := "allocation_approval",
      legacy_id := source.id ++ "#" ++ approval.content_hash,
      v2_entity_type := "legacy_approval_evidence", v2_id := approval.id,
      source_hash := approval.source_hash }).toList

def sortMappings (mappings : List LegacyImportIdMapping) : List LegacyImportIdMapping :=
  mappings.mergeSort fun left right =>
    (host.localeCompare left.v2_entity_type right.v2_entity_type).then
      (host.localeCompare left.v2_id right.v2_id) != .gt

end

variable (schemas : Schemas) (source : LegacyProjectSnapshot)

def buildLegacyProjectImportPlan (attributable : String → Bool) : LegacyProjectImportPlan :=
  let analysis := analyzeLegacyProject host schemas source attributable
  let hasImportedPhase := !isNull source.plan || !isNull source.graph || analysis.plan.isSome ||
    analysis.graph.isSome
  let tasks := importedTasks source.id analysis
  let assignments := tasks.map (importedAssignment host)
  let hasStrategy := hasImportedPhase && !tasks.isEmpty
  let hasBlockingFinding := analysis.report.findings.any fun entry => entry.severity = .blocking
  let approval := historicalApproval host source analysis hasImportedPhase
  { source_hash := analysis.report.source_hash
    legacy_graph_version := analysis.graph.map LegacyGraphSnapshot.version
    status := if hasImportedPhase = false then .initializing
      else if hasBlockingFinding then .blocked else .paused
    phase_id := if hasImportedPhase then some (phaseIdOf source.id) else none
    objective_id := if hasImportedPhase then some (objectiveIdOf source) else none
    strategy := if hasStrategy then some {
        id := strategyIdOf source analysis
        proposed_objective_id := objectiveIdOf source
        proposed_task_ids := tasks.map LegacyImportedTask.id
        proposed_assignment_ids := sortTexts (assignments.map LegacyImportedAssignment.id)
        finding_ids := analysis.report.findings.map LegacyProjectReconciliationFinding.id }
      else none
    tasks := tasks
    task_dependencies := importedDependencies host source.id analysis
    agent_assignments := assignments.mergeSort fun left right =>
      host.localeCompare left.id right.id != .gt
    historical_approval := approval
    findings := analysis.report.findings
    id_mappings := sortMappings host (projectMappings source analysis hasImportedPhase hasStrategy
      approval ++ tasks.map (taskMapping host source) ++ assignments.map (assignmentMapping source)) }

/-! ### Ids are distinct -/

theorem materializedId_one (kind phaseId a : String) : materializedId kind phaseId [a] =
    encodeURIComponent kind ++ ":" ++ encodeURIComponent phaseId ++ ":" ++ encodeURIComponent a := by
  unfold materializedId
  rw [List.map_cons, List.map_cons, List.map_cons, List.map_nil]
  generalize encodeURIComponent kind = k, encodeURIComponent phaseId = p, encodeURIComponent a = x
  rfl

theorem materializedId_two (kind phaseId a b : String) : materializedId kind phaseId [a, b] =
    encodeURIComponent kind ++ ":" ++ encodeURIComponent phaseId ++ ":" ++
      (encodeURIComponent a ++ ":" ++ encodeURIComponent b) := by
  unfold materializedId
  rw [List.map_cons, List.map_cons, List.map_cons, List.map_cons, List.map_nil]
  generalize encodeURIComponent kind = k, encodeURIComponent phaseId = p, encodeURIComponent a = x,
    encodeURIComponent b = y
  rw [← String.append_assoc, ← String.append_assoc]
  rfl

theorem taskIdOf_injective (projectId : String) : Function.Injective (taskIdOf projectId) := by
  intro a b h
  unfold taskIdOf at h
  rw [materializedId_one, materializedId_one] at h
  exact encodeURIComponent_injective ((String.append_right_inj _).mp h)

theorem assignmentIdOf_injective (projectId : String) : Function.Injective (assignmentIdOf projectId) := by
  intro a b h
  unfold assignmentIdOf at h
  rw [materializedId_one, materializedId_one] at h
  have hlocal := encodeURIComponent_injective ((String.append_right_inj _).mp h)
  exact (String.append_right_inj _).mp hlocal

theorem dependencyIdOf_cancel {projectId a b a' b' : String}
    (h : dependencyIdOf projectId a b = dependencyIdOf projectId a' b') : a = a' ∧ b = b' := by
  unfold dependencyIdOf at h
  rw [materializedId_two, materializedId_two] at h
  exact joined_cancel ((String.append_right_inj _).mp h)

/-! ### Tasks -/

section

variable {projectId : String} {analysis : LegacyProjectAnalysis}

/-- The plan and the graph of an analysis repeat no id. -/
structure Distinct (analysis : LegacyProjectAnalysis) : Prop where
  plan : ∀ plan ∈ analysis.plan, plan.ids.Nodup
  graph : ∀ graph ∈ analysis.graph, graph.ids.Nodup

theorem keys_plan {plan : LegacyPlan} (hids : plan.ids.Nodup) : plan.byId.keys = plan.ids := by
  have hkeys : (plan.modules.map fun mod => (mod.id, mod)).map Prod.fst = plan.ids := by
    rw [List.map_map]
    rfl
  unfold LegacyPlan.byId
  rw [OrdMap.keys_ofList (by rw [hkeys]; exact hids), hkeys]

theorem keys_graph {graph : LegacyGraphSnapshot} (hids : graph.ids.Nodup) :
    graph.byId.keys = graph.ids := by
  have hkeys : (graph.nodes.map fun node => (node.id, node)).map Prod.fst = graph.ids := by
    rw [List.map_map]
    rfl
  unfold LegacyGraphSnapshot.byId
  rw [OrdMap.keys_ofList (by rw [hkeys]; exact hids), hkeys]

theorem localIds_nodup (plan : Option LegacyPlan) (graph : Option LegacyGraphSnapshot) :
    (localIds plan graph).Nodup := (sortTexts_perm _).nodup_iff.mpr (List.nodup_dedup _)

theorem mem_localIds (h : Distinct analysis) {id : String} :
    id ∈ localIds analysis.plan analysis.graph ↔
      (∃ plan ∈ analysis.plan, id ∈ plan.ids) ∨ ∃ graph ∈ analysis.graph, id ∈ graph.ids := by
  unfold localIds
  rw [mem_sortTexts, List.mem_dedup, List.mem_append]
  refine or_congr ?_ ?_
  · cases hplan : analysis.plan with
    | none => simp
    | some plan => simp [keys_plan (h.plan plan hplan)]
  · cases hgraph : analysis.graph with
    | none => simp
    | some graph => simp [keys_graph (h.graph graph hgraph)]

theorem importedTasks_local (projectId : String) (analysis : LegacyProjectAnalysis) :
    (importedTasks projectId analysis).map LegacyImportedTask.local_id =
      localIds analysis.plan analysis.graph := by
  unfold importedTasks
  rw [List.map_map]
  exact List.map_id _

theorem importedTasks_ids (projectId : String) (analysis : LegacyProjectAnalysis) :
    ((importedTasks projectId analysis).map LegacyImportedTask.id).Nodup := by
  unfold importedTasks
  rw [List.map_map]
  exact (localIds_nodup _ _).map (taskIdOf_injective projectId)

theorem importedAssignments_ids (projectId : String) (analysis : LegacyProjectAnalysis) :
    (((importedTasks projectId analysis).map (importedAssignment host)).map
      LegacyImportedAssignment.id).Nodup := by
  unfold importedTasks
  rw [List.map_map, List.map_map]
  exact (localIds_nodup _ _).map (assignmentIdOf_injective projectId)

/-- An id of the plan or the graph has one task. -/
theorem importedTasks_one {id : String} (hid : id ∈ localIds analysis.plan analysis.graph) :
    ((importedTasks projectId analysis).filter fun task => task.local_id = id) =
      [importedTask projectId analysis id] := by
  have hfilter : ((importedTasks projectId analysis).filter fun task => task.local_id = id) =
      ((localIds analysis.plan analysis.graph).filter fun other => other = id).map
        (importedTask projectId analysis) := by
    unfold importedTasks
    rw [List.filter_map]
    rfl
  have hone : ((localIds analysis.plan analysis.graph).filter fun other => other = id) = [id] := by
    have hcount := List.count_eq_one_of_mem (localIds_nodup analysis.plan analysis.graph) hid
    rw [← List.replicate_one, ← hcount, ← List.filter_eq]
  rw [hfilter, hone]
  rfl

/-! ### Dependencies -/

theorem taskIdByLocalId_get? {id : String} :
    (taskIdByLocalId projectId analysis).get? id =
      if id ∈ localIds analysis.plan analysis.graph then some (taskIdOf projectId id) else none := by
  have hentries : (importedTasks projectId analysis).map (fun task => (task.local_id, task.id)) =
      (localIds analysis.plan analysis.graph).map fun id => (id, taskIdOf projectId id) := by
    unfold importedTasks
    rw [List.map_map]
    rfl
  have hkeys : ((localIds analysis.plan analysis.graph).map fun id => (id, taskIdOf projectId id)).map
      Prod.fst = localIds analysis.plan analysis.graph := by
    rw [List.map_map]
    exact List.map_id _
  have hnodup := localIds_nodup analysis.plan analysis.graph
  unfold taskIdByLocalId
  rw [hentries]
  split
  case isTrue hid =>
    rw [OrdMap.get?_ofList (by rw [hkeys]; exact hnodup)]
    exact List.mem_map.mpr ⟨id, hid, rfl⟩
  case isFalse hid =>
    rw [OrdMap.get?_eq_none, OrdMap.keys_ofList (by rw [hkeys]; exact hnodup), hkeys]
    exact hid

/-- The dependency of an edge. -/
def dependencyOf (projectId : String) (e : String × String) : LegacyImportedTaskDependency where
  id := dependencyIdOf projectId e.1 e.2
  predecessor_task_id := taskIdOf projectId e.1
  successor_task_id := taskIdOf projectId e.2

/-- Both ends have a task. -/
def Imported (analysis : LegacyProjectAnalysis) (e : String × String) : Prop :=
  e.1 ∈ localIds analysis.plan analysis.graph ∧ e.2 ∈ localIds analysis.plan analysis.graph

instance (e : String × String) : Decidable (Imported analysis e) := inferInstanceAs (Decidable (_ ∧ _))

theorem importedDependency_eq (e : String × String) :
    importedDependency projectId analysis e.1 e.2 =
      if Imported analysis e then some (dependencyOf projectId e) else none := by
  unfold importedDependency
  rw [taskIdByLocalId_get?, taskIdByLocalId_get?]
  by_cases h1 : e.1 ∈ localIds analysis.plan analysis.graph <;>
  by_cases h2 : e.2 ∈ localIds analysis.plan analysis.graph <;>
  simp [Imported, dependencyOf, h1, h2]

theorem importedDependencies_perm {graph : LegacyGraphSnapshot} (hgraph : analysis.graph = some graph) :
    (importedDependencies host projectId analysis).Perm
      ((graph.edges.filter fun e => Imported analysis e).map (dependencyOf projectId)) := by
  unfold importedDependencies
  rw [hgraph]
  refine (List.mergeSort_perm _ _).trans (List.Perm.of_eq ?_)
  unfold LegacyGraphSnapshot.edges
  rw [List.filter_flatMap, List.map_flatMap]
  refine List.flatMap_congr fun node _ => ?_
  rw [← List.filterMap_eq_map, ← List.filterMap_eq_filter, List.filterMap_filterMap,
    List.filterMap_map]
  refine List.filterMap_congr fun predecessorId _ => ?_
  rw [importedDependency_eq (predecessorId, node.id)]
  by_cases h : Imported analysis (predecessorId, node.id) <;> simp [h, Option.guard]

theorem dependencyOf_injective (projectId : String) : Function.Injective (dependencyOf projectId) := by
  intro e e' h
  obtain ⟨h1, h2⟩ := dependencyIdOf_cancel (congrArg LegacyImportedTaskDependency.id h)
  exact Prod.ext h1 h2

end

end Norns.Migration
