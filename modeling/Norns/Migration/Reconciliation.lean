import Mathlib.Data.List.Dedup
import Mathlib.Data.List.TakeWhile
import Norns.Contracts.Plan
import Norns.Graph.Allocation
import Norns.Lib.Uri

/-! # Reconciliation of legacy projects

`persistence/migration`: `canonicalJson.ts`, the payloads of `legacyProjectSchemas.ts` and
`projectReconciliation.ts`. The schemas that read a payload are a parameter; `validatePlan` is the one of the
contracts.

* `canonicalSha256_cancel`: under one set of keys, different values have different hashes;
* `edgeKey_cancel`, `edgeSubjectId_edgeKey`: what a key says of an edge whose ids have no null character;
* `finding_id_inj`: the id of a finding tells its code and its subject. -/

namespace Norns.Migration

open Norns.Lib
open Norns.Contracts.Plan (Complexity RiskLevel PlanModule PlanContract SchemaIssue validatePlan)
open Norns.Graph.Allocation (Host complexityText riskText)
open Norns.Graph.Assignment (NodeAssignment)

/-! ### Canonical JSON -/

/-- The code units by which JavaScript orders strings. -/
def utf16 (s : String) : List ℕ := s.toList.flatMap fun c =>
  if c.toNat < 0x10000 then [c.toNat]
  else [0xD800 + (c.toNat - 0x10000) / 0x400, 0xDC00 + (c.toNat - 0x10000) % 0x400]

def textLe (s t : String) : Bool := decide (utf16 s ≤ utf16 t)

/-- `[...].sort()` -/
def sortTexts (l : List String) : List String := l.mergeSort textLe

section

variable {ν : Type}

mutual

/-- The value with the keys of its objects in order. -/
def canonical : Json ν → Json ν
  | .null => .null
  | .bool b => .bool b
  | .num x => .num x
  | .str s => .str s
  | .arr items => .arr (canonicalItems items)
  | .obj fields => .obj ((canonicalFields fields).mergeSort fun a b => textLe a.1 b.1)

def canonicalItems : List (Json ν) → List (Json ν)
  | [] => []
  | item :: items => canonical item :: canonicalItems items

def canonicalFields : List (String × Json ν) → List (String × Json ν)
  | [] => []
  | (key, value) :: fields => (key, canonical value) :: canonicalFields fields

end

def isNull : Json ν → Bool
  | .null => true
  | _ => false

end

variable (host : Host)

def canonicalJson (value : Json ℚ) : String := Json.stringify host.numberText (canonical value)

def canonicalSha256 (value : Json ℚ) : String := host.sha256 (canonicalJson host value)

/-! ### Payloads -/

inductive VerificationType
  | test | command | inspection | human
  deriving DecidableEq, Repr

def VerificationType.text : VerificationType → String
  | .test => "test"
  | .command => "command"
  | .inspection => "inspection"
  | .human => "human"

structure AcceptanceCriterion where
  id : String
  statement : String
  verification_type : VerificationType
  verification : String

def AcceptanceCriterion.toJson (criterion : AcceptanceCriterion) : Json ℚ :=
  .obj [("id", .str criterion.id), ("statement", .str criterion.statement),
    ("verification_type", .str criterion.verification_type.text),
    ("verification", .str criterion.verification)]

def acceptanceJson (acceptance : List AcceptanceCriterion) : Json ℚ :=
  .arr (acceptance.map AcceptanceCriterion.toJson)

/-- A module of a plan with its acceptance criteria, and as the schema returns it. -/
structure LegacyPlanModule extends PlanModule where
  acceptance : List AcceptanceCriterion
  json : Json ℚ

structure LegacyPlan where
  modules : List LegacyPlanModule

def LegacyPlan.contract (plan : LegacyPlan) : PlanContract where
  modules := plan.modules.map LegacyPlanModule.toPlanModule

structure LegacyGraphNode where
  id : String
  title : String
  complexity : Complexity
  risk : RiskLevel
  parallel_safe : Bool
  dependencies : List String
  assignment : Option NodeAssignment
  acceptance : Option (List AcceptanceCriterion)
  /-- as the schema returns it -/
  json : Json ℚ

structure LegacyGraphSnapshot where
  version : ℕ
  nodes : List LegacyGraphNode

/-- An assignment as the payload has it, before the defaults. -/
structure LegacyAssignmentInput where
  budget_usd : ℚ
  json : Json ℚ

structure LegacyGraphNodeInput where
  id : String
  dependencies : List String
  assignment : Option LegacyAssignmentInput

structure LegacyGraphSnapshotInput where
  version : ℕ
  nodes : List LegacyGraphNodeInput

structure LegacyAllocationApproval where
  content_hash : String
  graph_version : ℕ
  allocation_fingerprint : String
  actor : String
  approved_at : String

def LegacyAllocationApproval.toJson (approval : LegacyAllocationApproval) : Json ℚ :=
  .obj [("content_hash", .str approval.content_hash), ("graph_version", .num approval.graph_version),
    ("allocation_fingerprint", .str approval.allocation_fingerprint), ("actor", .str approval.actor),
    ("approved_at", .str approval.approved_at)]

structure LegacyProjectSnapshot where
  id : String
  name : String
  plan : Json ℚ
  graph : Json ℚ
  approval : Json ℚ
  /-- The other fields. -/
  others : List (String × Json ℚ)

def LegacyProjectSnapshot.toJson (source : LegacyProjectSnapshot) : Json ℚ :=
  .obj ([("id", .str source.id), ("name", .str source.name), ("plan", source.plan),
    ("graph", source.graph), ("approval", source.approval)] ++ source.others)

/-- What the schemas read in a payload; a graph is kept as it was as well. -/
structure Schemas where
  plan : Json ℚ → Except (List SchemaIssue) LegacyPlan
  graph : Json ℚ → Option (LegacyGraphSnapshot × LegacyGraphSnapshotInput)
  approval : Json ℚ → Option LegacyAllocationApproval

structure ParsedLegacyProjectPayloads where
  plan : Option LegacyPlan
  graph : Option LegacyGraphSnapshot
  graph_source : Option LegacyGraphSnapshotInput
  approval : Option LegacyAllocationApproval
  plan_valid : Bool
  graph_valid : Bool
  approval_valid : Bool

section

variable (schemas : Schemas)

/-- `validatePlan`: the schema, then the checks. -/
def validPlan (payload : Json ℚ) : Option LegacyPlan :=
  match schemas.plan payload with
  | .error _ => none
  | .ok plan =>
    match validatePlan (fun _ : Unit => .ok plan.contract) () with
    | .error _ => none
    | .ok _ => some plan

def parseLegacyProjectPayloads (source : LegacyProjectSnapshot) : ParsedLegacyProjectPayloads :=
  let planResult := if isNull source.plan then none else validPlan schemas source.plan
  let graphResult := if isNull source.graph then none else schemas.graph source.graph
  let approvalResult := if isNull source.approval then none else schemas.approval source.approval
  { plan := planResult
    graph := graphResult.map Prod.fst
    graph_source := graphResult.map Prod.snd
    approval := approvalResult
    plan_valid := isNull source.plan || planResult.isSome
    graph_valid := isNull source.graph || graphResult.isSome
    approval_valid := isNull source.approval || approvalResult.isSome }

end

/-! ### Findings -/

inductive LegacyProjectReconciliationCode
  | invalid_plan_payload | invalid_graph_payload | invalid_approval_payload | plan_without_graph
  | graph_without_plan | graph_node_without_plan_module | plan_module_without_graph_node
  | shared_task_field_mismatch | acceptance_criteria_unavailable
  | acceptance_criteria_projection_mismatch | dependency_edge_added_in_graph
  | dependency_edge_removed_from_graph | orphan_dependency_reference | assignment_missing
  | assignment_worker_count_requires_reconciliation | assignment_changed_since_approval
  | approval_graph_version_mismatch | approval_content_hash_mismatch | approval_actor_unattributable
  deriving DecidableEq, Repr

def LegacyProjectReconciliationCode.text : LegacyProjectReconciliationCode → String
  | .invalid_plan_payload => "invalid_plan_payload"
  | .invalid_graph_payload => "invalid_graph_payload"
  | .invalid_approval_payload => "invalid_approval_payload"
  | .plan_without_graph => "plan_without_graph"
  | .graph_without_plan => "graph_without_plan"
  | .graph_node_without_plan_module => "graph_node_without_plan_module"
  | .plan_module_without_graph_node => "plan_module_without_graph_node"
  | .shared_task_field_mismatch => "shared_task_field_mismatch"
  | .acceptance_criteria_unavailable => "acceptance_criteria_unavailable"
  | .acceptance_criteria_projection_mismatch => "acceptance_criteria_projection_mismatch"
  | .dependency_edge_added_in_graph => "dependency_edge_added_in_graph"
  | .dependency_edge_removed_from_graph => "dependency_edge_removed_from_graph"
  | .orphan_dependency_reference => "orphan_dependency_reference"
  | .assignment_missing => "assignment_missing"
  | .assignment_worker_count_requires_reconciliation =>
    "assignment_worker_count_requires_reconciliation"
  | .assignment_changed_since_approval => "assignment_changed_since_approval"
  | .approval_graph_version_mismatch => "approval_graph_version_mismatch"
  | .approval_content_hash_mismatch => "approval_content_hash_mismatch"
  | .approval_actor_unattributable => "approval_actor_unattributable"

inductive LegacyProjectFindingSeverity
  | blocking | warning
  deriving DecidableEq, Repr

inductive LegacyProjectFindingSubject
  | project | plan | graph | task | dependency | assignment | approval
  deriving DecidableEq, Repr

def LegacyProjectFindingSubject.text : LegacyProjectFindingSubject → String
  | .project => "project"
  | .plan => "plan"
  | .graph => "graph"
  | .task => "task"
  | .dependency => "dependency"
  | .assignment => "assignment"
  | .approval => "approval"

structure LegacyProjectReconciliationFinding where
  id : String
  code : LegacyProjectReconciliationCode
  severity : LegacyProjectFindingSeverity
  project_id : String
  subject_type : LegacyProjectFindingSubject
  subject_id : String
  summary : String
  details : Json ℚ

/-- What the id of a finding is the hash of. -/
def findingIdentity (projectId : String) (code : LegacyProjectReconciliationCode)
    (subjectType : LegacyProjectFindingSubject) (subjectId : String) (details : Json ℚ) : Json ℚ :=
  .obj [("project_id", .str projectId), ("code", .str code.text),
    ("subject_type", .str subjectType.text), ("subject_id", .str subjectId), ("details", details)]

/-- `finding`; where the source gives no severity it is blocking, where it gives no details they are empty. -/
def finding (projectId : String) (code : LegacyProjectReconciliationCode)
    (severity : LegacyProjectFindingSeverity) (subjectType : LegacyProjectFindingSubject)
    (subjectId summary : String) (details : List (String × Json ℚ)) :
    LegacyProjectReconciliationFinding where
  id := "migration-finding:" ++
    canonicalSha256 host (findingIdentity projectId code subjectType subjectId (.obj details))
  code := code
  severity := severity
  project_id := projectId
  subject_type := subjectType
  subject_id := subjectId
  summary := summary
  details := .obj details

def duplicateIds (nodes : List LegacyGraphNode) : List String :=
  let ids := nodes.map LegacyGraphNode.id
  sortTexts (ids.dedup.filter fun id => 1 < ids.count id)

/-! ### Edges -/

def edgeKey (predecessorId successorId : String) : String := predecessorId ++ "\x00" ++ successorId

/-- The first two of the pieces between the null characters. -/
def edgeSubjectId (key : String) : String :=
  String.ofList (key.toList.takeWhile (· ≠ '\x00')) ++ "->" ++
    String.ofList ((key.toList.dropWhile (· ≠ '\x00')).tail.takeWhile (· ≠ '\x00'))

/-- The dependencies of a plan, predecessor first. -/
def LegacyPlan.edges (plan : LegacyPlan) : List (String × String) :=
  plan.modules.flatMap fun mod => mod.dependencies.map fun dependencyId => (dependencyId, mod.id)

def LegacyGraphSnapshot.edges (graph : LegacyGraphSnapshot) : List (String × String) :=
  graph.nodes.flatMap fun node => node.dependencies.map fun dependencyId => (dependencyId, node.id)

def planEdges (plan : LegacyPlan) : List String := (plan.edges.map fun e => edgeKey e.1 e.2).dedup

def graphEdges (graph : LegacyGraphSnapshot) : List String :=
  (graph.edges.map fun e => edgeKey e.1 e.2).dedup

/-! ### The allocation -/

def nodesById (graph : LegacyGraphSnapshotInput) : List LegacyGraphNodeInput :=
  graph.nodes.mergeSort fun a b => host.localeCompare a.id b.id != .gt

def assignmentInputJson (assignment : Option LegacyAssignmentInput) : Json ℚ :=
  (assignment.map LegacyAssignmentInput.json).getD .null

def legacyAllocationFingerprint (graph : LegacyGraphSnapshotInput) : String :=
  host.sha256 (Json.stringify host.numberText (.arr ((nodesById host graph).map fun node =>
    .obj [("id", .str node.id), ("assignment", assignmentInputJson node.assignment)])))

def legacyAllocationContentHash (graph : LegacyGraphSnapshotInput) : Option String :=
  if graph.nodes.any fun node => node.assignment.isNone then none
  else
    let total := (graph.nodes.map fun node =>
      (node.assignment.map LegacyAssignmentInput.budget_usd).getD 0).sum
    let totalUsd : ℚ := ⌊total * 100 + 1 / 2⌋ / 100
    some (host.sha256 (Json.stringify host.numberText (.obj [
      ("graph_version", .num graph.version),
      ("nodes", .arr ((nodesById host graph).map fun node =>
        .obj [("id", .str node.id),
          ("dependencies", .arr ((sortTexts node.dependencies).map .str)),
          ("assignment", assignmentInputJson node.assignment)])),
      ("total_usd", .num totalUsd)])))

/-! ### The analysis -/

def difference (plan graph : Json ℚ) : Json ℚ := .obj [("plan", plan), ("graph", graph)]

def sharedDifferences (mod : LegacyPlanModule) (node : LegacyGraphNode) : List (String × Json ℚ) :=
  (if mod.title ≠ node.title then [("title", difference (.str mod.title) (.str node.title))] else []) ++
  (if mod.estimated_complexity ≠ node.complexity then
    [("complexity", difference (.str (complexityText mod.estimated_complexity))
      (.str (complexityText node.complexity)))] else []) ++
  (if mod.risk ≠ node.risk then
    [("risk", difference (.str (riskText mod.risk)) (.str (riskText node.risk)))] else []) ++
  (if mod.parallelSafe ≠ node.parallel_safe then
    [("parallel_safe", difference (.bool mod.parallelSafe) (.bool node.parallel_safe))] else [])

section

variable (projectId : String)

def sharedFieldFindings (mod : LegacyPlanModule) (node : LegacyGraphNode) :
    List LegacyProjectReconciliationFinding :=
  let differences := sharedDifferences mod node
  if differences = [] then []
  else [finding host projectId .shared_task_field_mismatch .blocking .task mod.id
    ("Plan module and graph node " ++ mod.id ++ " disagree on shared task fields")
    [("differences", .obj differences), ("selected_source", .str "graph")]]

def acceptanceFindings (mod : LegacyPlanModule) (node : LegacyGraphNode) :
    List LegacyProjectReconciliationFinding :=
  match node.acceptance with
  | none => []
  | some acceptance =>
    if canonicalJson host (acceptanceJson acceptance) =
        canonicalJson host (acceptanceJson mod.acceptance) then []
    else [finding host projectId .acceptance_criteria_projection_mismatch .blocking .task mod.id
      ("Plan and historical graph acceptance criteria differ for " ++ mod.id)
      [("plan_acceptance_hash", .str (canonicalSha256 host (acceptanceJson mod.acceptance))),
        ("graph_acceptance_hash", .str (canonicalSha256 host (acceptanceJson acceptance))),
        ("selected_source", .str "plan")]]

def compareSharedFields (mod : LegacyPlanModule) (node : LegacyGraphNode) :
    List LegacyProjectReconciliationFinding :=
  sharedFieldFindings host projectId mod node ++ acceptanceFindings host projectId mod node

/-- What the payloads say on their own. -/
def payloadFindings (source : LegacyProjectSnapshot) (parsed : ParsedLegacyProjectPayloads)
    (duplicates : List String) : List LegacyProjectReconciliationFinding :=
  (if parsed.plan_valid then [] else
    [finding host source.id .invalid_plan_payload .blocking .plan source.id
      "Legacy plan payload failed PlanContract validation" []]) ++
  (if parsed.graph_valid && duplicates.isEmpty then [] else
    [finding host source.id .invalid_graph_payload .blocking .graph source.id
      "Legacy graph payload is invalid or contains duplicate node IDs"
      [("duplicate_node_ids", .arr (duplicates.map .str))]]) ++
  (if parsed.approval_valid then [] else
    [finding host source.id .invalid_approval_payload .blocking .approval source.id
      "Legacy allocation approval payload is invalid" []]) ++
  (if parsed.plan.isSome && isNull source.graph then
    [finding host source.id .plan_without_graph .blocking .project source.id
      "Planned legacy project has no persisted graph" []] else []) ++
  (if parsed.plan.isNone && isNull source.plan && !isNull source.graph then
    [finding host source.id .graph_without_plan .blocking .project source.id
      "Legacy project has a graph but no plan" []] else [])

def LegacyPlan.ids (plan : LegacyPlan) : List String := plan.modules.map fun mod => mod.id

def LegacyGraphSnapshot.ids (graph : LegacyGraphSnapshot) : List String := graph.nodes.map fun node => node.id

/-- `planById` -/
def LegacyPlan.byId (plan : LegacyPlan) : OrdMap String LegacyPlanModule :=
  .ofList (plan.modules.map fun mod => (mod.id, mod))

/-- `graphById` -/
def LegacyGraphSnapshot.byId (graph : LegacyGraphSnapshot) : OrdMap String LegacyGraphNode :=
  .ofList (graph.nodes.map fun node => (node.id, node))

def graphOnlyFindings (node : Option LegacyGraphNode) (nodeId : String) :
    List LegacyProjectReconciliationFinding :=
  finding host projectId .graph_node_without_plan_module .blocking .task nodeId
    ("Graph node " ++ nodeId ++ " has no matching plan module") [] ::
  (if ((node.bind LegacyGraphNode.acceptance).getD []).isEmpty then
    [finding host projectId .acceptance_criteria_unavailable .blocking .task nodeId
      ("Graph-only node " ++ nodeId ++ " has no acceptance criteria") []] else [])

def addedFinding (key : String) : LegacyProjectReconciliationFinding :=
  finding host projectId .dependency_edge_added_in_graph .blocking .dependency (edgeSubjectId key)
    ("Current graph contains dependency " ++ edgeSubjectId key ++ " absent from the plan")
    [("selected_source", .str "graph")]

def removedFinding (key : String) : LegacyProjectReconciliationFinding :=
  finding host projectId .dependency_edge_removed_from_graph .blocking .dependency (edgeSubjectId key)
    ("Plan dependency " ++ edgeSubjectId key ++ " is absent from the current graph")
    [("selected_source", .str "graph")]

/-- What plan and graph say of each other. -/
def comparisonFindings (plan : LegacyPlan) (graph : LegacyGraphSnapshot) :
    List LegacyProjectReconciliationFinding :=
  let planIds := plan.ids.dedup
  let graphIds := graph.ids.dedup
  (sortTexts (graphIds.filter fun id => id ∉ planIds)).flatMap
    (fun nodeId => graphOnlyFindings host projectId (graph.byId.get? nodeId) nodeId) ++
  (sortTexts (planIds.filter fun id => id ∉ graphIds)).map
    (fun moduleId => finding host projectId .plan_module_without_graph_node .blocking .task moduleId
      ("Plan module " ++ moduleId ++ " is absent from the current graph")
      [("imported_task_intent", .str "cancelled")]) ++
  (sortTexts (planIds.filter fun id => id ∈ graphIds)).flatMap
    (fun id => match plan.byId.get? id, graph.byId.get? id with
      | some mod, some node => compareSharedFields host projectId mod node
      | _, _ => []) ++
  (sortTexts ((graphEdges graph).filter fun edge => edge ∉ planEdges plan)).map
    (addedFinding host projectId) ++
  (sortTexts ((planEdges plan).filter fun edge => edge ∉ graphEdges graph)).map
    (removedFinding host projectId)

def orphanFinding (dependencyId nodeId : String) : LegacyProjectReconciliationFinding :=
  finding host projectId .orphan_dependency_reference .blocking .dependency (dependencyId ++ "->" ++ nodeId)
    ("Graph dependency " ++ dependencyId ++ "->" ++ nodeId ++ " references a missing node") []

def assignmentFindings (node : LegacyGraphNode) : List LegacyProjectReconciliationFinding :=
  match node.assignment with
  | none =>
    [finding host projectId .assignment_missing .warning .assignment node.id
      ("Graph node " ++ node.id ++ " has no allocation") []]
  | some assignment =>
    if 1 < assignment.worker_count then
      [finding host projectId .assignment_worker_count_requires_reconciliation .blocking .assignment
        node.id ("Legacy worker count for " ++ node.id ++ " cannot map to one V2 assignment")
        [("legacy_worker_count", .num assignment.worker_count)]]
    else []

/-- What the graph says on its own. -/
def graphFindings (graph : LegacyGraphSnapshot) : List LegacyProjectReconciliationFinding :=
  (graph.nodes.mergeSort fun a b => host.localeCompare a.id b.id != .gt).flatMap fun node =>
    ((sortTexts node.dependencies).filter fun dependencyId => dependencyId ∉ graph.ids).map
      (fun dependencyId => orphanFinding host projectId dependencyId node.id) ++
    assignmentFindings host projectId node

def approvalFindings (approval : LegacyAllocationApproval) (graph : LegacyGraphSnapshot)
    (graphSource : LegacyGraphSnapshotInput) (attributable : String → Bool) :
    List LegacyProjectReconciliationFinding :=
  let currentFingerprint := legacyAllocationFingerprint host graphSource
  let currentContentHash := legacyAllocationContentHash host graphSource
  (if approval.graph_version ≠ graph.version then
    [finding host projectId .approval_graph_version_mismatch .blocking .approval approval.content_hash
      "Legacy allocation approval references a stale graph version"
      [("approved_graph_version", .num approval.graph_version),
        ("current_graph_version", .num graph.version)]] else []) ++
  (if approval.allocation_fingerprint ≠ currentFingerprint then
    [finding host projectId .assignment_changed_since_approval .blocking .approval approval.content_hash
      "Current assignments differ from the approved allocation fingerprint"
      [("approved_allocation_fingerprint", .str approval.allocation_fingerprint),
        ("current_allocation_fingerprint", .str currentFingerprint)]] else []) ++
  (if some approval.content_hash ≠ currentContentHash then
    [finding host projectId .approval_content_hash_mismatch .blocking .approval approval.content_hash
      "Legacy allocation approval content hash is not current"
      [("approved_content_hash", .str approval.content_hash),
        ("current_content_hash", (currentContentHash.map .str).getD .null)]] else []) ++
  (if attributable approval.actor then [] else
    [finding host projectId .approval_actor_unattributable .blocking .approval approval.content_hash
      "Legacy approval actor is not a proven authenticated user ID"
      [("source_actor_text", .str approval.actor)]])

def comparisonFindingsOf : Option LegacyPlan → Option LegacyGraphSnapshot →
    List LegacyProjectReconciliationFinding
  | some plan, some graph => comparisonFindings host projectId plan graph
  | _, _ => []

def graphFindingsOf : Option LegacyGraphSnapshot → List LegacyProjectReconciliationFinding
  | some graph => graphFindings host projectId graph
  | none => []

def approvalFindingsOf (attributable : String → Bool) : Option LegacyAllocationApproval →
    Option LegacyGraphSnapshot → Option LegacyGraphSnapshotInput →
    List LegacyProjectReconciliationFinding
  | some approval, some graph, some graphSource =>
    approvalFindings host projectId approval graph graphSource attributable
  | _, _, _ => []

end

structure LegacyProjectReconciliationReport where
  source_hash : String
  plan_hash : Option String
  graph_hash : Option String
  approval_hash : Option String
  findings : List LegacyProjectReconciliationFinding
  clean : Bool
  requires_fresh_v2_approval : Bool

structure LegacyProjectAnalysis where
  plan : Option LegacyPlan
  graph : Option LegacyGraphSnapshot
  approval : Option LegacyAllocationApproval
  duplicate_graph_node_ids : List String
  report : LegacyProjectReconciliationReport

def compareFindings (left right : LegacyProjectReconciliationFinding) : Ordering :=
  (host.localeCompare left.code.text right.code.text).then
    ((host.localeCompare left.subject_type.text right.subject_type.text).then
      ((host.localeCompare left.subject_id right.subject_id).then
        (host.localeCompare left.id right.id)))

def sortFindings (findings : List LegacyProjectReconciliationFinding) :
    List LegacyProjectReconciliationFinding :=
  findings.mergeSort fun left right => compareFindings host left right != .gt

def payloadHash (payload : Json ℚ) : Option String :=
  if isNull payload then none else some (canonicalSha256 host payload)

section

variable (schemas : Schemas) (source : LegacyProjectSnapshot)

def duplicateNodeIds : List String :=
  match (parseLegacyProjectPayloads schemas source).graph with
  | none => []
  | some graph => duplicateIds graph.nodes

/-- The graph, if it is valid and no id of a node is repeated. -/
def usableGraph : Option LegacyGraphSnapshot :=
  let parsed := parseLegacyProjectPayloads schemas source
  parsed.graph.filter fun _ => parsed.graph_valid && (duplicateNodeIds schemas source).isEmpty

/-- The findings in the order in which they are made. -/
def allFindings (attributable : String → Bool) : List LegacyProjectReconciliationFinding :=
  let parsed := parseLegacyProjectPayloads schemas source
  let graph := usableGraph schemas source
  payloadFindings host source parsed (duplicateNodeIds schemas source) ++
  comparisonFindingsOf host source.id parsed.plan graph ++
  graphFindingsOf host source.id graph ++
  approvalFindingsOf host source.id attributable parsed.approval graph parsed.graph_source

def analyzeLegacyProject (attributable : String → Bool) : LegacyProjectAnalysis :=
  let parsed := parseLegacyProjectPayloads schemas source
  let findings := sortFindings host (allFindings host schemas source attributable)
  { plan := parsed.plan
    graph := usableGraph schemas source
    approval := parsed.approval
    duplicate_graph_node_ids := duplicateNodeIds schemas source
    report := {
      source_hash := canonicalSha256 host source.toJson
      plan_hash := payloadHash host source.plan
      graph_hash := payloadHash host source.graph
      approval_hash := payloadHash host source.approval
      findings
      clean := findings.isEmpty
      requires_fresh_v2_approval := parsed.plan.isSome } }

end

/-! ### Identities -/

section

variable {host : Host}

def codes : List LegacyProjectReconciliationCode :=
  [.invalid_plan_payload, .invalid_graph_payload, .invalid_approval_payload, .plan_without_graph,
    .graph_without_plan, .graph_node_without_plan_module, .plan_module_without_graph_node,
    .shared_task_field_mismatch, .acceptance_criteria_unavailable,
    .acceptance_criteria_projection_mismatch, .dependency_edge_added_in_graph,
    .dependency_edge_removed_from_graph, .orphan_dependency_reference, .assignment_missing,
    .assignment_worker_count_requires_reconciliation, .assignment_changed_since_approval,
    .approval_graph_version_mismatch, .approval_content_hash_mismatch, .approval_actor_unattributable]

theorem code_text_injective : Function.Injective LegacyProjectReconciliationCode.text := by
  have hread : ∀ code : LegacyProjectReconciliationCode,
      (codes.find? fun other => other.text = code.text) = some code := by
    intro code
    cases code <;> decide +kernel
  intro a b h
  have ha := hread a
  rw [h, hread b] at ha
  exact (Option.some.inj ha).symm

/-- The order of the keys is no matter: objects with one canonical text have the same fields. -/
theorem canonical_obj_mem {ν : Type} {fields fields' : List (String × Json ν)}
    (h : canonical (.obj fields) = canonical (.obj fields')) {field : String × Json ν}
    (hfield : field ∈ canonicalFields fields) : field ∈ canonicalFields fields' := by
  simp only [canonical, Json.obj.injEq] at h
  have hsorted : field ∈ (canonicalFields fields').mergeSort fun a b => textLe a.1 b.1 := by
    rw [← h]
    exact List.mem_mergeSort.mpr hfield
  exact List.mem_mergeSort.mp hsorted

theorem canonicalSha256_cancel (hh : host.Faithful) {a b : Json ℚ}
    (h : canonicalSha256 host a = canonicalSha256 host b) : canonical a = canonical b :=
  Json.stringify_injective hh.numberText (hh.sha256 h)

/-- A finding has the id of its own fields. -/
def Identified (host : Host) (f : LegacyProjectReconciliationFinding) : Prop :=
  f.id = "migration-finding:" ++
    canonicalSha256 host (findingIdentity f.project_id f.code f.subject_type f.subject_id f.details)

theorem finding_id_inj (hh : host.Faithful) {f g : LegacyProjectReconciliationFinding}
    (hf : Identified host f) (hg : Identified host g) (h : f.id = g.id) :
    f.code = g.code ∧ f.subject_id = g.subject_id := by
  unfold Identified at hf hg
  rw [hf, hg] at h
  have hcanonical := canonicalSha256_cancel hh ((String.append_right_inj _).mp h)
  have hcode : ("code", .str f.code.text) ∈ canonicalFields _ :=
    canonical_obj_mem hcanonical (by simp [canonicalFields, canonical])
  have hsubject : ("subject_id", .str f.subject_id) ∈ canonicalFields _ :=
    canonical_obj_mem hcanonical (by simp [canonicalFields, canonical])
  simp only [canonicalFields, canonical, List.mem_cons, Prod.mk.injEq, Json.str.injEq,
    List.not_mem_nil, or_false] at hcode hsubject
  constructor
  · refine code_text_injective ?_
    simpa using hcode
  · simpa using hsubject

end

/-! ### What a key says of an edge -/

theorem edgeKey_toList (p s : String) : (edgeKey p s).toList = p.toList ++ '\x00' :: s.toList := by
  unfold edgeKey
  rw [String.toList_append, String.toList_append, List.append_assoc]
  rfl

/-- An id without the null character. -/
def Plain (id : String) : Prop := '\x00' ∉ id.toList

instance (id : String) : Decidable (Plain id) := inferInstanceAs (Decidable (_ ∉ _))

/-- The key of an edge of plain ids is the key of no other edge. -/
theorem edgeKey_cancel {p s p' s' : String} (hp : Plain p) (hs : Plain s)
    (h : edgeKey p s = edgeKey p' s') : p = p' ∧ s = s' := by
  have hlist := congrArg String.toList h
  rw [edgeKey_toList, edgeKey_toList] at hlist
  have hcount := congrArg (List.count '\x00') hlist
  simp only [List.count_append, List.count_cons_self] at hcount
  rw [List.count_eq_zero.mpr hp, List.count_eq_zero.mpr hs] at hcount
  have hp' : '\x00' ∉ p'.toList := List.count_eq_zero.mp (by omega)
  obtain ⟨heq, heq'⟩ := cancel_before hp hp' hlist
  exact ⟨String.toList_injective heq, String.toList_injective heq'⟩

theorem takeWhile_ne {l r : List Char} (hl : '\x00' ∉ l) :
    (l ++ '\x00' :: r).takeWhile (· ≠ '\x00') = l ∧
      (l ++ '\x00' :: r).dropWhile (· ≠ '\x00') = '\x00' :: r := by
  have hall : ∀ c ∈ l, decide (c ≠ '\x00') = true := fun c hc =>
    decide_eq_true fun heq => hl (heq ▸ hc)
  constructor
  · rw [List.takeWhile_append_of_pos hall]
    simp
  · rw [List.dropWhile_append_of_pos hall]
    simp

theorem edgeSubjectId_edgeKey {p s : String} (hp : Plain p) (hs : Plain s) :
    edgeSubjectId (edgeKey p s) = p ++ "->" ++ s := by
  unfold edgeSubjectId
  obtain ⟨htake, hdrop⟩ := takeWhile_ne (r := s.toList) hp
  have hsecond : s.toList.takeWhile (· ≠ '\x00') = s.toList :=
    List.takeWhile_eq_self_iff.mpr fun c hc => decide_eq_true fun heq => hs (heq ▸ hc)
  rw [edgeKey_toList, htake, hdrop, List.tail_cons, hsecond, String.ofList_toList,
    String.ofList_toList]

/-- The subject of a key has no null character. -/
theorem edgeSubjectId_plain (key : String) : Plain (edgeSubjectId key) := by
  have htake : ∀ l : List Char, '\x00' ∉ l.takeWhile (· ≠ '\x00') := fun l h => by
    simpa using List.mem_takeWhile_imp h
  unfold Plain edgeSubjectId
  rw [String.toList_append, String.toList_append, String.toList_ofList, String.toList_ofList]
  rw [String.toList_ofList]
  simp only [List.mem_append, not_or]
  exact ⟨⟨htake _, by decide⟩, htake _⟩

/-! ### What the payloads are known to be -/

theorem sortTexts_perm (l : List String) : (sortTexts l).Perm l := List.mergeSort_perm _ _

theorem mem_sortTexts {l : List String} {s : String} : s ∈ sortTexts l ↔ s ∈ l :=
  (sortTexts_perm l).mem_iff

theorem validPlan_valid {schemas : Schemas} {payload : Json ℚ} {plan : LegacyPlan}
    (h : validPlan schemas payload = some plan) : Contracts.Plan.Valid plan.contract := by
  unfold validPlan at h
  split at h
  case h_1 => cases h
  case h_2 parsed hparsed =>
    split at h
    case h_1 => cases h
    case h_2 accepted haccepted =>
      cases h
      have hsame : accepted = plan.contract := Contracts.Plan.validatePlan_same rfl haccepted
      rw [← hsame]
      exact Contracts.Plan.validatePlan_valid haccepted

section

variable {schemas : Schemas} {source : LegacyProjectSnapshot}

theorem parsedPlan_valid {plan : LegacyPlan}
    (h : (parseLegacyProjectPayloads schemas source).plan = some plan) :
    Contracts.Plan.Valid plan.contract := by
  unfold parseLegacyProjectPayloads at h
  dsimp only at h
  split at h
  · cases h
  · exact validPlan_valid h

theorem parsedPlan_ids {plan : LegacyPlan}
    (h : (parseLegacyProjectPayloads schemas source).plan = some plan) : plan.ids.Nodup := by
  have hdistinct := (parsedPlan_valid h).distinct
  unfold LegacyPlan.contract at hdistinct
  rw [List.map_map] at hdistinct
  exact hdistinct

theorem usableGraph_eq {graph : LegacyGraphSnapshot} (h : usableGraph schemas source = some graph) :
    (parseLegacyProjectPayloads schemas source).graph = some graph ∧
      (parseLegacyProjectPayloads schemas source).graph_valid = true ∧
      duplicateNodeIds schemas source = [] := by
  unfold usableGraph at h
  dsimp only at h
  obtain ⟨hgraph, hvalid⟩ := Option.filter_eq_some_iff.mp h
  simp only [Bool.and_eq_true, List.isEmpty_iff] at hvalid
  exact ⟨hgraph, hvalid⟩

theorem usableGraph_ids {graph : LegacyGraphSnapshot} (h : usableGraph schemas source = some graph) :
    graph.ids.Nodup := by
  obtain ⟨hgraph, -, hduplicates⟩ := usableGraph_eq h
  unfold duplicateNodeIds at hduplicates
  rw [hgraph] at hduplicates
  have hnone : ∀ id ∈ graph.ids, graph.ids.count id ≤ 1 := by
    intro id hid
    by_contra hcount
    have hmem : id ∈ duplicateIds graph.nodes := by
      unfold duplicateIds
      rw [mem_sortTexts]
      refine List.mem_filter.mpr ⟨List.mem_dedup.mpr hid, ?_⟩
      simpa [LegacyGraphSnapshot.ids] using hcount
    dsimp only at hduplicates
    rw [hduplicates] at hmem
    cases hmem
  rw [List.nodup_iff_count_le_one]
  intro id
  by_cases hid : id ∈ graph.ids
  · exact hnone id hid
  · rw [List.count_eq_zero.mpr hid]
    exact Nat.zero_le 1

theorem byId_get?_plan {plan : LegacyPlan} (hids : plan.ids.Nodup) {id : String} {mod : LegacyPlanModule} :
    plan.byId.get? id = some mod ↔ mod ∈ plan.modules ∧ mod.id = id := by
  unfold LegacyPlan.byId
  rw [OrdMap.get?_ofList (by rw [List.map_map]; exact hids)]
  constructor
  · intro h
    obtain ⟨other, hother, heq⟩ := List.mem_map.mp h
    cases heq
    exact ⟨hother, rfl⟩
  · rintro ⟨hmem, rfl⟩
    exact List.mem_map.mpr ⟨mod, hmem, rfl⟩

theorem byId_get?_graph {graph : LegacyGraphSnapshot} (hids : graph.ids.Nodup) {id : String}
    {node : LegacyGraphNode} :
    graph.byId.get? id = some node ↔ node ∈ graph.nodes ∧ node.id = id := by
  unfold LegacyGraphSnapshot.byId
  rw [OrdMap.get?_ofList (by rw [List.map_map]; exact hids)]
  constructor
  · intro h
    obtain ⟨other, hother, heq⟩ := List.mem_map.mp h
    cases heq
    exact ⟨hother, rfl⟩
  · rintro ⟨hmem, rfl⟩
    exact List.mem_map.mpr ⟨node, hmem, rfl⟩

theorem mem_planEdges {plan : LegacyPlan} {key : String} :
    key ∈ planEdges plan ↔ ∃ e ∈ plan.edges, edgeKey e.1 e.2 = key := by
  simp [planEdges]

theorem mem_graphEdges {graph : LegacyGraphSnapshot} {key : String} :
    key ∈ graphEdges graph ↔ ∃ e ∈ graph.edges, edgeKey e.1 e.2 = key := by
  simp [graphEdges]

theorem LegacyPlan.mem_edges {plan : LegacyPlan} {e : String × String} :
    e ∈ plan.edges ↔ ∃ mod ∈ plan.modules, mod.id = e.2 ∧ e.1 ∈ mod.dependencies := by
  unfold LegacyPlan.edges
  simp only [List.mem_flatMap, List.mem_map]
  constructor
  · rintro ⟨mod, hmod, dependencyId, hdependency, rfl⟩
    exact ⟨mod, hmod, rfl, hdependency⟩
  · rintro ⟨mod, hmod, hid, hdependency⟩
    exact ⟨mod, hmod, e.1, hdependency, by rw [hid]⟩

theorem LegacyGraphSnapshot.mem_edges {graph : LegacyGraphSnapshot} {e : String × String} :
    e ∈ graph.edges ↔ ∃ node ∈ graph.nodes, node.id = e.2 ∧ e.1 ∈ node.dependencies := by
  unfold LegacyGraphSnapshot.edges
  simp only [List.mem_flatMap, List.mem_map]
  constructor
  · rintro ⟨node, hnode, dependencyId, hdependency, rfl⟩
    exact ⟨node, hnode, rfl, hdependency⟩
  · rintro ⟨node, hnode, hid, hdependency⟩
    exact ⟨node, hnode, e.1, hdependency, by rw [hid]⟩

/-- The ends of an edge of a valid plan are modules. -/
theorem LegacyPlan.edge_ends {plan : LegacyPlan} (hvalid : Contracts.Plan.Valid plan.contract)
    {e : String × String} (he : e ∈ plan.edges) : e.1 ∈ plan.ids ∧ e.2 ∈ plan.ids := by
  obtain ⟨mod, hmod, hid, hdependency⟩ := LegacyPlan.mem_edges.mp he
  have hknown := hvalid.known mod.toPlanModule (List.mem_map.mpr ⟨mod, hmod, rfl⟩) e.1 hdependency
  unfold LegacyPlan.contract at hknown
  rw [List.map_map] at hknown
  exact ⟨hknown, List.mem_map.mpr ⟨mod, hmod, hid⟩⟩

theorem LegacyGraphSnapshot.edge_end {graph : LegacyGraphSnapshot} {e : String × String}
    (he : e ∈ graph.edges) : e.2 ∈ graph.ids := by
  obtain ⟨node, hnode, hid, -⟩ := LegacyGraphSnapshot.mem_edges.mp he
  exact List.mem_map.mpr ⟨node, hnode, hid⟩

end

end Norns.Migration
