import Norns.Lib.Utf8
import Mathlib.Data.List.Sort
import Mathlib.Data.Rat.Defs
import Mathlib.Algebra.Order.Ring.Unbundled.Rat

/-! # The briefing of a task

`execution/taskContextAssembler.ts`: the rows of `gather` as they are rendered, the sections, `dropLowestValue`, the two
trims and `assembleForTask`. The lists of a row are taken as `asStringList` reads them; the digest, the store's ids and
`localeCompare` are parameters.

* `ContextModel`: what a briefing is rendered from;
* `renderAll`, `renderFrozen`: its sections;
* `dropLowestValue`, `trim`: the next thing to go, until the sections fit;
* `gatherFacts`: the order of the facts;
* `assembleForTask`: the references of a task. -/

namespace Norns.Execution.TaskContext

open Norns.Lib Norns.Lib.JsonText Norns.Lib.Utf8

/-! ### Failures -/

inductive TaskContextAssemblyCode
  | task_package_mismatch | context_too_large
  deriving DecidableEq, Repr

inductive AssemblyError
  /-- `TaskContextAssemblyError` -/
  | refused (code : TaskContextAssemblyCode) (message action_required : Text)
  /-- What the store throws for a section without bytes. -/
  | emptySection (message : Text)

def AssemblyError.isTooLarge : AssemblyError → Bool
  | .refused .context_too_large _ _ => true
  | _ => false

/-! ### Rows -/

structure TaskRow where
  id : Text
  title : Text
  description : Text
  deliverables : List Text
  acceptance_criteria : List Text
  complexity : Text
  risk : Text
  required_roles : List Text
  required_capabilities : List Text
  required_inputs : List Text
  expected_outputs : List Text
  environment_policy_ref : Text
  verification_policy_ref : Text

structure ProjectRow where
  id : Text
  name : Text
  description : Text
  verification_policy_ref : Text

structure ObjectiveRow where
  outcome : Text
  success_measures : List Text

structure ArchitectureRow where
  revision : Text
  title : Text
  summary : Text
  repository_revision : Text

structure AssignmentRow where
  rationale : Text
  provider : Option Text
  model : Option Text
  roles : List Text

structure RepositoryFact where
  id : Text
  key : Text
  value : Text
  confidence : ℚ
  policy : Bool
  deriving DecidableEq

structure DependencyOutcome where
  id : Text
  title : Text
  state : Text
  expected_outputs : List Text
  completion_evidence : List Text
  deriving DecidableEq

structure MemoryItem where
  id : Text
  category : Text
  content : Text
  deriving DecidableEq

inductive PonytailMode
  | off | lite | full | ultra
  deriving DecidableEq, Repr

structure ContextModel where
  project : ProjectRow
  /-- `phase.objective_summary` -/
  objective_summary : Text
  objective : ObjectiveRow
  task : TaskRow
  assignment : Option AssignmentRow
  architecture : ArchitectureRow
  facts : List RepositoryFact
  ponytailMode : PonytailMode
  globalRules : Option Text
  directives : List MemoryItem
  dependencies : List DependencyOutcome
  dependenciesCompact : Bool
  memory : List MemoryItem
  knowledge : Option Text

/-! ### Rendering -/

/-- `lines.join("\n")` -/
def joinLines (lines : List Text) : Text := join [unit '\n'] lines

def bullets (items : List Text) : Text := joinLines (items.map fun item => units "- " ++ item)

def renderMission (model : ContextModel) : Text :=
  let lines := [
    units "# Norns task briefing",
    [],
    units "You are an autonomous coding agent. You have been dispatched to complete ONE",
    units "task inside a dedicated git worktree of this project's repository. Everything",
    units "you need to start is in this briefing; you will not be asked follow-up",
    units "questions and there is no human in the loop while you work.",
    [],
    units "How to work:",
    [],
    bullets [
      units "Inspect only the task-relevant files and current git status; do not spend turns broadly " ++
        units "exploring the repository.",
      units "Do exactly the task in the TASK section. Do not expand its scope.",
      units "Make the smallest complete implementation early, before optional investigation or explanation.",
      units "Run the declared verification commands in the REPOSITORY section immediately after the edit " ++
        units "and leave them passing.",
      units "Commit the verified change immediately on the current task branch. A written summary is not " ++
        units "a deliverable and must not delay the commit.",
      units "Every acceptance criterion must be satisfied and demonstrably true before you finish.",
      units "Follow every project directive and constraint; they override your own defaults.",
      units "The Norns runner owns remote publication. Do not check out, merge into, commit directly to, " ++
        units "or push main or any other target branch.",
      units "If the task, deliverables, or acceptance criteria say to push or merge to main, treat that " ++
        units "wording as the final runner-owned outcome: commit locally on the current task branch and let " ++
        units "the runner verify and publish it.",
      units "Remote credentials are intentionally unavailable to you. Never leave verified edits " ++
        units "uncommitted because a push is unavailable; a local task-branch commit is mandatory.",
      units "If the task is impossible as specified, stop and report why. Do not substitute a different task."],
    [],
    units "## Project",
    [],
    units "- Name: " ++ model.project.name]
  let description := trim model.project.description
  joinLines (lines ++ if description = [] then [] else [[], description])

def renderObjective (model : ContextModel) : Text :=
  let measures := model.objective.success_measures
  joinLines ([
    units "## Phase objective",
    [],
    units "This task exists to advance the objective below. Judge your own work against it.",
    [],
    units "### Phase goal",
    [],
    trim model.objective_summary,
    [],
    units "### Objective outcome",
    [],
    trim model.objective.outcome] ++
    if measures = [] then [] else [[], units "### Success measures", [], bullets measures])

def renderAssignment : Option AssignmentRow → List Text
  | none => []
  | some assignment =>
    let parts := [join (units ", ") assignment.roles, assignment.provider.getD [], assignment.model.getD []].filter
      fun part => !part.isEmpty
    let profile := join (units " / ") parts
    let rationale := trim assignment.rationale
    [[], units "### Why you were assigned", [],
      if profile = [] then rationale else profile ++ units ": " ++ rationale]

def renderTask (model : ContextModel) : Text :=
  let task := model.task
  let lines := [
    units "## TASK — this is what you must deliver",
    [],
    units "### " ++ trim task.title,
    [],
    trim task.description,
    [],
    units "### Deliverables",
    [],
    bullets task.deliverables,
    [],
    units "### Acceptance criteria",
    [],
    units "You are done only when every one of these is true and you can show it:",
    [],
    bullets task.acceptance_criteria]
  let expected := if task.expected_outputs = [] then [] else
    [[], units "### Expected outputs", [], bullets task.expected_outputs]
  let inputs := if task.required_inputs = [] then [] else
    [[], units "### Required inputs", [], bullets task.required_inputs]
  let profile := [[], units "### Task profile", [], bullets ([
    units "Complexity: " ++ task.complexity,
    units "Risk: " ++ task.risk] ++
    (if task.required_roles = [] then [] else [units "Required roles: " ++ join (units ", ") task.required_roles]) ++
    (if task.required_capabilities = [] then [] else
      [units "Required capabilities: " ++ join (units ", ") task.required_capabilities]) ++ [
    units "Verification policy: " ++ task.verification_policy_ref,
    units "Environment policy: " ++ task.environment_policy_ref])]
  joinLines (lines ++ expected ++ inputs ++ profile ++ renderAssignment model.assignment)

def renderDependency (compact : Bool) (dependency : DependencyOutcome) : List Text :=
  [units "### " ++ trim dependency.title ++ units " (" ++ dependency.state ++ units ")"] ++
    (if compact then [] else
      (if dependency.expected_outputs = [] then [] else
        [[], units "Produced:", [], bullets dependency.expected_outputs]) ++
      if dependency.completion_evidence = [] then [] else
        [[], units "Evidence:", [], bullets dependency.completion_evidence]) ++ [[]]

def renderDependencies (model : ContextModel) : Option Text :=
  if model.dependencies = [] then none
  else some (trimEnd (joinLines ([
    units "## Upstream tasks",
    [],
    units "These tasks precede yours. Build on what they produced; do not redo them.",
    []] ++ model.dependencies.flatMap (renderDependency model.dependenciesCompact))))

/-- The lines of the repository before the other facts: the architecture and the policy facts. -/
def architectureLines (model : ContextModel) : List Text :=
  [
    units "## Repository",
    [],
    units "Facts ingested from this repository. They are authoritative — do not contradict",
    units "them, and do not assume anything about the codebase that is not stated here or",
    units "visible in the working tree.",
    [],
    units "### Architecture",
    [],
    units "Revision " ++ model.architecture.revision ++ units " — " ++ trim model.architecture.title,
    units "Ingested at repository revision `" ++ model.architecture.repository_revision ++ units "`.",
    [],
    trim model.architecture.summary,
    [],
    units "### Verification",
    [],
    units "Run the listed commands from the repository root. When a verification manifest is listed,",
    units "read and run every command it defines; the runner will execute that full committed manifest.",
    [],
    bullets ((model.facts.filter fun fact => fact.policy).map fun fact =>
      fact.key ++ units ": `" ++ fact.value ++ units "`")]

/-- The lines after them. -/
def boundaryLines (model : ContextModel) : List Text :=
  [
    [],
    units "### Verification policy",
    [],
    units "- Project policy: " ++ model.project.verification_policy_ref,
    units "- Task policy: " ++ model.task.verification_policy_ref,
    [],
    units "### Delivery boundary",
    [],
    units "Commit all verified work locally on the current task branch. The Norns runner then",
    units "verifies that commit and owns every remote push or target-branch update. Any task text",
    units "that says to push or merge to `main` describes the runner-owned final outcome, not an",
    units "agent action. Missing remote credentials are expected and must never prevent the local commit."]

def renderRepository (model : ContextModel) : Text :=
  let other := model.facts.filter fun fact => !fact.policy
  joinLines (architectureLines model ++
    (if other = [] then [] else
      [[], units "### Repository facts", [], bullets (other.map fun f => f.key ++ units ": " ++ f.value)]) ++
    boundaryLines model)

def renderDirectives (model : ContextModel) : Option Text :=
  if model.globalRules = none ∧ model.directives = [] then none
  else
    let directives := model.directives.filter fun item => item.category = units "directive"
    let constraints := model.directives.filter fun item => item.category = units "constraint"
    some (joinLines ([
      units "## Project directives and constraints",
      [],
      units "These are binding. They override your defaults and any habit from other projects."] ++
      (match model.globalRules with
        | none => []
        | some rules => [
          [],
          units "### Global NORN.md",
          [],
          rules,
          [],
          units "Project-specific instructions below take precedence when they are more specific."]) ++
      (if directives = [] then [] else
        [[], if model.globalRules = none then units "### Directives" else units "### Project directives", [],
          bullets (directives.map fun item => trim item.content)]) ++
      if constraints = [] then [] else
        [[], units "### Constraints", [], bullets (constraints.map fun item => trim item.content)]))

def renderMemory (model : ContextModel) : Option Text :=
  if model.memory = [] then none
  else some (joinLines [
    units "## Project memory",
    [],
    units "Human-approved decisions and lessons carried forward from earlier work.",
    units "Treat them as background, not as instructions for this task.",
    [],
    bullets (model.memory.map fun item => units "[" ++ item.category ++ units "] " ++ trim item.content)])

/-- `ponytailPolicy` -/
def renderPonytail (model : ContextModel) : Option Text :=
  let policy := fun (mode intensity : Text) => some (joinLines [
    units "# Ponytail development policy · " ++ mode,
    [],
    intensity,
    [],
    units "After tracing the task's real flow, stop at the first option that works:",
    [],
    units "1. Reuse an existing helper, component, type, or pattern.",
    units "2. Use the standard library or a native platform capability.",
    units "3. Use an already-installed dependency.",
    units "4. Only then write the minimum new code required.",
    [],
    units "Fix shared root causes instead of patching individual symptoms. Add no speculative " ++
      units "abstraction, dependency, configuration, or scaffolding. Prefer boring code and the fewest " ++
      units "appropriate files.",
    [],
    units "Approved requirements, acceptance criteria, verification policy, trust-boundary validation, " ++
      units "security, data-loss prevention, accessibility, and required error handling are mandatory and " ++
      units "must never be simplified away."])
  match model.ponytailMode with
  | .off => none
  | .lite => policy (units "lite")
    (units "Build the approved scope, but identify a materially simpler alternative when one exists. Do not " ++
      units "reduce scope without human approval.")
  | .ultra => policy (units "ultra")
    (units "Aggressively remove speculative work and unnecessary layers. Challenge non-mandatory complexity, " ++
      units "but never omit an approved requirement or acceptance criterion.")
  | .full => policy (units "full")
    (units "Enforce the simplicity ladder. Choose the shortest complete implementation that satisfies the " ++
      units "approved scope.")

inductive SectionName
  | mission | objective | task | ponytail | knowledge | dependencies | repository | directives | memory
  | approved_task_package
  deriving DecidableEq, Repr

def SectionName.text : SectionName → Text
  | .mission => units "mission"
  | .objective => units "objective"
  | .task => units "task"
  | .ponytail => units "ponytail"
  | .knowledge => units "knowledge"
  | .dependencies => units "dependencies"
  | .repository => units "repository"
  | .directives => units "directives"
  | .memory => units "memory"
  | .approved_task_package => units "approved_task_package"

/-- A section and the text that its bytes encode. -/
structure RenderedSection where
  name : SectionName
  content : Text
  deriving DecidableEq

/-- A section that is rendered, if it is; its text ends with a line feed. -/
def ofText (name : SectionName) (text : Text) : List RenderedSection := [⟨name, text ++ [unit '\n']⟩]

def ofOption (name : SectionName) : Option Text → List RenderedSection
  | none => []
  | some text => ofText name text

def renderAll (model : ContextModel) : List RenderedSection :=
  ofText .mission (renderMission model) ++ ofText .objective (renderObjective model) ++
    ofText .task (renderTask model) ++ ofOption .ponytail (renderPonytail model) ++
    ofOption .knowledge model.knowledge ++ ofOption .dependencies (renderDependencies model) ++
    ofText .repository (renderRepository model) ++ ofOption .directives (renderDirectives model) ++
    ofOption .memory (renderMemory model)

/-- The `render` of `trimFrozenPackageContext`. -/
def renderFrozen (canonicalPackage : Text) (model : ContextModel) : List RenderedSection :=
  ofText .mission (renderMission model) ++ [⟨.approved_task_package, canonicalPackage⟩] ++
    ofOption .ponytail (renderPonytail model) ++ ofOption .dependencies (renderDependencies model) ++
    ofText .repository (renderRepository model)

def totalBytes (sections : List RenderedSection) : ℕ := (sections.map fun s => byteLength s.content).sum

/-! ### Trimming -/

def spliceFirst (p : RepositoryFact → Bool) : List RepositoryFact → Option (List RepositoryFact)
  | [] => none
  | fact :: facts => if p fact then some facts else (spliceFirst p facts).map fun rest => fact :: rest

/-- What is left without the thing of the lowest value; `none` when nothing can be dropped. -/
def dropLowestValue (model : ContextModel) : Option ContextModel :=
  match model.memory with
  | _ :: memory => some { model with memory }
  | [] =>
    match model.dependencies with
    | _ :: dependencies =>
      if model.dependenciesCompact then some { model with dependencies }
      else some { model with dependenciesCompact := true }
    | [] => (spliceFirst (fun fact => !fact.policy) model.facts).map fun facts => { model with facts }

/-- How much can be dropped. -/
def droppable (model : ContextModel) : ℕ :=
  model.memory.length + 2 * model.dependencies.length + (if model.dependenciesCompact then 0 else 1) + model.facts.length

theorem spliceFirst_length {p : RepositoryFact → Bool} {facts : List RepositoryFact} : ∀ {rest : List RepositoryFact},
    spliceFirst p facts = some rest → rest.length < facts.length := by
  induction facts with
  | nil =>
    intro rest h
    cases h
  | cons fact facts ih =>
    intro rest h
    unfold spliceFirst at h
    split_ifs at h
    · obtain rfl := Option.some.inj h
      exact Nat.lt_succ_self _
    · obtain ⟨rest', hrest, rfl⟩ := Option.map_eq_some_iff.mp h
      exact Nat.succ_lt_succ (ih hrest)

theorem droppable_lt {model model' : ContextModel} (h : dropLowestValue model = some model') :
    droppable model' < droppable model := by
  unfold dropLowestValue at h
  unfold droppable
  split at h
  · rename_i memory hmemory
    obtain rfl := Option.some.inj h
    rw [hmemory]
    simp only [List.length_cons]
    omega
  · split at h
    · rename_i dependency dependencies hdependencies
      split_ifs at h with hcompact
      · obtain rfl := Option.some.inj h
        rw [hdependencies]
        simp only [List.length_cons]
        omega
      · obtain rfl := Option.some.inj h
        simp only [hcompact, if_true, Bool.false_eq_true, if_false]
        omega
    · obtain ⟨facts, hfacts, rfl⟩ := Option.map_eq_some_iff.mp h
      have hlength := spliceFirst_length hfacts
      dsimp only
      omega

/-- The loop of the trims: drop while the sections are over the cap. -/
def trimWith (render : ContextModel → List RenderedSection) (refuse : ContextModel → AssemblyError) (cap : ℤ)
    (model : ContextModel) : Except AssemblyError (List RenderedSection) :=
  if (totalBytes (render model) : ℤ) ≤ cap then .ok (render model)
  else
    match _ : dropLowestValue model with
    | none => .error (refuse model)
    | some dropped => trimWith render refuse cap dropped
termination_by droppable model
decreasing_by exact droppable_lt ‹_›

def trimToCap (model : ContextModel) (cap : ℤ) : Except AssemblyError (List RenderedSection) :=
  trimWith renderAll (fun dropped => .refused .context_too_large
    (units "the untrimmable core of task " ++ model.task.id ++ units " is " ++
      units (toString (totalBytes (renderAll dropped))) ++ units " bytes, over the " ++ units (toString cap) ++
      units "-byte context cap")
    (units "Shorten the task description, deliverables, acceptance criteria, or project directives, or split the task."))
    cap model

def trimFrozenPackageContext (model : ContextModel) (canonicalPackage : Text) (cap : ℤ) :
    Except AssemblyError (List RenderedSection) :=
  trimWith (renderFrozen canonicalPackage) (fun dropped => .refused .context_too_large
    (units "the immutable package and execution policy for task " ++ model.task.id ++ units " are " ++
      units (toString (totalBytes (renderFrozen canonicalPackage dropped))) ++ units " bytes, over the " ++
      units (toString cap) ++ units "-byte context cap")
    (units "Split the approved task or shorten its frozen package; required verification policy cannot be dropped."))
    cap model

/-! ### Gathering -/

/-- A row of the repository facts. -/
structure FactRow where
  id : Text
  content : Text
  confidence : ℚ

def VERIFICATION_POLICY_FACT_KEYS : List Text :=
  [units "build_command", units "test_command", units "lint_command", units "verification_manifest"]

def splitFact (content : Text) : Text × Text :=
  let key := content.takeWhile fun c => c ≠ unit ':'
  if unit ':' ∈ content ∧ key ≠ [] then (trim key, trim (content.drop (key.length + 1))) else (trim content, [])

def factOf (row : FactRow) : RepositoryFact where
  id := row.id
  key := (splitFact row.content).1
  value := (splitFact row.content).2
  confidence := row.confidence
  policy := decide ((splitFact row.content).1 ∈ VERIFICATION_POLICY_FACT_KEYS)

section

variable (localeCompare : Text → Text → Ordering)

/-- The comparison that the facts are sorted with. -/
def compareFacts (left right : RepositoryFact) : Ordering :=
  if left.policy ≠ right.policy then (if left.policy then .gt else .lt)
  else if left.confidence ≠ right.confidence then (if left.confidence < right.confidence then .lt else .gt)
  else if left.key = right.key then localeCompare left.id right.id else localeCompare left.key right.key

def gatherFacts (rows : List FactRow) : List RepositoryFact :=
  (rows.map factOf).insertionSort fun left right => compareFacts localeCompare left right ≠ .gt

/-- What is gathered: the rows of the facts, and the other parts of the model. -/
structure Rows where
  facts : List FactRow
  others : ContextModel

/-- The model; for a frozen package, rules, directives, memory and knowledge are not gathered. -/
def gather (rows : Rows) (frozen : Bool) : ContextModel :=
  let model := { rows.others with facts := gatherFacts localeCompare rows.facts, dependenciesCompact := false }
  if frozen then { model with globalRules := none, directives := [], memory := [], knowledge := none } else model

end

/-! ### The assembler -/

structure Reference where
  artifact_id : Text
  content_hash : Text
  byte_size : ℕ
  storage_ref : Text

structure FrozenPackage where
  canonical_package : Text
  content_hash : Text
  context_document_id : Text

/-- A frozen package with what is added to it. -/
structure Frozen where
  package : FrozenPackage
  mockupSupplements : List Reference
  steering : Option Reference

def addendaBytes (frozen : Frozen) : ℕ :=
  ((frozen.steering.map Reference.byte_size).getD 0) + (frozen.mockupSupplements.map Reference.byte_size).sum

section

variable (digest : List UInt8 → Text) (documentId : SectionName → Text → Text) (baseUrl : Text)

/-- `store.put`, and the reference to what is stored. -/
def put (s : RenderedSection) : Except AssemblyError Reference :=
  if byteLength s.content = 0 then
    .error (.emptySection (units "task context section \"" ++ s.name.text ++ units "\" produced no bytes"))
  else
    let sha256 := digest (encode s.content)
    let id := documentId s.name sha256
    .ok ⟨id, sha256, byteLength s.content, baseUrl ++ units "/api/v2/execution/task-context/" ++ id⟩

/-- A stored package must be the one that is bound. -/
def checkPackage (taskId : Text) (s : RenderedSection) (stored : Reference) : Option FrozenPackage → Except AssemblyError Unit
  | none => .ok ()
  | some bound =>
    if s.name = .approved_task_package ∧
        (stored.artifact_id ≠ bound.context_document_id ∨ stored.content_hash ≠ bound.content_hash) then
      .error (.refused .task_package_mismatch
        (units "task " ++ taskId ++ units " package context does not match its immutable package binding")
        (units "Do not dispatch this task; repair the package binding from the approved handoff."))
    else .ok ()

/-- The references to some sections. -/
def putAll (taskId : Text) (package : Option FrozenPackage) : List RenderedSection → Except AssemblyError (List Reference)
  | [] => .ok []
  | s :: sections => do
    let stored ← put digest documentId baseUrl s
    checkPackage taskId s stored package
    let refs ← putAll taskId package sections
    return stored :: refs

def assembleForTask (localeCompare : Text → Text → Ordering) (maxTotalBytes : ℕ) (rows : Rows) (frozen : Option Frozen) :
    Except AssemblyError (List Reference) :=
  let taskId := rows.others.task.id
  match frozen with
  | some frozen => do
    let model := gather localeCompare rows true
    if addendaBytes frozen ≥ maxTotalBytes then
      .error (.refused .context_too_large
        (units "immutable task addenda for " ++ taskId ++ units " are " ++ units (toString (addendaBytes frozen)) ++
          units " bytes, over the " ++ units (toString maxTotalBytes) ++ units "-byte context cap")
        (units "Consolidate pending directions or revise the approved mockup evidence before dispatch."))
    else
      let sections ← trimFrozenPackageContext model frozen.package.canonical_package (maxTotalBytes - addendaBytes frozen)
      let refs ← putAll digest documentId baseUrl taskId (some frozen.package) sections
      return refs ++ frozen.mockupSupplements ++ frozen.steering.toList
  | none => do
    let sections ← trimToCap (gather localeCompare rows false) maxTotalBytes
    putAll digest documentId baseUrl taskId none sections

end

end Norns.Execution.TaskContext
