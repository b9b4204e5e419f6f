import Norns.Knowledge.Versions
import Norns.Lib.Saturate
import Norns.Lib.Utf8
import Mathlib.Data.List.Sort

/-! # The packages of a manifest

`assembleManifest` of `knowledge/service.ts`: the mandatory packages and those the task asks for, then the parents, then
the pinned dependencies, each until nothing is added. In what order the database returns rows, and `localeCompare`, are
parameters.

* `assembleManifest`: the selection with its refusals, and the manifest;
* `Included`, `Reached`: what is to be in a manifest, and what the two loops reach;
* `assemble_reached`: the code selects what is reached;
* `manifest_iff`: when that is what is to be in the manifest. -/

namespace Norns.Knowledge.Manifest

open Norns.Lib Norns.Lib.JsonText Norns.Lib.Utf8 Norns.Lib.Saturate

/-! ### Tables -/

inductive V2KnowledgePackageType
  | project | architecture | domain | quality | phase | current_state
  deriving DecidableEq

def V2KnowledgePackageType.text : V2KnowledgePackageType → Text
  | .project => units "project"
  | .architecture => units "architecture"
  | .domain => units "domain"
  | .quality => units "quality"
  | .phase => units "phase"
  | .current_state => units "current_state"

inductive KnowledgeScopeKind
  | project | phase | domain | quality | architecture
  deriving DecidableEq

def statusText : V2KnowledgeLifecycleStatus → Text
  | .draft => units "draft"
  | .under_review => units "under_review"
  | .approved => units "approved"
  | .active => units "active"
  | .superseded => units "superseded"
  | .archived => units "archived"

structure TaskRow where
  id : Text
  project_id : Text
  phase_id : Text

/-- A row of `task_knowledge_packages` with what the manifest takes from its content. -/
structure TaskPackageRow where
  id : Text
  task_id : Text
  approved : Bool
  required_package_ids : List Text
  required_interface_contract_ids : List Text
  required_decision_record_ids : List Text

structure PackageRow where
  id : Text
  project_id : Text
  name : Text
  package_type : V2KnowledgePackageType
  scope_kind : KnowledgeScopeKind
  scope_id : Text
  parent_package_id : Option Text

structure PackageVersionRow where
  id : Text
  project_id : Text
  package_id : Text
  version : Text
  status : V2KnowledgeLifecycleStatus
  content_hash : Text
  /-- `current_state` of the content -/
  current_state : List Text
  deriving DecidableEq

structure DependencyRow where
  package_version_id : Text
  required_package_version_id : Text

structure ContractVersionRow where
  id : Text
  project_id : Text
  contract_id : Text
  name : Text
  version : Text
  status : V2KnowledgeLifecycleStatus
  content_hash : Text

structure DecisionRow where
  id : Text
  project_id : Text
  active : Bool

/-- The tables with their keys, and with what is checked when a row is written. -/
structure Tables where
  tasks : List TaskRow
  taskPackages : List TaskPackageRow
  packages : List PackageRow
  versions : List PackageVersionRow
  dependencies : List DependencyRow
  contracts : List ContractVersionRow
  decisions : List DecisionRow
  package_ids : (packages.map PackageRow.id).Nodup
  version_ids : (versions.map PackageVersionRow.id).Nodup
  one_active : ∀ v ∈ versions, ∀ w ∈ versions, v.status = .active → w.status = .active →
    v.package_id = w.package_id → v = w
  version_package : ∀ v ∈ versions, ∃ p ∈ packages, p.id = v.package_id ∧ p.project_id = v.project_id
  parent_named : ∀ p ∈ packages, p.parent_package_id ≠ some []
  dependency_project : ∀ d ∈ dependencies, ∀ v ∈ versions, ∀ w ∈ versions, v.id = d.package_version_id →
    w.id = d.required_package_version_id → w.project_id = v.project_id

/-- A version with the package it is joined with. -/
structure PackageRefRow extends PackageVersionRow where
  name : Text
  package_type : V2KnowledgePackageType
  scope_kind : KnowledgeScopeKind
  scope_id : Text
  parent_package_id : Option Text

def joinRow (version : PackageVersionRow) (package : PackageRow) : PackageRefRow where
  toPackageVersionRow := version
  name := package.name
  package_type := package.package_type
  scope_kind := package.scope_kind
  scope_id := package.scope_id
  parent_package_id := package.parent_package_id

namespace Tables

variable (t : Tables)

def packageRow (version : PackageVersionRow) : Option PackageRow :=
  t.packages.find? fun package => package.id = version.package_id

/-- `JOIN knowledge_packages package ON package.id=version_row.package_id` -/
def joined : List PackageRefRow := t.versions.filterMap fun version => (t.packageRow version).map (joinRow version)

end Tables

/-- In what order rows come. -/
structure Arrangement (α : Type) where
  arrange : List α → List α
  perm : ∀ rows, (arrange rows).Perm rows

structure Arrangements where
  packages : Arrangement PackageRefRow
  dependencies : Arrangement PackageRefRow
  contracts : Arrangement ContractVersionRow

/-! ### The manifest -/

inductive KnowledgeErrorCode
  | not_found | missing_context
  deriving DecidableEq

structure KnowledgeSystemError where
  code : KnowledgeErrorCode
  message : Text

structure V2KnowledgePackageVersionRef where
  package_id : Text
  version_id : Text
  name : Text
  type : V2KnowledgePackageType
  version : Text
  status : V2KnowledgeLifecycleStatus
  content_hash : Text

structure V2InterfaceContractVersionRef where
  contract_id : Text
  version_id : Text
  name : Text
  version : Text
  status : V2KnowledgeLifecycleStatus
  content_hash : Text

structure V2ContextExclusion where
  item : Text
  reason : Text

structure AssembleManifestInput where
  task_id : Text
  explicitly_excluded_context : List V2ContextExclusion

structure V2TaskContextManifest where
  project_id : Text
  phase_id : Text
  task_id : Text
  task_package_id : Text
  included_packages : List V2KnowledgePackageVersionRef
  included_decision_records : List Text
  included_interface_contracts : List V2InterfaceContractVersionRef
  included_current_state : List Text
  explicitly_excluded_context : List V2ContextExclusion

def packageRefFromRow (row : PackageRefRow) : V2KnowledgePackageVersionRef :=
  ⟨row.package_id, row.id, row.name, row.package_type, row.version, row.status, row.content_hash⟩

def contractRefFromRow (row : ContractVersionRow) : V2InterfaceContractVersionRef :=
  ⟨row.contract_id, row.id, row.name, row.version, row.status, row.content_hash⟩

def missingContext (message : Text) : KnowledgeSystemError := ⟨.missing_context, message⟩

/-- The packages that are selected, by their ids. -/
abbrev Selected := OrdMap Text PackageRefRow

section

variable (t : Tables) (order : Arrangements) (task : TaskRow) (taskPackage : TaskPackageRow)

/-- The active versions of the project. -/
def packageRows : List PackageRefRow :=
  order.packages.arrange (t.joined.filter fun row => row.project_id = task.project_id ∧ row.status = .active)

def activeByPackage : Selected := OrdMap.ofList ((packageRows t order task).map fun row => (row.package_id, row))

/-- `mandatoryProject || mandatoryPhase || currentState` -/
def isMandatory (row : PackageRefRow) : Bool :=
  (row.package_type = .project ∧ row.scope_kind = .project ∧ row.scope_id = task.project_id) ∨
    (row.package_type = .phase ∧ row.scope_kind = .phase ∧ row.scope_id = task.phase_id) ∨
    (row.package_type = .current_state ∧ ((row.scope_kind = .project ∧ row.scope_id = task.project_id) ∨
      (row.scope_kind = .phase ∧ row.scope_id = task.phase_id)))

/-- The selection before the loops. -/
def seeds : Selected :=
  OrdMap.ofList (((packageRows t order task).filter fun row =>
    isMandatory task row || taskPackage.required_package_ids.contains row.package_id).map fun row => (row.package_id, row))

def isProjectPackage (row : PackageRefRow) : Bool := row.package_type = .project ∧ row.scope_id = task.project_id

def isPhasePackage (row : PackageRefRow) : Bool := row.package_type = .phase ∧ row.scope_id = task.phase_id

def missingSeeds (selected : Selected) : List Text :=
  (if selected.values.any (isProjectPackage task) then [] else [units "an active Project Package"]) ++
    if selected.values.any (isPhasePackage task) then [] else [units "an active Phase Package"]

/-- Refuse if something is missing. -/
def refuseIf (missing : List Text) (before separator : Text) : Except KnowledgeSystemError Unit :=
  if missing = [] then .ok () else .error (missingContext (before ++ join separator missing))

def missingExplicit : List Text :=
  taskPackage.required_package_ids.filter fun id => !(activeByPackage t order task).has id

def checkSeeds (input : AssembleManifestInput) : Except KnowledgeSystemError Unit := do
  refuseIf (missingSeeds task (seeds t order task taskPackage)) (units "task " ++ input.task_id ++ units " is missing ")
    (units " and ")
  refuseIf (missingExplicit t order task taskPackage) (units "required Knowledge Packages have no active version: ")
    (units ", ")

/-- The parent of a row, if it is not selected. -/
def wantParent : Want Text PackageRefRow PackageRefRow KnowledgeSystemError := fun selected row =>
  match row.parent_package_id with
  | none => .ok none
  | some parent_id =>
    if parent_id = [] || selected.has parent_id then .ok none
    else
      match (activeByPackage t order task).get? parent_id with
      | none => .error (missingContext (units "parent package " ++ parent_id ++ units " has no active version"))
      | some parent => .ok (some (parent.package_id, parent))

/-- The rows of the dependencies of some versions. -/
def dependencyRows (selectedVersionIds : List Text) : List PackageRefRow :=
  order.dependencies.arrange ((t.dependencies.filter fun d => selectedVersionIds.contains d.package_version_id).filterMap
    fun d => t.joined.find? fun row => row.id = d.required_package_version_id)

/-- The version that is pinned, if its package is not selected. -/
def wantDependency : Want Text PackageRefRow PackageRefRow KnowledgeSystemError := fun selected dependency =>
  if dependency.status ≠ .active then
    .error (missingContext (units "package dependency " ++ dependency.id ++ units " is " ++
      statusText dependency.status ++ units "; revise the dependent package before dispatch"))
  else if selected.has dependency.package_id then .ok none
  else .ok (some (dependency.package_id, dependency))

/-- Each pass after which another one follows adds an active package of the project. -/
def bound : ℕ := (packageRows t order task).length + 1

def parentLoop : Selected → Option (Except KnowledgeSystemError Selected) :=
  saturate OrdMap.values (wantParent t order task) (bound t order task)

def dependencyLoop : Selected → Option (Except KnowledgeSystemError Selected) :=
  saturate (fun selected => dependencyRows t order (selected.values.map fun row => row.id)) wantDependency
    (bound t order task)

def interfaceRows : List ContractVersionRow :=
  order.contracts.arrange (t.contracts.filter fun row => row.project_id = task.project_id ∧
    taskPackage.required_interface_contract_ids.contains row.contract_id ∧ row.status = .active)

def missingContracts : List Text :=
  taskPackage.required_interface_contract_ids.filter fun id =>
    !((interfaceRows t order task taskPackage).map ContractVersionRow.contract_id).contains id

def activeDecisions : List Text :=
  ((t.decisions.filter fun row => row.project_id = task.project_id ∧
    taskPackage.required_decision_record_ids.contains row.id).filter DecisionRow.active).map DecisionRow.id

def missingDecisions : List Text :=
  taskPackage.required_decision_record_ids.filter fun id => !(activeDecisions t task taskPackage).contains id

def checkRecords : Except KnowledgeSystemError Unit := do
  refuseIf (missingContracts t order task taskPackage) (units "required Interface Contracts have no active version: ")
    (units ", ")
  refuseIf (missingDecisions t task taskPackage) (units "required Decision Records are absent or superseded: ")
    (units ", ")

variable (localeCompare : Text → Text → Ordering)

def comparePackages (left right : PackageRefRow) : Ordering :=
  ((localeCompare left.package_type.text right.package_type.text).then (localeCompare left.name right.name)).then
    (localeCompare left.package_id right.package_id)

def sortedPackages (selected : Selected) : List PackageRefRow :=
  selected.values.insertionSort fun left right => comparePackages localeCompare left right ≠ .gt

/-- The order of `sort()`: by code units. -/
def unitsLe : Text → Text → Bool
  | [], _ => true
  | _ :: _, [] => false
  | c :: s, d :: u => c.val < d.val || (c = d && unitsLe s u)

/-- The active packages that are not selected. -/
def excludedRows (included : List V2KnowledgePackageVersionRef) : List PackageRefRow :=
  (packageRows t order task).filter fun row => !(included.map V2KnowledgePackageVersionRef.package_id).contains row.package_id

def exclusionFromRow (row : PackageRefRow) : V2ContextExclusion :=
  ⟨row.name ++ units " " ++ row.version, units "not required by task scope, inheritance, or an interface dependency"⟩

def manifestOf (input : AssembleManifestInput) (selected : Selected) : V2TaskContextManifest :=
  let includedPackages := (sortedPackages localeCompare selected).map packageRefFromRow
  { project_id := task.project_id
    phase_id := task.phase_id
    task_id := input.task_id
    task_package_id := taskPackage.id
    included_packages := includedPackages
    included_decision_records := (activeDecisions t task taskPackage).dedup.insertionSort fun s u => unitsLe s u
    included_interface_contracts := (interfaceRows t order task taskPackage).map contractRefFromRow
    included_current_state :=
      (selected.values.filter fun row => row.package_type = .current_state).flatMap fun row => row.current_state
    explicitly_excluded_context :=
      (excludedRows t order task includedPackages).map exclusionFromRow ++ input.explicitly_excluded_context }

/-- Both loops; nothing if one of them did not end. -/
def selectPackages : Option (Except KnowledgeSystemError Selected) :=
  match parentLoop t order task (seeds t order task taskPackage) with
  | none => none
  | some (.error e) => some (.error e)
  | some (.ok selected) => dependencyLoop t order task selected

def assembleFor (input : AssembleManifestInput) : Option (Except KnowledgeSystemError V2TaskContextManifest) :=
  match checkSeeds t order task taskPackage input with
  | .error e => some (.error e)
  | .ok _ =>
    (selectPackages t order task taskPackage).map fun selected => do
      let selected ← selected
      checkRecords t order task taskPackage
      return manifestOf t order task taskPackage localeCompare input selected

end

def assembleManifest (t : Tables) (order : Arrangements) (localeCompare : Text → Text → Ordering)
    (input : AssembleManifestInput) : Option (Except KnowledgeSystemError V2TaskContextManifest) :=
  match t.tasks.find? fun task => task.id = input.task_id with
  | none => some (.error ⟨.not_found, units "task not found"⟩)
  | some task =>
    match t.taskPackages.find? fun row => row.task_id = input.task_id ∧ row.approved with
    | none => some (.error (missingContext (units "task " ++ input.task_id ++ units " has no approved Task Package")))
    | some taskPackage => assembleFor t order task taskPackage localeCompare input

/-! ### What is to be in a manifest -/

section

variable (t : Tables) (task : TaskRow) (taskPackage : TaskPackageRow)

/-- An active version of the project, with its package. -/
structure Active (row : PackageRefRow) : Prop where
  joined : row ∈ t.joined
  project : row.project_id = task.project_id
  status : row.status = .active

/-- A mandatory package, or one the task asks for. -/
inductive Seed : Text → Prop
  | mandatory {row : PackageRefRow} (active : Active t task row) (h : isMandatory task row = true) : Seed row.package_id
  | required {id : Text} (h : id ∈ taskPackage.required_package_ids) : Seed id

def Parent (id parent_id : Text) : Prop :=
  ∃ package ∈ t.packages, package.id = id ∧ package.parent_package_id = some parent_id

/-- The version of a row depends on a version. -/
def Pins (row required : PackageRefRow) : Prop :=
  required ∈ t.joined ∧
    ∃ d ∈ t.dependencies, d.package_version_id = row.id ∧ d.required_package_version_id = required.id

/-- **What is to be in the manifest**: with a package its parent and the pinned dependencies of its version. -/
inductive Included : Text → Prop
  | seed {id : Text} (h : Seed t task taskPackage id) : Included id
  | parent {id parent_id : Text} (member : Included id) (h : Parent t id parent_id) : Included parent_id
  | dependency {row required : PackageRefRow} (active : Active t task row) (member : Included row.package_id)
      (h : Pins t row required) : Included required.package_id

/-- What the first loop reaches. -/
inductive Ancestor : Text → Prop
  | seed {id : Text} (h : Seed t task taskPackage id) : Ancestor id
  | parent {id parent_id : Text} (member : Ancestor id) (h : Parent t id parent_id) : Ancestor parent_id

/-- **What the loops reach**: the ancestors, and from there on dependencies only. -/
inductive Reached : Text → Prop
  | ancestor {id : Text} (h : Ancestor t task taskPackage id) : Reached id
  | dependency {row required : PackageRefRow} (active : Active t task row) (member : Reached row.package_id)
      (h : Pins t row required) : Reached required.package_id

/-- There is no project or phase package, a member has no active version, or a pinned version is active no more. -/
inductive Lacking (Member : Text → Prop) : Prop
  | project (h : ∀ row, Active t task row → Seed t task taskPackage row.package_id → isProjectPackage task row = false)
  | phase (h : ∀ row, Active t task row → Seed t task taskPackage row.package_id → isPhasePackage task row = false)
  | inactive {id : Text} (member : Member id) (h : ∀ row, Active t task row → row.package_id ≠ id)
  | stale {row required : PackageRefRow} (active : Active t task row) (member : Member row.package_id)
      (pins : Pins t row required) (h : required.status ≠ .active)

/-- A contract or a decision the task asks for is not active. -/
inductive Unrecorded : Prop
  | contract {id : Text} (required : id ∈ taskPackage.required_interface_contract_ids)
      (h : ∀ row ∈ t.contracts, row.project_id = task.project_id → row.contract_id = id → row.status ≠ .active)
  | decision {id : Text} (required : id ∈ taskPackage.required_decision_record_ids)
      (h : ∀ row ∈ t.decisions, row.project_id = task.project_id → row.id = id → row.active = false)

/-- The packages of a manifest are the members, each once and at its active version, and the other active packages are
excluded. -/
structure Selects (Member : Text → Prop) (input : AssembleManifestInput) (manifest : V2TaskContextManifest)
    (included excluded : List PackageRefRow) : Prop where
  packages : manifest.included_packages = included.map packageRefFromRow
  exclusions : manifest.explicitly_excluded_context =
    excluded.map exclusionFromRow ++ input.explicitly_excluded_context
  partition : (included ++ excluded).Perm
    (t.joined.filter fun row => row.project_id = task.project_id ∧ row.status = .active)
  once : (included.map fun row => row.package_id).Nodup
  members : ∀ id, (∃ row ∈ included, row.package_id = id) ↔ Member id

/-- What a manifest is to be, for some members. -/
structure Meets (Member : Text → Prop) (input : AssembleManifestInput)
    (result : Option (Except KnowledgeSystemError V2TaskContextManifest)) : Prop where
  ends : result ≠ none
  refused : ∀ e, result = some (.error e) →
    e.code = .missing_context ∧ (Lacking t task taskPackage Member ∨ Unrecorded t task taskPackage)
  selected : ∀ manifest, result = some (.ok manifest) →
    ¬ Lacking t task taskPackage Member ∧ ¬ Unrecorded t task taskPackage ∧
      ∃ included excluded, Selects t task Member input manifest included excluded

end

/-! ### Rows -/

/-- A row is found by its key. -/
theorem find?_key {α β : Type} [DecidableEq β] {f : α → β} {l : List α} (hl : (l.map f).Nodup) {a : α} {b : β} :
    (l.find? fun a => f a = b) = some a ↔ a ∈ l ∧ f a = b := by
  constructor
  · intro h
    exact ⟨List.mem_of_find?_eq_some h, by simpa using List.find?_some h⟩
  · rintro ⟨ha, rfl⟩
    rcases hfind : l.find? fun a' => f a' = f a with _ | a'
    · have hnone := List.find?_eq_none.mp hfind a ha
      simp at hnone
    · have ha' := List.mem_of_find?_eq_some hfind
      have heq : f a' = f a := by simpa using List.find?_some hfind
      rw [List.inj_on_of_nodup_map hl ha' ha heq]

section

variable {t : Tables} {task : TaskRow}

theorem Tables.packageRow_eq {version : PackageVersionRow} {package : PackageRow} :
    t.packageRow version = some package ↔ package ∈ t.packages ∧ package.id = version.package_id :=
  find?_key t.package_ids

theorem Tables.mem_joined {row : PackageRefRow} : row ∈ t.joined ↔
    ∃ version ∈ t.versions, ∃ package ∈ t.packages, package.id = version.package_id ∧ row = joinRow version package := by
  unfold Tables.joined
  rw [List.mem_filterMap]
  refine exists_congr fun version => and_congr_right fun _ => ?_
  rw [Option.map_eq_some_iff]
  constructor
  · rintro ⟨package, hpackage, rfl⟩
    obtain ⟨hmem, hid⟩ := Tables.packageRow_eq.mp hpackage
    exact ⟨package, hmem, hid, rfl⟩
  · rintro ⟨package, hmem, hid, rfl⟩
    exact ⟨package, Tables.packageRow_eq.mpr ⟨hmem, hid⟩, rfl⟩

/-- Each version is joined once. -/
theorem Tables.joined_versions (t : Tables) : t.joined.map PackageRefRow.toPackageVersionRow = t.versions := by
  unfold Tables.joined
  rw [List.map_filterMap]
  have hsome : ∀ version ∈ t.versions, ((t.packageRow version).map (joinRow version)).map
      PackageRefRow.toPackageVersionRow = some version := by
    intro version hversion
    obtain ⟨package, hmem, hid, -⟩ := t.version_package version hversion
    rw [Tables.packageRow_eq.mpr ⟨hmem, hid⟩]
    rfl
  rw [List.filterMap_congr hsome]
  exact List.filterMap_some

theorem Tables.joined_ids (t : Tables) : (t.joined.map fun row => row.id).Nodup := by
  have hmap : (t.joined.map fun row => row.id) = t.versions.map PackageVersionRow.id := by
    rw [← t.joined_versions, List.map_map]
    rfl
  rw [hmap]
  exact t.version_ids

theorem Tables.version_of_joined {row : PackageRefRow} (h : row ∈ t.joined) : row.toPackageVersionRow ∈ t.versions := by
  rw [← t.joined_versions]
  exact List.mem_map_of_mem h

/-- A package has one active version. -/
theorem Active.unique {row row' : PackageRefRow} (h : Active t task row) (h' : Active t task row')
    (hid : row.package_id = row'.package_id) : row = row' := by
  have hversion := t.one_active _ (Tables.version_of_joined h.joined) _ (Tables.version_of_joined h'.joined) h.status
    h'.status hid
  have hids : row.id = row'.id := congrArg PackageVersionRow.id hversion
  exact List.inj_on_of_nodup_map t.joined_ids h.joined h'.joined hids

/-- The parent of a package is read in its row. -/
theorem Active.parent_iff {row : PackageRefRow} (h : Active t task row) {parent_id : Text} :
    Parent t row.package_id parent_id ↔ row.parent_package_id = some parent_id := by
  obtain ⟨version, hversion, package, hpackage, hid, rfl⟩ := Tables.mem_joined.mp h.joined
  constructor
  · rintro ⟨package', hpackage', hid', hparent⟩
    have hsame : package' = package := by
      refine List.inj_on_of_nodup_map t.package_ids hpackage' hpackage ?_
      rw [hid', hid]
      rfl
    rw [← hparent, hsame]
    rfl
  · intro hparent
    exact ⟨package, hpackage, hid, hparent⟩

theorem Active.parent_ne {row : PackageRefRow} (h : Active t task row) : row.parent_package_id ≠ some [] := by
  obtain ⟨version, -, package, hpackage, -, rfl⟩ := Tables.mem_joined.mp h.joined
  exact t.parent_named package hpackage

/-- What an active version pins is of its project. -/
theorem Active.pinned {row required : PackageRefRow} (h : Active t task row) (hpins : Pins t row required)
    (hstatus : required.status = .active) : Active t task required := by
  obtain ⟨hjoined, d, hd, hrow, hrequired⟩ := hpins
  refine ⟨hjoined, ?_, hstatus⟩
  rw [t.dependency_project d hd _ (Tables.version_of_joined h.joined) _ (Tables.version_of_joined hjoined) hrow.symm
    hrequired.symm]
  exact h.project

variable {order : Arrangements} {taskPackage : TaskPackageRow}

theorem mem_activeJoined {row : PackageRefRow} : row ∈ (t.joined.filter fun row =>
    row.project_id = task.project_id ∧ row.status = .active) ↔ Active t task row := by
  rw [List.mem_filter, decide_eq_true_eq]
  constructor
  · rintro ⟨hjoined, hproject, hstatus⟩
    exact ⟨hjoined, hproject, hstatus⟩
  · intro h
    exact ⟨h.joined, h.project, h.status⟩

theorem mem_packageRows {row : PackageRefRow} : row ∈ packageRows t order task ↔ Active t task row := by
  unfold packageRows
  rw [(order.packages.perm _).mem_iff, mem_activeJoined]

theorem packageRows_nodup : (packageRows t order task).Nodup := by
  unfold packageRows
  rw [(order.packages.perm _).nodup_iff]
  exact (t.joined_ids.of_map _).filter _

theorem packageRows_ids : ((packageRows t order task).map fun row => row.package_id).Nodup := by
  refine List.Nodup.map_on (fun row hrow row' hrow' hid => ?_) packageRows_nodup
  exact (mem_packageRows.mp hrow).unique (mem_packageRows.mp hrow') hid

/-- A map of rows by their packages. -/
theorem get?_byPackage {p : PackageRefRow → Bool} {id : Text} {row : PackageRefRow} :
    (OrdMap.ofList (((packageRows t order task).filter p).map fun row => (row.package_id, row))).get? id = some row ↔
      Active t task row ∧ p row = true ∧ row.package_id = id := by
  have hkeys : ((((packageRows t order task).filter p).map fun row => (row.package_id, row)).map Prod.fst).Nodup := by
    rw [List.map_map]
    exact packageRows_ids.sublist (List.filter_sublist.map _)
  rw [OrdMap.get?_ofList hkeys, List.mem_map]
  constructor
  · rintro ⟨row', hrow', heq⟩
    obtain ⟨rfl, rfl⟩ := Prod.mk.inj heq
    obtain ⟨hmem, hp⟩ := List.mem_filter.mp hrow'
    exact ⟨mem_packageRows.mp hmem, hp, rfl⟩
  · rintro ⟨hactive, hp, rfl⟩
    exact ⟨row, List.mem_filter.mpr ⟨mem_packageRows.mpr hactive, hp⟩, rfl⟩

theorem get?_activeByPackage {id : Text} {row : PackageRefRow} :
    (activeByPackage t order task).get? id = some row ↔ Active t task row ∧ row.package_id = id := by
  have h : (OrdMap.ofList (((packageRows t order task).filter fun _ => true).map fun row => (row.package_id, row))).get? id
      = some row ↔ Active t task row ∧ true = true ∧ row.package_id = id := get?_byPackage
  rw [List.filter_true] at h
  unfold activeByPackage
  rw [h]
  simp

theorem get?_seeds {id : Text} {row : PackageRefRow} : (seeds t order task taskPackage).get? id = some row ↔
    Active t task row ∧ Seed t task taskPackage row.package_id ∧ row.package_id = id := by
  unfold seeds
  rw [get?_byPackage]
  refine and_congr_right fun hactive => and_congr_left fun _ => ?_
  rw [Bool.or_eq_true, List.contains_iff_mem]
  constructor
  · rintro (hmandatory | hrequired)
    · exact .mandatory hactive hmandatory
    · exact .required hrequired
  · intro hseed
    generalize hid : row.package_id = id at hseed
    cases hseed with
    | mandatory hactive' hmandatory =>
      obtain rfl := hactive.unique hactive' hid
      exact Or.inl hmandatory
    | required h => exact Or.inr h

end

/-! ### The loops -/

section

variable {t : Tables} {order : Arrangements} {task : TaskRow} {taskPackage : TaskPackageRow}

/-- The entries are active packages of some kind, by their ids. -/
def Entry (t : Tables) (task : TaskRow) (Member : Text → Prop) (id : Text) (row : PackageRefRow) : Prop :=
  Active t task row ∧ row.package_id = id ∧ Member id

theorem holds_seeds : Holds (Entry t task (Ancestor t task taskPackage)) (seeds t order task taskPackage) := by
  intro id row hget
  obtain ⟨hactive, hseed, hid⟩ := get?_seeds.mp hget
  exact ⟨hactive, hid, hid ▸ Ancestor.seed hseed⟩

theorem entry_of_mem_values {Member : Text → Prop} {m : Selected} (hm : Holds (Entry t task Member) m) {row : PackageRefRow}
    (hrow : row ∈ m.values) : Active t task row ∧ Member row.package_id ∧ m.get? row.package_id = some row := by
  obtain ⟨id, hget⟩ := OrdMap.mem_values.mp hrow
  obtain ⟨hactive, rfl, hmember⟩ := hm id row hget
  exact ⟨hactive, hmember, hget⟩

theorem has_eq_false {m : Selected} {id : Text} : m.has id = false ↔ m.get? id = none := by
  unfold OrdMap.has
  rw [← Bool.not_eq_true, Option.not_isSome_iff_eq_none]

theorem sound_parent : Sound OrdMap.values (wantParent t order task) (Entry t task (Ancestor t task taskPackage))
    fun row => Active t task row ∧ Ancestor t task taskPackage row.package_id := by
  refine ⟨fun hm row hrow => ?_, fun {m row id parent} hrow hwant => ?_⟩
  · obtain ⟨hactive, hmember, -⟩ := entry_of_mem_values hm hrow
    exact ⟨hactive, hmember⟩
  · obtain ⟨hactive, hmember⟩ := hrow
    unfold wantParent at hwant
    split at hwant
    case h_1 => cases hwant
    case h_2 parent_id hparent =>
      by_cases hhas : (decide (parent_id = []) || m.has parent_id) = true
      · rw [if_pos hhas] at hwant
        cases hwant
      · rw [if_neg hhas] at hwant
        split at hwant
        case h_1 => cases hwant
        case h_2 parent' hget =>
          obtain ⟨rfl, rfl⟩ := Prod.mk.inj (Option.some.inj (Except.ok.inj hwant))
          obtain ⟨hactive', hid⟩ := get?_activeByPackage.mp hget
          have hreached := Ancestor.parent hmember (hactive.parent_iff.mpr hparent)
          simp only [Bool.or_eq_true, decide_eq_true_eq, not_or, Bool.not_eq_true] at hhas
          rw [hid]
          exact ⟨⟨hactive', hid, hreached⟩, has_eq_false.mp hhas.2⟩

/-- The first loop is refused at a parent without an active version. -/
theorem wantParent_error {m : Selected} {row : PackageRefRow} {e : KnowledgeSystemError}
    (h : wantParent t order task m row = .error e) : e.code = .missing_context ∧
      ∃ parent_id, row.parent_package_id = some parent_id ∧ ∀ row', Active t task row' → row'.package_id ≠ parent_id := by
  unfold wantParent at h
  split at h
  case h_1 => cases h
  case h_2 parent_id hparent =>
    split_ifs at h
    split at h
    case h_1 hget =>
      obtain rfl := Except.error.inj h
      refine ⟨rfl, parent_id, hparent, fun row' hrow' hid => ?_⟩
      rw [get?_activeByPackage.mpr ⟨hrow', hid⟩] at hget
      cases hget
    case h_2 => cases h

theorem wantParent_none {m : Selected} {row : PackageRefRow} (hactive : Active t task row)
    (h : wantParent t order task m row = .ok none) {parent_id : Text} (hparent : row.parent_package_id = some parent_id) :
    parent_id ∈ m.keys := by
  have hne : parent_id ≠ [] := fun hnil => hactive.parent_ne (hnil ▸ hparent)
  by_contra hkey
  have hhas : m.has parent_id = false := by
    rw [← Bool.not_eq_true, OrdMap.has_iff]
    exact hkey
  unfold wantParent at h
  simp only [hparent, hhas, hne, decide_false, Bool.or_false, Bool.false_eq_true, if_false] at h
  split at h
  case h_1 => cases h
  case h_2 => cases h

theorem mem_dependencyRows {ids : List Text} {required : PackageRefRow} : required ∈ dependencyRows t order ids ↔
    required ∈ t.joined ∧
      ∃ d ∈ t.dependencies, d.package_version_id ∈ ids ∧ d.required_package_version_id = required.id := by
  unfold dependencyRows
  rw [(order.dependencies.perm _).mem_iff, List.mem_filterMap]
  constructor
  · rintro ⟨d, hd, hfind⟩
    obtain ⟨hd, hmem⟩ := List.mem_filter.mp hd
    obtain ⟨hjoined, hid⟩ := (find?_key t.joined_ids).mp hfind
    exact ⟨hjoined, d, hd, List.contains_iff_mem.mp hmem, hid.symm⟩
  · rintro ⟨hjoined, d, hd, hmem, hid⟩
    refine ⟨d, List.mem_filter.mpr ⟨hd, List.contains_iff_mem.mpr hmem⟩, ?_⟩
    exact (find?_key t.joined_ids).mpr ⟨hjoined, hid.symm⟩

/-- The dependencies of what is selected. -/
theorem mem_dependencyRows_values {m : Selected} {required : PackageRefRow} :
    required ∈ dependencyRows t order (m.values.map fun row => row.id) ↔ ∃ row ∈ m.values, Pins t row required := by
  rw [mem_dependencyRows]
  constructor
  · rintro ⟨hjoined, d, hd, hmem, hid⟩
    obtain ⟨row, hrow, hrowid⟩ := List.mem_map.mp hmem
    exact ⟨row, hrow, hjoined, d, hd, hrowid.symm, hid⟩
  · rintro ⟨row, hrow, hjoined, d, hd, hrowid, hid⟩
    exact ⟨hjoined, d, hd, List.mem_map.mpr ⟨row, hrow, hrowid.symm⟩, hid⟩

theorem sound_dependency : Sound (fun m : Selected => dependencyRows t order (m.values.map fun row => row.id))
    wantDependency (Entry t task (Reached t task taskPackage)) fun required =>
      ∃ row, Active t task row ∧ Reached t task taskPackage row.package_id ∧ Pins t row required := by
  refine ⟨fun hm required hrequired => ?_, fun {m required id required'} hrequired hwant => ?_⟩
  · obtain ⟨row, hrow, hpins⟩ := mem_dependencyRows_values.mp hrequired
    obtain ⟨hactive, hmember, -⟩ := entry_of_mem_values hm hrow
    exact ⟨row, hactive, hmember, hpins⟩
  · obtain ⟨row, hactive, hmember, hpins⟩ := hrequired
    unfold wantDependency at hwant
    split_ifs at hwant with hstatus hhas
    · cases hwant
    · obtain ⟨rfl, rfl⟩ := Prod.mk.inj (Option.some.inj (Except.ok.inj hwant))
      refine ⟨⟨hactive.pinned hpins (not_not.mp hstatus), rfl, .dependency hactive hmember hpins⟩, ?_⟩
      exact has_eq_false.mp (by simpa using hhas)

/-- The second loop is refused at a version that is active no more. -/
theorem wantDependency_error {m : Selected} {required : PackageRefRow} {e : KnowledgeSystemError}
    (h : wantDependency m required = .error e) : e.code = .missing_context ∧ required.status ≠ .active := by
  unfold wantDependency at h
  split_ifs at h with hstatus hhas
  obtain rfl := Except.error.inj h
  exact ⟨rfl, hstatus⟩

theorem wantDependency_none {m : Selected} {required : PackageRefRow} (h : wantDependency m required = .ok none) :
    required.status = .active ∧ required.package_id ∈ m.keys := by
  unfold wantDependency at h
  split_ifs at h with hstatus hhas
  · exact ⟨not_not.mp hstatus, OrdMap.has_iff.mp hhas⟩
  · cases h

end

/-! ### The selection -/

section

variable {t : Tables} {order : Arrangements} {task : TaskRow} {taskPackage : TaskPackageRow}

/-- Two checks in a row. -/
theorem refuse_both {missing missing' before before' separator separator'} (r : Except KnowledgeSystemError Unit)
    (hr : r = do
      refuseIf missing before separator
      refuseIf missing' before' separator') :
    (∀ e, r = .error e → e.code = .missing_context ∧ (missing ≠ [] ∨ missing' ≠ [])) ∧
      ∀ u, r = .ok u → missing = [] ∧ missing' = [] := by
  subst hr
  unfold refuseIf
  by_cases h : missing = []
  · by_cases h' : missing' = []
    · rw [if_pos h, if_pos h']
      exact ⟨fun e he => (by cases he), fun _ _ => ⟨h, h'⟩⟩
    · rw [if_pos h, if_neg h']
      refine ⟨fun e he => ?_, fun u hu => (by cases hu)⟩
      obtain rfl := Except.error.inj he
      exact ⟨rfl, Or.inr h'⟩
  · rw [if_neg h]
    refine ⟨fun e he => ?_, fun u hu => (by cases hu)⟩
    obtain rfl := Except.error.inj he
    exact ⟨rfl, Or.inl h⟩

theorem any_seeds {p : PackageRefRow → Bool} : (seeds t order task taskPackage).values.any p = true ↔
    ∃ row, Active t task row ∧ Seed t task taskPackage row.package_id ∧ p row = true := by
  rw [List.any_eq_true]
  constructor
  · rintro ⟨row, hrow, hp⟩
    obtain ⟨id, hget⟩ := OrdMap.mem_values.mp hrow
    obtain ⟨hactive, hseed, -⟩ := get?_seeds.mp hget
    exact ⟨row, hactive, hseed, hp⟩
  · rintro ⟨row, hactive, hseed, hp⟩
    exact ⟨row, OrdMap.mem_values.mpr ⟨row.package_id, get?_seeds.mpr ⟨hactive, hseed, rfl⟩⟩, hp⟩

theorem missingSeeds_eq_nil {m : Selected} : missingSeeds task m = [] ↔
    m.values.any (isProjectPackage task) = true ∧ m.values.any (isPhasePackage task) = true := by
  unfold missingSeeds
  rw [List.append_eq_nil_iff]
  split_ifs with hproject hphase hphase <;> simp [hproject, hphase]

theorem missingExplicit_eq_nil : missingExplicit t order task taskPackage = [] ↔
    ∀ id ∈ taskPackage.required_package_ids, ∃ row, Active t task row ∧ row.package_id = id := by
  unfold missingExplicit
  rw [List.filter_eq_nil_iff]
  refine forall₂_congr fun id _ => ?_
  rw [Bool.not_eq_true', Bool.not_eq_false, OrdMap.has_iff, OrdMap.mem_keys]
  simp only [get?_activeByPackage]

variable {Member : Text → Prop}

/-- What the first checks refuse is lacking. -/
theorem lacking_of_seeds (hseed : ∀ id, Seed t task taskPackage id → Member id)
    (h : missingSeeds task (seeds t order task taskPackage) ≠ [] ∨ missingExplicit t order task taskPackage ≠ []) :
    Lacking t task taskPackage Member := by
  rcases h with h | h
  · rw [Ne, missingSeeds_eq_nil, not_and_or] at h
    rcases h with h | h
    · rw [any_seeds] at h
      refine .project fun row hactive hrow => ?_
      by_contra hp
      exact h ⟨row, hactive, hrow, by simpa using hp⟩
    · rw [any_seeds] at h
      refine .phase fun row hactive hrow => ?_
      by_contra hp
      exact h ⟨row, hactive, hrow, by simpa using hp⟩
  · rw [Ne, missingExplicit_eq_nil] at h
    push Not at h
    obtain ⟨id, hid, hnone⟩ := h
    exact .inactive (hseed id (.required hid)) hnone

/-- Both loops have enough passes. -/
theorem enough_passes {m : Selected} : ((packageRows t order task).map fun row => row.package_id).length <
    m.keys.length + bound t order task := by
  unfold bound
  rw [List.length_map]
  omega

theorem mem_rows_of_entry {id : Text} {row : PackageRefRow} (h : Entry t task Member id row) :
    id ∈ (packageRows t order task).map fun row => row.package_id := by
  obtain ⟨hactive, rfl, -⟩ := h
  exact List.mem_map.mpr ⟨row, mem_packageRows.mpr hactive, rfl⟩

/-- What both loops leave. -/
structure Selection (t : Tables) (task : TaskRow) (taskPackage : TaskPackageRow) (m : Selected) : Prop where
  entries : Holds (Entry t task (Reached t task taskPackage)) m
  all : ∀ id, Reached t task taskPackage id → id ∈ m.keys
  pinned : ∀ row ∈ m.values, ∀ required, Pins t row required → required.status = .active

/-- The first loop selects the ancestors. -/
theorem ancestor_selected (hexplicit : missingExplicit t order task taskPackage = []) {m : Selected}
    (hholds : Holds (Entry t task (Ancestor t task taskPackage)) m) (hkeeps : Keeps (seeds t order task taskPackage) m)
    (hclosed : ∀ row ∈ m.values, wantParent t order task m row = .ok none) {id : Text}
    (h : Ancestor t task taskPackage id) : id ∈ m.keys := by
  induction h with
  | @seed id h =>
    have hactive : ∃ row, Active t task row ∧ row.package_id = id := by
      cases h with
      | mandatory active _ => exact ⟨_, active, rfl⟩
      | required h => exact missingExplicit_eq_nil.mp hexplicit id h
    obtain ⟨row, hactive, rfl⟩ := hactive
    exact OrdMap.mem_keys.mpr ⟨row, hkeeps _ _ (get?_seeds.mpr ⟨hactive, h, rfl⟩)⟩
  | @parent id parent_id member h ih =>
    obtain ⟨row, hget⟩ := OrdMap.mem_keys.mp ih
    obtain ⟨hactive, rfl, -⟩ := hholds id row hget
    have hrow : row ∈ m.values := OrdMap.mem_values.mpr ⟨_, hget⟩
    exact wantParent_none hactive (hclosed row hrow) (hactive.parent_iff.mp h)

/-- The second loop selects the dependencies. -/
theorem reached_selected {m m' : Selected} (hancestors : ∀ id, Ancestor t task taskPackage id → id ∈ m.keys)
    (hholds : Holds (Entry t task (Reached t task taskPackage)) m') (hkeeps : Keeps m m')
    (hclosed : ∀ required ∈ dependencyRows t order (m'.values.map fun row => row.id),
      wantDependency m' required = .ok none) : Selection t task taskPackage m' := by
  have hpinned : ∀ row ∈ m'.values, ∀ required, Pins t row required → required.status = .active ∧
      required.package_id ∈ m'.keys := by
    intro row hrow required hpins
    exact wantDependency_none (hclosed required (mem_dependencyRows_values.mpr ⟨row, hrow, hpins⟩))
  refine ⟨hholds, fun id h => ?_, fun row hrow required hpins => (hpinned row hrow required hpins).1⟩
  induction h with
  | @ancestor id h =>
    obtain ⟨row, hget⟩ := OrdMap.mem_keys.mp (hancestors id h)
    exact OrdMap.mem_keys.mpr ⟨row, hkeeps _ _ hget⟩
  | @dependency row required active member h ih =>
    obtain ⟨row', hget⟩ := OrdMap.mem_keys.mp ih
    obtain ⟨hactive', hid, -⟩ := hholds _ row' hget
    obtain rfl := hactive'.unique active hid
    exact (hpinned row' (OrdMap.mem_values.mpr ⟨_, hget⟩) required h).2

/-- **Both loops** end; they are refused where something reached is lacking, and select what is reached. -/
theorem selectPackages_spec (hexplicit : missingExplicit t order task taskPackage = []) :
    selectPackages t order task taskPackage ≠ none ∧
      (∀ e, selectPackages t order task taskPackage = some (.error e) →
        e.code = .missing_context ∧ Lacking t task taskPackage (Reached t task taskPackage)) ∧
      ∀ m, selectPackages t order task taskPackage = some (.ok m) → Selection t task taskPackage m := by
  have hends : (parentLoop t order task (seeds t order task taskPackage)).isSome :=
    saturate_isSome sound_parent (fun _ _ => mem_rows_of_entry) _ holds_seeds enough_passes
  unfold selectPackages
  rcases hparents : parentLoop t order task (seeds t order task taskPackage) with _ | (e | m)
  · rw [hparents] at hends
    cases hends
  · refine ⟨Option.some_ne_none _, fun e' he => ?_, fun m hm => (by cases hm)⟩
    obtain rfl := Except.error.inj (Option.some.inj he)
    obtain ⟨m', row, -, ⟨hactive, hmember⟩, hwant⟩ := saturate_error sound_parent _ holds_seeds hparents
    obtain ⟨hcode, parent_id, hparent, hnone⟩ := wantParent_error hwant
    exact ⟨hcode, .inactive (.ancestor (hmember.parent (hactive.parent_iff.mpr hparent))) hnone⟩
  · obtain ⟨hholds, hkeeps, hclosed⟩ := saturate_closed sound_parent _ holds_seeds hparents
    have hancestors : ∀ id, Ancestor t task taskPackage id → id ∈ m.keys :=
      fun id h => ancestor_selected hexplicit hholds hkeeps hclosed h
    have hholds' : Holds (Entry t task (Reached t task taskPackage)) m := by
      intro id row hget
      obtain ⟨hactive, hid, hmember⟩ := hholds id row hget
      exact ⟨hactive, hid, .ancestor hmember⟩
    refine ⟨fun hnone => ?_, fun e he => ?_, fun m' hm' => ?_⟩
    · have hends' : (dependencyLoop t order task m).isSome :=
        saturate_isSome sound_dependency (fun _ _ => mem_rows_of_entry) _ hholds' enough_passes
      have hnone' : dependencyLoop t order task m = none := hnone
      rw [hnone'] at hends'
      cases hends'
    · obtain ⟨m', required, -, ⟨row, hactive, hmember, hpins⟩, hwant⟩ := saturate_error sound_dependency _ hholds' he
      obtain ⟨hcode, hstatus⟩ := wantDependency_error hwant
      exact ⟨hcode, .stale hactive hmember hpins hstatus⟩
    · obtain ⟨hentries, hkeeps', hclosed'⟩ := saturate_closed sound_dependency _ hholds' hm'
      exact reached_selected hancestors hentries hkeeps' hclosed'

/-- What is selected lacks nothing. -/
theorem Selection.not_lacking {m : Selected} (h : Selection t task taskPackage m)
    (hseeds : missingSeeds task (seeds t order task taskPackage) = []) :
    ¬ Lacking t task taskPackage (Reached t task taskPackage) := by
  obtain ⟨hproject, hphase⟩ := missingSeeds_eq_nil.mp hseeds
  intro hlacking
  cases hlacking with
  | project hnone =>
    obtain ⟨row, hactive, hseed, hp⟩ := any_seeds.mp hproject
    rw [hnone row hactive hseed] at hp
    cases hp
  | phase hnone =>
    obtain ⟨row, hactive, hseed, hp⟩ := any_seeds.mp hphase
    rw [hnone row hactive hseed] at hp
    cases hp
  | inactive member hnone =>
    obtain ⟨row, hget⟩ := OrdMap.mem_keys.mp (h.all _ member)
    obtain ⟨hactive, hid, -⟩ := h.entries _ row hget
    exact hnone row hactive hid
  | stale active member pins hstatus =>
    obtain ⟨row, hget⟩ := OrdMap.mem_keys.mp (h.all _ member)
    obtain ⟨hactive, hid, -⟩ := h.entries _ row hget
    obtain rfl := hactive.unique active hid
    exact hstatus (h.pinned row (OrdMap.mem_values.mpr ⟨_, hget⟩) _ pins)

end

/-! ### The manifest of a selection -/

section

variable {t : Tables} {order : Arrangements} {task : TaskRow} {taskPackage : TaskPackageRow}
variable {localeCompare : Text → Text → Ordering} {input : AssembleManifestInput}

theorem missingContracts_eq_nil : missingContracts t order task taskPackage = [] ↔
    ∀ id ∈ taskPackage.required_interface_contract_ids,
      ∃ row ∈ t.contracts, row.project_id = task.project_id ∧ row.contract_id = id ∧ row.status = .active := by
  unfold missingContracts
  rw [List.filter_eq_nil_iff]
  refine forall₂_congr fun id hid => ?_
  rw [Bool.not_eq_true', Bool.not_eq_false, List.contains_iff_mem, List.mem_map]
  refine exists_congr fun row => ?_
  unfold interfaceRows
  rw [(order.contracts.perm _).mem_iff, List.mem_filter, decide_eq_true_eq, List.contains_iff_mem]
  constructor
  · rintro ⟨⟨hmem, hproject, -, hstatus⟩, hcontract⟩
    exact ⟨hmem, hproject, hcontract, hstatus⟩
  · rintro ⟨hmem, hproject, rfl, hstatus⟩
    exact ⟨⟨hmem, hproject, hid, hstatus⟩, rfl⟩

theorem missingDecisions_eq_nil : missingDecisions t task taskPackage = [] ↔
    ∀ id ∈ taskPackage.required_decision_record_ids,
      ∃ row ∈ t.decisions, row.project_id = task.project_id ∧ row.id = id ∧ row.active = true := by
  unfold missingDecisions
  rw [List.filter_eq_nil_iff]
  refine forall₂_congr fun id hid => ?_
  rw [Bool.not_eq_true', Bool.not_eq_false, List.contains_iff_mem]
  unfold activeDecisions
  rw [List.mem_map]
  refine exists_congr fun row => ?_
  rw [List.mem_filter, List.mem_filter, decide_eq_true_eq, List.contains_iff_mem]
  constructor
  · rintro ⟨⟨⟨hmem, hproject, -⟩, hactive⟩, hrow⟩
    exact ⟨hmem, hproject, hrow, hactive⟩
  · rintro ⟨hmem, hproject, rfl, hactive⟩
    exact ⟨⟨⟨hmem, hproject, hid⟩, hactive⟩, rfl⟩

/-- The checks of contracts and decisions refuse what is not recorded. -/
theorem unrecorded_iff : Unrecorded t task taskPackage ↔
    missingContracts t order task taskPackage ≠ [] ∨ missingDecisions t task taskPackage ≠ [] := by
  rw [Ne, missingContracts_eq_nil, Ne, missingDecisions_eq_nil]
  push Not
  constructor
  · intro h
    cases h with
    | contract required h => exact Or.inl ⟨_, required, h⟩
    | decision required h => exact Or.inr ⟨_, required, fun row hrow hproject hid => by simp [h row hrow hproject hid]⟩
  · rintro (⟨id, required, h⟩ | ⟨id, required, h⟩)
    · exact .contract required h
    · exact .decision required fun row hrow hproject hid => by simpa using h row hrow hproject hid

/-- The values of a selection have the ids of its keys. -/
theorem values_ids {Member : Text → Prop} {m : Selected} (h : Holds (Entry t task Member) m) :
    (m.values.map fun row => row.package_id) = m.keys := by
  unfold OrdMap.values OrdMap.keys
  rw [List.map_map]
  refine List.map_congr_left fun entry hentry => ?_
  obtain ⟨-, hid, -⟩ := h entry.1 entry.2 (OrdMap.mem_entries.mp hentry)
  exact hid

/-- **The manifest** has what is selected, and the other active packages are excluded. -/
theorem Selection.selects {m : Selected} (h : Selection t task taskPackage m) :
    Selects t task (Reached t task taskPackage) input (manifestOf t order task taskPackage localeCompare input m)
      (sortedPackages localeCompare m)
      (excludedRows t order task ((sortedPackages localeCompare m).map packageRefFromRow)) := by
  have hperm : (sortedPackages localeCompare m).Perm m.values := List.perm_insertionSort _ _
  have hids : ((sortedPackages localeCompare m).map fun row => row.package_id).Perm m.keys := by
    rw [← values_ids h.entries]
    exact hperm.map _
  have honce : ((sortedPackages localeCompare m).map fun row => row.package_id).Nodup := hids.nodup_iff.mpr m.keys_nodup
  have hrefs : ((sortedPackages localeCompare m).map packageRefFromRow).map V2KnowledgePackageVersionRef.package_id =
      (sortedPackages localeCompare m).map fun row => row.package_id := by
    rw [List.map_map]
    rfl
  have hactive : ∀ row ∈ sortedPackages localeCompare m, Active t task row :=
    fun row hrow => (entry_of_mem_values h.entries (hperm.mem_iff.mp hrow)).1
  have hexcluded : ∀ row, row ∈ excludedRows t order task ((sortedPackages localeCompare m).map packageRefFromRow) ↔
      Active t task row ∧ row.package_id ∉ (sortedPackages localeCompare m).map fun row => row.package_id := by
    intro row
    unfold excludedRows
    rw [hrefs, List.mem_filter, mem_packageRows, Bool.not_eq_true', ← Bool.not_eq_true, List.contains_iff_mem]
  refine ⟨rfl, rfl, ?_, honce, fun id => ?_⟩
  · refine (List.perm_ext_iff_of_nodup ?_ ((t.joined_ids.of_map _).filter _)).mpr fun row => ?_
    · refine List.Nodup.append (honce.of_map _) (packageRows_nodup.filter _) fun row hrow hrow' => ?_
      exact ((hexcluded row).mp hrow').2 (List.mem_map_of_mem hrow)
    · rw [List.mem_append, hexcluded, mem_activeJoined]
      constructor
      · rintro (hrow | ⟨hrow, -⟩)
        · exact hactive row hrow
        · exact hrow
      · intro hrow
        by_cases hid : row.package_id ∈ (sortedPackages localeCompare m).map fun row => row.package_id
        · obtain ⟨row', hrow', hid'⟩ := List.mem_map.mp hid
          obtain rfl := (hactive row' hrow').unique hrow hid'
          exact Or.inl hrow'
        · exact Or.inr ⟨hrow, hid⟩
  · rw [← List.mem_map, hids.mem_iff]
    constructor
    · intro hkey
      obtain ⟨row, hget⟩ := OrdMap.mem_keys.mp hkey
      exact (h.entries id row hget).2.2
    · exact h.all id

/-- **What the code selects is what is reached.** -/
theorem assemble_reached (t : Tables) (order : Arrangements) (task : TaskRow) (taskPackage : TaskPackageRow)
    (localeCompare : Text → Text → Ordering) (input : AssembleManifestInput) :
    Meets t task taskPackage (Reached t task taskPackage) input
      (assembleFor t order task taskPackage localeCompare input) := by
  have hseeds := refuse_both (checkSeeds t order task taskPackage input) rfl
  have hrecords := refuse_both (checkRecords t order task taskPackage) rfl
  unfold assembleFor
  rcases hcheck : checkSeeds t order task taskPackage input with e | u
  · refine ⟨Option.some_ne_none _, fun e' he => ?_, fun manifest hmanifest => (by cases hmanifest)⟩
    obtain rfl := Except.error.inj (Option.some.inj he)
    obtain ⟨hcode, hmissing⟩ := hseeds.1 e hcheck
    exact ⟨hcode, Or.inl (lacking_of_seeds (fun id h => .ancestor (.seed h)) hmissing)⟩
  · obtain ⟨hmissing, hexplicit⟩ := hseeds.2 u hcheck
    obtain ⟨hends, hrefused, hselected⟩ := selectPackages_spec hexplicit
    dsimp only
    rcases hselect : selectPackages t order task taskPackage with _ | (e | m)
    · exact absurd hselect hends
    · refine ⟨Option.some_ne_none _, fun e' he => ?_, fun manifest hmanifest => (by cases hmanifest)⟩
      obtain rfl := Except.error.inj (Option.some.inj he)
      obtain ⟨hcode, hlacking⟩ := hrefused e hselect
      exact ⟨hcode, Or.inl hlacking⟩
    · have hm := hselected m hselect
      rcases hlast : checkRecords t order task taskPackage with e | u
      · refine ⟨Option.some_ne_none _, fun e' he => ?_, fun manifest hmanifest => (by cases hmanifest)⟩
        obtain rfl := Except.error.inj (Option.some.inj he)
        obtain ⟨hcode, hunrecorded⟩ := hrecords.1 e hlast
        exact ⟨hcode, Or.inr (unrecorded_iff.mpr hunrecorded)⟩
      · refine ⟨Option.some_ne_none _, fun e he => (by cases he), fun manifest hmanifest => ?_⟩
        obtain rfl := Except.ok.inj (Option.some.inj hmanifest)
        obtain ⟨hcontracts, hdecisions⟩ := hrecords.2 u hlast
        refine ⟨hm.not_lacking hmissing, fun hunrecorded => ?_, _, _, hm.selects⟩
        rcases unrecorded_iff.mp hunrecorded with h | h
        · exact h hcontracts
        · exact h hdecisions

end

/-! ### What is reached, and what is to be included -/

section

variable {t : Tables} {task : TaskRow} {taskPackage : TaskPackageRow}

theorem Ancestor.included {id : Text} (h : Ancestor t task taskPackage id) : Included t task taskPackage id := by
  induction h with
  | seed h => exact .seed h
  | parent _ h ih => exact .parent ih h

theorem Reached.included {id : Text} (h : Reached t task taskPackage id) : Included t task taskPackage id := by
  induction h with
  | ancestor h => exact h.included
  | dependency active _ h ih => exact .dependency active ih h

/-- Where the parents of what is reached are reached, nothing else is to be included. -/
theorem Included.reached
    (hparents : ∀ id parent_id, Reached t task taskPackage id → Parent t id parent_id → Reached t task taskPackage parent_id)
    {id : Text} (h : Included t task taskPackage id) : Reached t task taskPackage id := by
  induction h with
  | seed h => exact .ancestor (.seed h)
  | parent _ h ih => exact hparents _ _ ih h
  | dependency active _ h ih => exact .dependency active ih h

theorem Lacking.mono {Member Member' : Text → Prop} (hmember : ∀ id, Member id → Member' id)
    (h : Lacking t task taskPackage Member) : Lacking t task taskPackage Member' := by
  cases h with
  | project h => exact .project h
  | phase h => exact .phase h
  | inactive member h => exact .inactive (hmember _ member) h
  | stale active member pins h => exact .stale active (hmember _ member) pins h

end

/-- **The manifest** is what it is to be exactly when it is refused for what is reached, or the parent of every package that
is reached is reached. -/
theorem manifest_iff (t : Tables) (order : Arrangements) (localeCompare : Text → Text → Ordering)
    (input : AssembleManifestInput) {task : TaskRow} {taskPackage : TaskPackageRow}
    (htask : (t.tasks.find? fun task => task.id = input.task_id) = some task)
    (hpackage : (t.taskPackages.find? fun row => row.task_id = input.task_id ∧ row.approved) = some taskPackage) :
    Meets t task taskPackage (Included t task taskPackage) input (assembleManifest t order localeCompare input) ↔
      (¬ Lacking t task taskPackage (Reached t task taskPackage) → ¬ Unrecorded t task taskPackage →
        ∀ id parent_id, Reached t task taskPackage id → Parent t id parent_id → Reached t task taskPackage parent_id) := by
  have hresult : assembleManifest t order localeCompare input =
      assembleFor t order task taskPackage localeCompare input := by
    unfold assembleManifest
    rw [htask]
    dsimp only
    rw [hpackage]
  obtain ⟨hends, hrefused, hselected⟩ := assemble_reached t order task taskPackage localeCompare input
  rw [hresult]
  rcases hrun : assembleFor t order task taskPackage localeCompare input with _ | (e | manifest)
  · exact absurd hrun hends
  · -- a refusal for what is reached is one for what is to be included
    obtain ⟨hcode, hwhy⟩ := hrefused e hrun
    refine iff_of_true ⟨Option.some_ne_none _, fun e' he => ?_, fun manifest hmanifest => (by cases hmanifest)⟩ ?_
    · obtain rfl := Except.error.inj (Option.some.inj he)
      exact ⟨hcode, hwhy.imp_left fun h => h.mono fun _ hid => hid.included⟩
    · intro hlacking hunrecorded
      exact absurd hwhy (not_or.mpr ⟨hlacking, hunrecorded⟩)
  · obtain ⟨hlacking, hunrecorded, included, excluded, hselects⟩ := hselected manifest hrun
    constructor
    · rintro ⟨-, -, hmeets⟩ - -
      obtain ⟨-, -, included', excluded', hselects'⟩ := hmeets manifest rfl
      have hsame : ∀ id, Included t task taskPackage id → Reached t task taskPackage id := by
        intro id hid
        have hrefs : included'.map packageRefFromRow = included.map packageRefFromRow :=
          hselects'.packages.symm.trans hselects.packages
        have hids : (included'.map fun row => row.package_id) = included.map fun row => row.package_id := by
          have hmap := congrArg (List.map V2KnowledgePackageVersionRef.package_id) hrefs
          rw [List.map_map, List.map_map] at hmap
          exact hmap
        have hmem := (hselects'.members id).mpr hid
        rw [← List.mem_map, hids, List.mem_map] at hmem
        exact (hselects.members id).mp hmem
      exact fun id parent_id hid hparent => hsame parent_id (hid.included.parent hparent)
    · intro hcond
      have hparents := hcond hlacking hunrecorded
      have hiff : ∀ id, Included t task taskPackage id ↔ Reached t task taskPackage id :=
        fun id => ⟨fun h => h.reached hparents, fun h => h.included⟩
      refine ⟨Option.some_ne_none _, fun e he => (by cases he), fun manifest' hmanifest => ?_⟩
      obtain rfl := Except.ok.inj (Option.some.inj hmanifest)
      refine ⟨fun h => hlacking (h.mono fun id hid => (hiff id).mp hid), hunrecorded, included, excluded, ?_⟩
      exact ⟨hselects.packages, hselects.exclusions, hselects.partition, hselects.once,
        fun id => (hselects.members id).trans (hiff id).symm⟩

/-! ### A project -/

def samplePackage (id : String) (package_type : V2KnowledgePackageType) (scope_kind : KnowledgeScopeKind)
    (parent_package_id : Option Text) : PackageRow :=
  ⟨units id, units "project", units id, package_type, scope_kind, units (if scope_kind = .phase then "phase" else "project"),
    parent_package_id⟩

def sampleVersion (id : String) : PackageVersionRow :=
  ⟨units ("version of " ++ id), units "project", units id, units "1.0.0", .active, units "hash", []⟩

/-- The version of the project package pins one of a domain package, which may have a parent. -/
def sample (child : Bool) : Tables where
  tasks := [⟨units "task", units "project", units "phase"⟩]
  taskPackages := [⟨units "package", units "task", true, [], [], []⟩]
  packages := [samplePackage "whole" .project .project none, samplePackage "part" .phase .phase none,
    samplePackage "domain" .domain .domain (if child then some (units "above") else none),
    samplePackage "above" .domain .domain none]
  versions := [sampleVersion "whole", sampleVersion "part", sampleVersion "domain", sampleVersion "above"]
  dependencies := [⟨units "version of whole", units "version of domain"⟩]
  contracts := []
  decisions := []
  package_ids := by cases child <;> decide
  version_ids := by decide
  one_active := by decide
  version_package := by cases child <;> decide
  parent_named := by cases child <;> decide
  dependency_project := by decide

def sampleOrder : Arrangements := ⟨⟨id, fun _ => .refl _⟩, ⟨id, fun _ => .refl _⟩, ⟨id, fun _ => .refl _⟩⟩

def sampleCompare (s u : Text) : Ordering := if s = u then .eq else if unitsLe s u then .lt else .gt

def sampleTask : TaskRow := ⟨units "task", units "project", units "phase"⟩

def sampleTaskPackage : TaskPackageRow := ⟨units "package", units "task", true, [], [], []⟩

theorem manifest_of_sample : Meets (sample false) sampleTask sampleTaskPackage
    (Included (sample false) sampleTask sampleTaskPackage) ⟨units "task", []⟩
      (assembleManifest (sample false) sampleOrder sampleCompare ⟨units "task", []⟩) := by
  refine (manifest_iff (sample false) sampleOrder sampleCompare ⟨units "task", []⟩ rfl rfl).mpr ?_
  rintro - - id parent_id - ⟨package, hpackage, -, hparent⟩
  have hnone : ∀ package ∈ (sample false).packages, package.parent_package_id = none := by decide
  rw [hnone package hpackage] at hparent
  cases hparent

/-- The rows of the project package and of what it depends on. -/
def sampleWhole : PackageRefRow := joinRow (sampleVersion "whole") (samplePackage "whole" .project .project none)

def sampleDomain : PackageRefRow :=
  joinRow (sampleVersion "domain") (samplePackage "domain" .domain .domain (some (units "above")))

theorem sample_included : Included (sample true) sampleTask sampleTaskPackage (units "above") := by
  have hwhole : sampleWhole ∈ (sample true).joined :=
    Tables.mem_joined.mpr ⟨_, List.mem_cons_self, _, List.mem_cons_self, rfl, rfl⟩
  have hdomain : sampleDomain ∈ (sample true).joined :=
    Tables.mem_joined.mpr ⟨sampleVersion "domain", List.mem_cons_of_mem _ (List.mem_cons_of_mem _ List.mem_cons_self),
      samplePackage "domain" .domain .domain (some (units "above")),
      List.mem_cons_of_mem _ (List.mem_cons_of_mem _ List.mem_cons_self), rfl, rfl⟩
  have hactive : Active (sample true) sampleTask sampleWhole := ⟨hwhole, rfl, rfl⟩
  have hmember : Included (sample true) sampleTask sampleTaskPackage sampleWhole.package_id :=
    .seed (.mandatory hactive rfl)
  have hpins : Pins (sample true) sampleWhole sampleDomain := ⟨hdomain, _, List.mem_cons_self, rfl, rfl⟩
  refine .parent (.dependency hactive hmember hpins) ?_
  exact ⟨_, List.mem_cons_of_mem _ (List.mem_cons_of_mem _ List.mem_cons_self), rfl, rfl⟩

/-- The parent of a package that came in by a dependency is left out. -/
theorem parent_left_out :
    ((assembleManifest (sample true) sampleOrder sampleCompare ⟨units "task", []⟩).map fun result =>
      result.toOption.map fun manifest => manifest.included_packages.map V2KnowledgePackageVersionRef.package_id) =
        some (some [units "domain", units "part", units "whole"]) ∧
      Included (sample true) sampleTask sampleTaskPackage (units "above") ∧
      ¬ Meets (sample true) sampleTask sampleTaskPackage (Included (sample true) sampleTask sampleTaskPackage)
        ⟨units "task", []⟩ (assembleManifest (sample true) sampleOrder sampleCompare ⟨units "task", []⟩) := by
  have hids : ((assembleManifest (sample true) sampleOrder sampleCompare ⟨units "task", []⟩).map fun result =>
      result.toOption.map fun manifest => manifest.included_packages.map V2KnowledgePackageVersionRef.package_id) =
        some (some [units "domain", units "part", units "whole"]) := by decide
  refine ⟨hids, sample_included, fun hmeets => ?_⟩
  rcases hrun : assembleManifest (sample true) sampleOrder sampleCompare ⟨units "task", []⟩ with _ | (e | manifest)
  · exact hmeets.ends hrun
  · rw [hrun] at hids
    cases hids
  · rw [hrun] at hids
    have hmanifest : manifest.included_packages.map V2KnowledgePackageVersionRef.package_id =
        [units "domain", units "part", units "whole"] := Option.some.inj (Option.some.inj hids)
    obtain ⟨-, -, included, excluded, hselects⟩ := hmeets.selected manifest hrun
    obtain ⟨row, hrow, hid⟩ := (hselects.members _).mpr sample_included
    have hmem : units "above" ∈ manifest.included_packages.map V2KnowledgePackageVersionRef.package_id := by
      rw [hselects.packages, List.map_map]
      exact List.mem_map.mpr ⟨row, hrow, hid⟩
    rw [hmanifest] at hmem
    exact absurd hmem (by decide)

end Norns.Knowledge.Manifest
