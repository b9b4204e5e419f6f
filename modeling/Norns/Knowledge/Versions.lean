import Norns.Lib.Cycle
import Norns.Lib.OrdMap
import Norns.Lib.Run
import Norns.Lib.Transaction

/-! # Versions of knowledge

The version half of `knowledge/service.ts`: `createPackageVersion`, `transitionPackageVersion` and their
near-copies for interface contracts. Both transitions are `transitionVersion` with the rules of their
service; a check of a table and the schema of the answer abort the transaction alike.

* `transition_ok`: what a transition writes;
* `Lifecycle`: one active version, links that are inverse and acyclic;
* `Provenance`: who approved a version, and when. -/

namespace Norns.Knowledge

open Norns.Lib Norns.Lib.Run Norns.Lib.Transaction Relation

inductive V2ActorType
  | human | coordinator | agent | runner | system | legacy
  deriving DecidableEq, Repr

structure V2Actor where
  actor_type : V2ActorType
  actor_id : Option String
  deriving DecidableEq

inductive V2KnowledgeLifecycleStatus
  | draft | under_review | approved | active | superseded | archived
  deriving DecidableEq, Repr

structure VersionRow where
  project_id : String
  /-- `package_id` or `contract_id` -/
  container_id : String
  version : String
  status : V2KnowledgeLifecycleStatus
  created_by_actor_type : V2ActorType
  created_by_actor_id : Option String
  approved_by_actor_type : Option V2ActorType := none
  approved_by_actor_id : Option String := none
  approved_at : Option String := none
  supersedes_version_id : Option String := none
  superseded_by_version_id : Option String := none
  created_at : String
  updated_at : String
  deriving DecidableEq

/-- What the audit says was done to a version. -/
inductive AuditAction
  | created
  | moved (to_ : V2KnowledgeLifecycleStatus)
  deriving DecidableEq

structure AuditRow where
  actor : V2Actor
  action : AuditAction
  subject_id : String
  occurred_at : String
  deriving DecidableEq

structure Db where
  /-- The packages or contracts, with their projects. -/
  containers : OrdMap String String
  versions : OrdMap String VersionRow := .empty
  audit_log : List AuditRow := []

inductive KnowledgeError
  | not_found
  | scope_mismatch
  | invalid_transition (status to_ : V2KnowledgeLifecycleStatus)
  /-- A constraint of the table, or the schema of the answer. -/
  | rejected
  deriving DecidableEq

structure CreateVersionInput where
  id : String
  project_id : String
  container_id : String
  version : String
  actor : V2Actor
  created_at : String
  deriving DecidableEq

structure TransitionInput where
  version_id : String
  to_ : V2KnowledgeLifecycleStatus
  actor : V2Actor
  transitioned_at : String
  deriving DecidableEq

/-- `V2Actor`: a human has an id. -/
def attributable (actor_type : V2ActorType) (actor_id : Option String) : Prop :=
  actor_type = .human → actor_id.isSome = true

instance (actor_type : V2ActorType) (actor_id : Option String) :
    Decidable (attributable actor_type actor_id) :=
  inferInstanceAs (Decidable (_ → _))

/-- What the schemas of both answers ask. -/
def VersionRow.answerable (row : VersionRow) : Prop :=
  attributable row.created_by_actor_type row.created_by_actor_id ∧
    ∀ actor_type ∈ row.approved_by_actor_type, attributable actor_type row.approved_by_actor_id

instance (row : VersionRow) : Decidable row.answerable := inferInstanceAs (Decidable (_ ∧ _))

/-- `status IN ('draft','under_review')` -/
def V2KnowledgeLifecycleStatus.unapproved (status : V2KnowledgeLifecycleStatus) : Prop :=
  status = .draft ∨ status = .under_review

instance (status : V2KnowledgeLifecycleStatus) : Decidable status.unapproved :=
  inferInstanceAs (Decidable (_ ∨ _))

/-- The approval check of both tables. -/
def VersionRow.approvalCheck (row : VersionRow) : Prop :=
  row.status.unapproved ∨ (row.approved_by_actor_type.isSome = true ∧
    row.approved_by_actor_id.isSome = true ∧ row.approved_at.isSome = true)

instance (row : VersionRow) : Decidable row.approvalCheck := inferInstanceAs (Decidable (_ ∨ _))

/-- Another version of the same container has the status. -/
def Db.taken (db : Db) (id : String) (row : VersionRow) (status : V2KnowledgeLifecycleStatus) : Prop :=
  ∃ entry ∈ db.versions.entries, entry.1 ≠ id ∧ entry.2.container_id = row.container_id ∧
    entry.2.status = status

instance (db : Db) (id : String) (row : VersionRow) (status : V2KnowledgeLifecycleStatus) :
    Decidable (db.taken id row status) :=
  inferInstanceAs (Decidable (∃ entry ∈ db.versions.entries, _))

/-- The two partial indexes and the approval check let the row be written. -/
def Db.writable (db : Db) (id : String) (row : VersionRow) : Prop :=
  row.approvalCheck ∧ (row.status = .active → ¬ db.taken id row .active) ∧
    (row.status = .approved → ¬ db.taken id row .approved)

instance (db : Db) (id : String) (row : VersionRow) : Decidable (db.writable id row) :=
  inferInstanceAs (Decidable (_ ∧ _))

def Db.write (db : Db) (id : String) (row : VersionRow) : Db :=
  { db with versions := db.versions.set id row }

def Db.audit (db : Db) (row : AuditRow) : Db := { db with audit_log := db.audit_log ++ [row] }

/-- `allowed` -/
def allowed : V2KnowledgeLifecycleStatus → List V2KnowledgeLifecycleStatus
  | .draft => [.under_review]
  | .under_review => [.approved]
  | .approved => [.active]
  | .active => [.archived]
  | .superseded => []
  | .archived => []

/-- The active version of a container. -/
def Db.activeOf (db : Db) (container_id : String) : Option (String × VersionRow) :=
  db.versions.entries.find? fun entry =>
    entry.2.container_id = container_id ∧ entry.2.status = .active

/-- What distinguishes a service: the approval it offers with a transition, and the checks of its table
that the other one lacks. -/
structure Rules where
  approval : V2KnowledgeLifecycleStatus → V2Actor → Option V2ActorType × Option String
  checks : VersionRow → Bool

def packageRules : Rules where
  approval to_ actor :=
    if to_ = .approved ∨ to_ = .active ∨ to_ = .archived then (some actor.actor_type, actor.actor_id)
    else (none, none)
  checks row :=
    decide (attributable row.created_by_actor_type row.created_by_actor_id) &&
      (row.status ≠ .superseded || row.superseded_by_version_id.isSome) &&
      -- the schema of a package version
      (row.status.unapproved || (row.approved_by_actor_type.isSome && row.approved_at.isSome))

def contractRules : Rules where
  approval _ actor := (some actor.actor_type, actor.actor_id)
  checks _ := true

/-- The row of the version before. -/
def VersionRow.retired (row : VersionRow) (successor at_ : String) : VersionRow :=
  { row with status := .superseded, superseded_by_version_id := some successor, updated_at := at_ }

/-- The row after a transition. -/
def VersionRow.moved (row : VersionRow) (rules : Rules) (input : TransitionInput)
    (supersedes : Option String) : VersionRow :=
  let approval := rules.approval input.to_ input.actor
  { row with
    status := input.to_
    approved_by_actor_type := row.approved_by_actor_type <|> approval.1
    approved_by_actor_id := row.approved_by_actor_id <|> approval.2
    approved_at := row.approved_at <|> some input.transitioned_at
    supersedes_version_id := supersedes
    updated_at := input.transitioned_at }

/-- A version that becomes active supersedes the one before. -/
def supersede (rules : Rules) (db : Db) (row : VersionRow) (input : TransitionInput) :
    Except KnowledgeError (Db × Option String) :=
  if input.to_ = .active then
    match db.activeOf row.container_id with
    | none => .ok (db, row.supersedes_version_id)
    | some (previousId, previous) => do
      let previous := previous.retired input.version_id input.transitioned_at
      refuse (¬ (db.writable previousId previous ∧ rules.checks previous = true)) .rejected
      return (db.write previousId previous, some previousId)
  else .ok (db, row.supersedes_version_id)

def transitionVersion (rules : Rules) (db : Db) (input : TransitionInput) :
    Except KnowledgeError (VersionRow × Db) :=
  match db.versions.get? input.version_id with
  | none => .error .not_found
  | some row => do
    refuse (input.to_ ∉ allowed row.status) (.invalid_transition row.status input.to_)
    let (db, supersedes) ← supersede rules db row input
    let row := row.moved rules input supersedes
    refuse (¬ (db.writable input.version_id row ∧ rules.checks row = true)) .rejected
    refuse (¬ row.answerable) .rejected
    return (row, (db.write input.version_id row).audit
      ⟨input.actor, .moved input.to_, input.version_id, input.transitioned_at⟩)

def transitionPackageVersion := transitionVersion packageRules

def transitionInterfaceContractVersion := transitionVersion contractRules

/-- The row of a new version. -/
def CreateVersionInput.row (input : CreateVersionInput) (project_id : String) : VersionRow where
  project_id := project_id
  container_id := input.container_id
  version := input.version
  status := .draft
  created_by_actor_type := input.actor.actor_type
  created_by_actor_id := input.actor.actor_id
  created_at := input.created_at
  updated_at := input.created_at

/-- A draft is inserted. Left out is what else aborts the call: the format of the version (a CHECK of the
table), the schema of the content, and dependencies that are missing; with these, the rows of the
dependencies. -/
def insertVersion (rules : Rules) (db : Db) (input : CreateVersionInput) (project_id : String) :
    Except KnowledgeError (VersionRow × Db) := do
  let row := input.row project_id
  refuse (db.versions.has input.id = true) .rejected
  refuse (∃ entry ∈ db.versions.entries, entry.2.container_id = input.container_id ∧
    entry.2.version = input.version) .rejected
  refuse (¬ (db.writable input.id row ∧ rules.checks row = true)) .rejected
  refuse (¬ row.answerable) .rejected
  return (row, (db.write input.id row).audit ⟨input.actor, .created, input.id, input.created_at⟩)

def createPackageVersion (db : Db) (input : CreateVersionInput) :
    Except KnowledgeError (VersionRow × Db) :=
  match db.containers.get? input.container_id with
  | none => .error .not_found
  | some project_id => insertVersion packageRules db input project_id

/-- The container is created unless it is there: `ON CONFLICT (id) DO NOTHING`. -/
def Db.contain (db : Db) (container_id project_id : String) : Db :=
  if db.containers.has container_id then db
  else { db with containers := db.containers.set container_id project_id }

@[simp] theorem Db.contain_versions (db : Db) (container_id project_id : String) :
    (db.contain container_id project_id).versions = db.versions := by
  unfold Db.contain
  split_ifs <;> rfl

@[simp] theorem Db.contain_audit_log (db : Db) (container_id project_id : String) :
    (db.contain container_id project_id).audit_log = db.audit_log := by
  unfold Db.contain
  split_ifs <;> rfl

def createInterfaceContractVersion (db : Db) (input : CreateVersionInput) :
    Except KnowledgeError (VersionRow × Db) := do
  let db := db.contain input.container_id input.project_id
  refuse (db.containers.get? input.container_id ≠ some input.project_id) .scope_mismatch
  insertVersion contractRules db input input.project_id

inductive Service
  | packages | contracts
  deriving DecidableEq, Repr

inductive Call
  | create (input : CreateVersionInput)
  | transition (input : TransitionInput)
  deriving DecidableEq

def Service.rules : Service → Rules
  | .packages => packageRules
  | .contracts => contractRules

def perform : Service → Db → Call → Except KnowledgeError (VersionRow × Db)
  | .packages, db, .create input => createPackageVersion db input
  | .packages, db, .transition input => transitionPackageVersion db input
  | .contracts, db, .create input => createInterfaceContractVersion db input
  | .contracts, db, .transition input => transitionInterfaceContractVersion db input

/-- A call in a transaction of its own. -/
def step (service : Service) (db : Db) (call : Call) : Db :=
  match perform service db call with
  | .error _ => db
  | .ok (_, db') => db'

/-! ### What a call writes -/

section

variable {rules : Rules} {db db' : Db} {row row' : VersionRow}

theorem activeOf_none {container_id : String} (h : db.activeOf container_id = none) {id : String}
    (hrow : db.versions.get? id = some row) (hcontainer : row.container_id = container_id) :
    row.status ≠ .active := by
  unfold Db.activeOf at h
  have hnot := List.find?_eq_none.mp h (id, row) (OrdMap.mem_entries.mpr hrow)
  intro hactive
  exact hnot (by simp [hcontainer, hactive])

theorem activeOf_some {container_id : String} {entry : String × VersionRow}
    (h : db.activeOf container_id = some entry) : db.versions.get? entry.1 = some entry.2 ∧
      entry.2.container_id = container_id ∧ entry.2.status = .active := by
  unfold Db.activeOf at h
  have hfound := List.find?_some h
  simp only [decide_eq_true_eq] at hfound
  exact ⟨OrdMap.mem_entries.mp (List.mem_of_find?_eq_some h), hfound⟩

/-- What a transition writes: the row alone, or the active row of its container as well. -/
inductive Writes (rules : Rules) (db : Db) (input : TransitionInput) (row : VersionRow) :
    VersionRow → OrdMap String VersionRow → Prop
  | plain (hactive : input.to_ = .active → ∀ id other, db.versions.get? id = some other →
        other.container_id = row.container_id → other.status ≠ .active) :
      Writes rules db input row (row.moved rules input row.supersedes_version_id)
        (db.versions.set input.version_id (row.moved rules input row.supersedes_version_id))
  | superseding (previousId : String) (previous : VersionRow) (hto : input.to_ = .active)
      (hprevious : db.versions.get? previousId = some previous)
      (hcontainer : previous.container_id = row.container_id) (hactive : previous.status = .active) :
      Writes rules db input row (row.moved rules input (some previousId))
        ((db.versions.set previousId (previous.retired input.version_id input.transitioned_at)).set
          input.version_id (row.moved rules input (some previousId)))

theorem Writes.eq_moved {input : TransitionInput} {versions' : OrdMap String VersionRow}
    (h : Writes rules db input row row' versions') :
    ∃ supersedes, row' = row.moved rules input supersedes := by
  cases h with
  | plain _ => exact ⟨_, rfl⟩
  | superseding _ _ _ _ _ _ => exact ⟨_, rfl⟩

/-- **What a transition does**, of any service. -/
theorem transition_ok {input : TransitionInput}
    (h : transitionVersion rules db input = .ok (row', db')) :
    ∃ row, db.versions.get? input.version_id = some row ∧ input.to_ ∈ allowed row.status ∧
      Writes rules db input row row' db'.versions ∧ row'.approvalCheck ∧ row'.answerable ∧
      db'.containers = db.containers ∧ db'.audit_log = db.audit_log ++
        [⟨input.actor, .moved input.to_, input.version_id, input.transitioned_at⟩] := by
  unfold transitionVersion at h
  cases hrow : db.versions.get? input.version_id with
  | none =>
    rw [hrow] at h
    cases h
  | some row =>
    rw [hrow] at h
    dsimp only at h
    rw [refuse_bind_ok] at h
    obtain ⟨hallowed, h⟩ := h
    obtain ⟨⟨mid, supersedes⟩, hmid, h⟩ := bind_eq_ok.mp h
    dsimp only at h
    rw [refuse_bind_ok, refuse_bind_ok] at h
    obtain ⟨hchecks, hanswerable, h⟩ := h
    cases h
    rw [not_not] at hallowed hchecks hanswerable
    refine ⟨row, rfl, hallowed, ?_, hchecks.1.1, hanswerable, ?_⟩
    · unfold supersede at hmid
      split_ifs at hmid with hto
      · cases hactive : db.activeOf row.container_id with
        | none =>
          rw [hactive] at hmid
          cases hmid
          exact .plain fun _ id other hother hcontainer => activeOf_none hactive hother hcontainer
        | some entry =>
          rw [hactive] at hmid
          obtain ⟨previousId, previous⟩ := entry
          dsimp only at hmid
          rw [refuse_bind_ok] at hmid
          obtain ⟨-, hmid⟩ := hmid
          cases hmid
          obtain ⟨hprevious, hcontainer, hstatus⟩ := activeOf_some hactive
          exact .superseding previousId previous hto hprevious hcontainer hstatus
      · cases hmid
        exact .plain fun hactive => absurd hactive hto
    · have hmid : mid.containers = db.containers ∧ mid.audit_log = db.audit_log := by
        unfold supersede at hmid
        split_ifs at hmid
        · cases hactive : db.activeOf row.container_id with
          | none =>
            rw [hactive] at hmid
            cases hmid
            exact ⟨rfl, rfl⟩
          | some entry =>
            rw [hactive] at hmid
            dsimp only at hmid
            rw [refuse_bind_ok] at hmid
            cases hmid.2
            exact ⟨rfl, rfl⟩
        · cases hmid
          exact ⟨rfl, rfl⟩
      refine ⟨hmid.1, ?_⟩
      rw [← hmid.2]
      rfl

/-- What a creation does, of either service. -/
theorem insert_ok {input : CreateVersionInput} {project_id : String}
    (h : insertVersion rules db input project_id = .ok (row', db')) :
    db.versions.get? input.id = none ∧ row' = input.row project_id ∧ row'.answerable ∧
      db' = (db.write input.id row').audit ⟨input.actor, .created, input.id, input.created_at⟩ := by
  unfold insertVersion at h
  dsimp only at h
  rw [refuse_bind_ok, refuse_bind_ok, refuse_bind_ok, refuse_bind_ok] at h
  obtain ⟨hfresh, -, -, hanswerable, h⟩ := h
  cases h
  refine ⟨?_, rfl, not_not.mp hanswerable, rfl⟩
  unfold OrdMap.has at hfresh
  simpa using hfresh

end

/-! ### The lifecycle -/

def Supersedes (versions : OrdMap String VersionRow) (id id' : String) : Prop :=
  ∃ row ∈ versions.get? id, row.supersedes_version_id = some id'

def SupersededBy (versions : OrdMap String VersionRow) (id id' : String) : Prop :=
  ∃ row ∈ versions.get? id, row.superseded_by_version_id = some id'

structure Lifecycle (versions : OrdMap String VersionRow) : Prop where
  oneActive : ∀ id id' row row', versions.get? id = some row → versions.get? id' = some row' →
    row.status = .active → row'.status = .active → row.container_id = row'.container_id → id = id'
  inverse : ∀ id id', Supersedes versions id id' ↔ SupersededBy versions id' id
  acyclic : ∀ id, ¬ TransGen (Supersedes versions) id id

/-- What a row shows of its past. -/
structure VersionRow.Shaped (row : VersionRow) : Prop where
  fresh : row.status = .draft → row.approved_by_actor_type = none ∧ row.approved_by_actor_id = none ∧
    row.approved_at = none
  dated : row.status ≠ .draft → row.approved_at.isSome = true
  approval : row.approvalCheck
  creator : attributable row.created_by_actor_type row.created_by_actor_id
  predecessor : row.supersedes_version_id.isSome = true →
    row.status = .active ∨ row.status = .superseded ∨ row.status = .archived
  successor : row.superseded_by_version_id.isSome = true → row.status = .superseded

def Shaped (versions : OrdMap String VersionRow) : Prop :=
  ∀ id row, versions.get? id = some row → row.Shaped

section

variable {rules : Rules} {versions : OrdMap String VersionRow} {id : String}
  {row row' : VersionRow}

theorem supersedes_set (hold : ∀ id', row'.supersedes_version_id = some id' ↔ Supersedes versions id id')
    (a b : String) : Supersedes (versions.set id row') a b ↔ Supersedes versions a b := by
  by_cases ha : a = id
  · subst ha
    rw [← hold b]
    unfold Supersedes
    rw [OrdMap.get?_set_self]
    simp
  · unfold Supersedes
    rw [OrdMap.get?_set_ne _ _ (Ne.symm ha)]

theorem supersededBy_set
    (hold : ∀ id', row'.superseded_by_version_id = some id' ↔ SupersededBy versions id id')
    (a b : String) : SupersededBy (versions.set id row') a b ↔ SupersededBy versions a b := by
  by_cases ha : a = id
  · subst ha
    rw [← hold b]
    unfold SupersededBy
    rw [OrdMap.get?_set_self]
    simp
  · unfold SupersededBy
    rw [OrdMap.get?_set_ne _ _ (Ne.symm ha)]

theorem supersedes_iff (hrow : versions.get? id = some row) (id' : String) :
    Supersedes versions id id' ↔ row.supersedes_version_id = some id' := by
  unfold Supersedes
  rw [hrow]
  simp

theorem supersededBy_iff (hrow : versions.get? id = some row) (id' : String) :
    SupersededBy versions id id' ↔ row.superseded_by_version_id = some id' := by
  unfold SupersededBy
  rw [hrow]
  simp

/-- A row that keeps its links, and is not a second active one. -/
theorem Lifecycle.set (h : Lifecycle versions)
    (hsupersedes : ∀ id', row'.supersedes_version_id = some id' ↔ Supersedes versions id id')
    (hsuperseded : ∀ id', row'.superseded_by_version_id = some id' ↔ SupersededBy versions id id')
    (hactive : row'.status = .active → ∀ id' other, id' ≠ id → versions.get? id' = some other →
      other.container_id = row'.container_id → other.status ≠ .active) :
    Lifecycle (versions.set id row') := by
  constructor
  · intro a b rowA rowB ha hb hactiveA hactiveB hcontainer
    rw [OrdMap.get?_set] at ha hb
    by_contra hne
    split_ifs at ha hb with hida hidb hidb
    · exact hne (hida.symm.trans hidb)
    · cases ha
      exact hactive hactiveA b rowB (fun he => hidb he.symm) hb hcontainer.symm hactiveB
    · cases hb
      exact hactive hactiveB a rowA (fun he => hida he.symm) ha hcontainer hactiveA
    · exact hne (h.oneActive a b rowA rowB ha hb hactiveA hactiveB hcontainer)
  · intro a b
    rw [supersedes_set hsupersedes, supersededBy_set hsuperseded]
    exact h.inverse a b
  · have hsame : Supersedes (versions.set id row') = Supersedes versions := by
      funext a b
      exact propext (supersedes_set hsupersedes a b)
    rw [hsame]
    exact h.acyclic

theorem Shaped.set (h : Shaped versions) (hrow : row'.Shaped) : Shaped (versions.set id row') := by
  intro a rowA ha
  rw [OrdMap.get?_set] at ha
  split_ifs at ha
  · cases ha
    exact hrow
  · exact h a rowA ha

theorem mem_allowed {status to_ : V2KnowledgeLifecycleStatus} (h : to_ ∈ allowed status) :
    (status = .draft ∧ to_ = .under_review) ∨ (status = .under_review ∧ to_ = .approved) ∨
      (status = .approved ∧ to_ = .active) ∨ (status = .active ∧ to_ = .archived) := by
  cases status <;> cases to_ <;> simp_all [allowed]

theorem moved_shaped {input : TransitionInput} {supersedes : Option String} (h : row.Shaped)
    (hallowed : input.to_ ∈ allowed row.status)
    (hcheck : (row.moved rules input supersedes).approvalCheck)
    (hsupersedes : input.to_ = .active ∨ supersedes = row.supersedes_version_id) :
    (row.moved rules input supersedes).Shaped := by
  have hmoves := mem_allowed hallowed
  constructor
  · intro hdraft
    have hto : input.to_ = .draft := hdraft
    rcases hmoves with ⟨-, h'⟩ | ⟨-, h'⟩ | ⟨-, h'⟩ | ⟨-, h'⟩ <;> rw [h'] at hto <;> cases hto
  · intro _
    show (row.approved_at <|> some input.transitioned_at).isSome = true
    cases row.approved_at <;> rfl
  · exact hcheck
  · exact h.creator
  · intro hsome
    rcases hsupersedes with hactive | rfl
    · exact Or.inl hactive
    · show input.to_ = .active ∨ input.to_ = .superseded ∨ input.to_ = .archived
      have hpast := h.predecessor hsome
      rcases hmoves with ⟨h', -⟩ | ⟨h', -⟩ | ⟨-, h'⟩ | ⟨-, h'⟩
      · simp [h'] at hpast
      · simp [h'] at hpast
      · exact Or.inl h'
      · exact Or.inr (Or.inr h')
  · intro hsome
    have hpast := h.successor hsome
    rcases hmoves with ⟨h', -⟩ | ⟨h', -⟩ | ⟨h', -⟩ | ⟨h', -⟩ <;> rw [h'] at hpast <;> cases hpast

theorem retired_shaped (h : row.Shaped) (hactive : row.status = .active) (successor at_ : String) :
    (row.retired successor at_).Shaped := by
  constructor
  · intro hdraft
    cases hdraft
  · intro _
    exact h.dated (by rw [hactive]; decide)
  · rcases h.approval with hunapproved | hattributed
    · rw [hactive] at hunapproved
      rcases hunapproved with h' | h' <;> cases h'
    · exact Or.inr hattributed
  · exact h.creator
  · exact fun _ => Or.inr (Or.inl rfl)
  · exact fun _ => rfl

/-- The supersession: its two rows, written one after the other. -/
theorem Lifecycle.superseding {previousId : String} {previous : VersionRow} {input : TransitionInput}
    (h : Lifecycle versions) (hshaped : Shaped versions)
    (hrow : versions.get? input.version_id = some row) (hallowed : input.to_ ∈ allowed row.status)
    (hto : input.to_ = .active) (hprevious : versions.get? previousId = some previous)
    (hcontainer : previous.container_id = row.container_id) (hactive : previous.status = .active) :
    Lifecycle ((versions.set previousId (previous.retired input.version_id input.transitioned_at)).set
      input.version_id (row.moved rules input (some previousId))) := by
  have happroved : row.status = .approved := by
    rcases mem_allowed hallowed with ⟨-, h'⟩ | ⟨-, h'⟩ | ⟨h', -⟩ | ⟨-, h'⟩
    · rw [hto] at h'
      cases h'
    · rw [hto] at h'
      cases h'
    · exact h'
    · rw [hto] at h'
      cases h'
  have hne : previousId ≠ input.version_id := by
    rintro rfl
    rw [hrow] at hprevious
    cases hprevious
    rw [happroved] at hactive
    cases hactive
  have hnoOut : row.supersedes_version_id = none := by
    rw [← Option.not_isSome_iff_eq_none]
    intro hsome
    have hpast := (hshaped _ _ hrow).predecessor hsome
    simp [happroved] at hpast
  have hnoIn : row.superseded_by_version_id = none := by
    rw [← Option.not_isSome_iff_eq_none]
    intro hsome
    have hpast := (hshaped _ _ hrow).successor hsome
    simp [happroved] at hpast
  have hnoSuccessor : previous.superseded_by_version_id = none := by
    rw [← Option.not_isSome_iff_eq_none]
    intro hsome
    have hpast := (hshaped _ _ hprevious).successor hsome
    simp [hactive] at hpast
  have hget : ∀ a, ((versions.set previousId
      (previous.retired input.version_id input.transitioned_at)).set input.version_id
        (row.moved rules input (some previousId))).get? a =
      if input.version_id = a then some (row.moved rules input (some previousId))
      else if previousId = a then
        some (previous.retired input.version_id input.transitioned_at)
      else versions.get? a := by
    intro a
    rw [OrdMap.get?_set, OrdMap.get?_set]
  have hsupersedes : ∀ a b, Supersedes ((versions.set previousId
      (previous.retired input.version_id input.transitioned_at)).set input.version_id
        (row.moved rules input (some previousId))) a b ↔
      Supersedes versions a b ∨ (a = input.version_id ∧ b = previousId) := by
    intro a b
    unfold Supersedes
    rw [hget]
    split_ifs with ha hb
    · subst ha
      rw [hrow]
      simp [VersionRow.moved, hnoOut, eq_comm]
    · subst hb
      rw [hprevious]
      simp [VersionRow.retired, hne]
    · simp [Ne.symm ha]
  have hsuperseded : ∀ a b, SupersededBy ((versions.set previousId
      (previous.retired input.version_id input.transitioned_at)).set input.version_id
        (row.moved rules input (some previousId))) b a ↔
      SupersededBy versions b a ∨ (a = input.version_id ∧ b = previousId) := by
    intro a b
    unfold SupersededBy
    rw [hget]
    split_ifs with ha hb
    · subst ha
      rw [hrow]
      simp [VersionRow.moved, hnoIn, Ne.symm hne]
    · subst hb
      rw [hprevious]
      simp [VersionRow.retired, hnoSuccessor, eq_comm]
    · simp [Ne.symm hb]
  constructor
  · intro a b rowA rowB ha hb hactiveA hactiveB hsame
    rw [hget] at ha hb
    have hother : ∀ c rowC, input.version_id ≠ c → previousId ≠ c → versions.get? c = some rowC →
        rowC.container_id = row.container_id → rowC.status ≠ .active := by
      intro c rowC hc hc' hrowC hcontainerC hactiveC
      exact hc' (h.oneActive previousId c previous rowC hprevious hrowC hactive hactiveC
        (hcontainer.trans hcontainerC.symm))
    split_ifs at ha hb with ha1 hb1 hb2 ha2 hb1 hb2 hb1 hb2
    · exact ha1.symm.trans hb1
    · cases hb
      cases hactiveB
    · cases ha
      exact absurd hactiveB (hother b rowB hb1 hb2 hb hsame.symm)
    · cases ha
      cases hactiveA
    · cases ha
      cases hactiveA
    · cases ha
      cases hactiveA
    · cases hb
      exact absurd hactiveA (hother a rowA ha1 ha2 ha hsame)
    · cases hb
      cases hactiveB
    · exact h.oneActive a b rowA rowB ha hb hactiveA hactiveB hsame
  · intro a b
    rw [hsupersedes, hsuperseded, h.inverse]
  · refine Cycle.not_transGen_self_of_new_edge (fun a b hab => (hsupersedes a b).mp hab) ?_ hne
      h.acyclic
    intro a hin
    rw [h.inverse, supersededBy_iff hrow, hnoIn] at hin
    cases hin

theorem writes_kept {db : Db} {input : TransitionInput} {versions' : OrdMap String VersionRow}
    (h : Lifecycle db.versions) (hshaped : Shaped db.versions)
    (hrow : db.versions.get? input.version_id = some row) (hallowed : input.to_ ∈ allowed row.status)
    (hwrites : Writes rules db input row row' versions') (hcheck : row'.approvalCheck) :
    Lifecycle versions' ∧ Shaped versions' := by
  cases hwrites with
  | plain hactive =>
    constructor
    · refine h.set (fun id' => (supersedes_iff hrow id').symm) (fun id' => (supersededBy_iff hrow id').symm)
        ?_
      intro hto id' other _ hother hcontainer
      exact hactive hto id' other hother hcontainer
    · exact hshaped.set (moved_shaped (hshaped _ _ hrow) hallowed hcheck (Or.inr rfl))
  | superseding previousId previous hto hprevious hcontainer hactive =>
    constructor
    · exact h.superseding hshaped hrow hallowed hto hprevious hcontainer hactive
    · exact (hshaped.set (retired_shaped (hshaped _ _ hprevious) hactive _ _)).set
        (moved_shaped (hshaped _ _ hrow) hallowed hcheck (Or.inl hto))

theorem insert_kept {input : CreateVersionInput} {project_id : String} (h : Lifecycle versions)
    (hshaped : Shaped versions) (hfresh : versions.get? input.id = none)
    (hanswerable : (input.row project_id).answerable) :
    Lifecycle (versions.set input.id (input.row project_id)) ∧
      Shaped (versions.set input.id (input.row project_id)) := by
  constructor
  · refine h.set (fun id' => ?_) (fun id' => ?_) fun hactive => by cases hactive
    · unfold Supersedes
      rw [hfresh]
      simp [CreateVersionInput.row]
    · unfold SupersededBy
      rw [hfresh]
      simp [CreateVersionInput.row]
  · refine hshaped.set ?_
    constructor
    · exact fun _ => ⟨rfl, rfl, rfl⟩
    · exact fun h' => absurd rfl h'
    · exact Or.inl (Or.inl rfl)
    · exact hanswerable.1
    · intro hsome
      cases hsome
    · intro hsome
      cases hsome

end

/-! ### Calls of a service -/

/-- What a call that returns has done. -/
inductive Done (rules : Rules) (db : Db) : Call → VersionRow → Db → Prop
  | created (input : CreateVersionInput) (project_id : String) (db' : Db)
      (hfresh : db.versions.get? input.id = none)
      (hanswerable : (input.row project_id).answerable)
      (hversions : db'.versions = db.versions.set input.id (input.row project_id))
      (haudit : db'.audit_log = db.audit_log ++
        [⟨input.actor, .created, input.id, input.created_at⟩]) :
      Done rules db (.create input) (input.row project_id) db'
  | moved (input : TransitionInput) (row row' : VersionRow) (db' : Db)
      (hrow : db.versions.get? input.version_id = some row) (hallowed : input.to_ ∈ allowed row.status)
      (hwrites : Writes rules db input row row' db'.versions) (hcheck : row'.approvalCheck)
      (hanswerable : row'.answerable) (haudit : db'.audit_log = db.audit_log ++
        [⟨input.actor, .moved input.to_, input.version_id, input.transitioned_at⟩]) :
      Done rules db (.transition input) row' db'

section

variable {service : Service} {db db' : Db} {call : Call} {row : VersionRow}

/-- Both services create and move versions alike, up to their rules. -/
theorem perform_ok (h : perform service db call = .ok (row, db')) :
    Done service.rules db call row db' := by
  cases call with
  | create input =>
    cases service with
    | packages =>
      have hcreate : createPackageVersion db input = .ok (row, db') := h
      unfold createPackageVersion at hcreate
      cases hcontainer : db.containers.get? input.container_id with
      | none =>
        rw [hcontainer] at hcreate
        cases hcreate
      | some project_id =>
        rw [hcontainer] at hcreate
        obtain ⟨hfresh, rfl, hanswerable, rfl⟩ := insert_ok hcreate
        exact .created input project_id _ hfresh hanswerable rfl rfl
    | contracts =>
      have hcreate : createInterfaceContractVersion db input = .ok (row, db') := h
      unfold createInterfaceContractVersion at hcreate
      rw [refuse_bind_ok] at hcreate
      obtain ⟨hfresh, rfl, hanswerable, rfl⟩ := insert_ok hcreate.2
      rw [Db.contain_versions] at hfresh
      refine .created input input.project_id _ hfresh hanswerable ?_ ?_
      · rw [← Db.contain_versions db input.container_id input.project_id]
        rfl
      · rw [← Db.contain_audit_log db input.container_id input.project_id]
        rfl
  | transition input =>
    have htransition : transitionVersion service.rules db input = .ok (row, db') := by
      cases service <;> exact h
    obtain ⟨row, hrow, hallowed, hwrites, hcheck, hanswerable, -, haudit⟩ := transition_ok htransition
    exact .moved input row _ db' hrow hallowed hwrites hcheck hanswerable haudit

/-- A step either changes nothing or does what its call says. -/
theorem step_cases (service : Service) (db : Db) (call : Call) :
    step service db call = db ∨
      ∃ row, Done service.rules db call row (step service db call) := by
  unfold step
  cases hperform : perform service db call with
  | error error => exact Or.inl rfl
  | ok result =>
    obtain ⟨row, db'⟩ := result
    exact Or.inr ⟨row, perform_ok hperform⟩

/-- The lifecycle and the shape of the rows, of either service. -/
def Kept (db : Db) : Prop := Lifecycle db.versions ∧ Shaped db.versions

theorem step_kept (service : Service) (db : Db) (call : Call) (h : Kept db) :
    Kept (step service db call) := by
  rcases step_cases service db call with hsame | ⟨row, hdone⟩
  · rw [hsame]
    exact h
  · unfold Kept
    generalize step service db call = db' at hdone
    cases hdone with
    | created input project_id _ hfresh hanswerable hversions _ =>
      rw [hversions]
      exact insert_kept h.1 h.2 hfresh hanswerable
    | moved input row _ _ hrow hallowed hwrites hcheck _ _ =>
      exact writes_kept h.1 h.2 hrow hallowed hwrites hcheck

/-- A version moves along the lifecycle, or stays; a new one is a draft. -/
def Moves (versions versions' : OrdMap String VersionRow) : Prop :=
  (∀ id row, versions.get? id = some row → ∃ row', versions'.get? id = some row' ∧
    (row'.status = row.status ∨ row'.status ∈ allowed row.status ∨
      (row.status = .active ∧ row'.status = .superseded))) ∧
  ∀ id row', versions.get? id = none → versions'.get? id = some row' → row'.status = .draft

theorem moves_refl (versions : OrdMap String VersionRow) : Moves versions versions := by
  refine ⟨fun id row hrow => ⟨row, hrow, Or.inl rfl⟩, fun id row hnone hsome => ?_⟩
  rw [hnone] at hsome
  cases hsome

theorem step_moves (service : Service) (db : Db) (call : Call) :
    Moves db.versions (step service db call).versions := by
  rcases step_cases service db call with hsame | ⟨row, hdone⟩
  · rw [hsame]
    exact moves_refl _
  · generalize step service db call = db' at hdone
    cases hdone with
    | created input project_id _ hfresh hanswerable hversions _ =>
      rw [hversions]
      constructor
      · intro id row hrow
        have hne : input.id ≠ id := by
          rintro rfl
          rw [hfresh] at hrow
          cases hrow
        exact ⟨row, by rw [OrdMap.get?_set_ne _ _ hne]; exact hrow, Or.inl rfl⟩
      · intro id row hnone hsome
        rw [OrdMap.get?_set] at hsome
        split_ifs at hsome
        · cases hsome
          rfl
        · rw [hnone] at hsome
          cases hsome
    | moved input row _ _ hrow hallowed hwrites _ _ _ =>
      generalize db'.versions = versions' at hwrites
      cases hwrites with
      | plain hactive =>
        constructor
        · intro id other hother
          rw [OrdMap.get?_set]
          split_ifs with hid
          · subst hid
            rw [hrow] at hother
            cases hother
            exact ⟨_, rfl, Or.inr (Or.inl hallowed)⟩
          · exact ⟨other, hother, Or.inl rfl⟩
        · intro id other hnone hsome
          rw [OrdMap.get?_set] at hsome
          split_ifs at hsome with hid
          · subst hid
            rw [hrow] at hnone
            cases hnone
          · rw [hnone] at hsome
            cases hsome
      | superseding previousId previous hto hprevious hcontainer hactive =>
        constructor
        · intro id other hother
          rw [OrdMap.get?_set, OrdMap.get?_set]
          split_ifs with hid hid'
          · subst hid
            rw [hrow] at hother
            cases hother
            exact ⟨_, rfl, Or.inr (Or.inl hallowed)⟩
          · subst hid'
            rw [hprevious] at hother
            cases hother
            exact ⟨_, rfl, Or.inr (Or.inr ⟨hactive, rfl⟩)⟩
          · exact ⟨other, hother, Or.inl rfl⟩
        · intro id other hnone hsome
          rw [OrdMap.get?_set, OrdMap.get?_set] at hsome
          split_ifs at hsome with hid hid'
          · subst hid
            rw [hrow] at hnone
            cases hnone
          · subst hid'
            rw [hprevious] at hnone
            cases hnone
          · rw [hnone] at hsome
            cases hsome

/-! ### Who approved a version -/

/-- The approval columns of an approved version are the actor and the time of the audited transition;
those of a version before it are empty. -/
def Provenance (db : Db) : Prop := ∀ id row, db.versions.get? id = some row →
  (row.status.unapproved → row.approved_by_actor_type = none ∧ row.approved_by_actor_id = none ∧
    row.approved_at = none) ∧
  (¬ row.status.unapproved →
    (∃ entry ∈ db.audit_log, entry.subject_id = id ∧ entry.action = .moved .approved) ∧
    ∀ entry ∈ db.audit_log, entry.subject_id = id → entry.action = .moved .approved →
      row.approved_by_actor_type = some entry.actor.actor_type ∧
        row.approved_by_actor_id = entry.actor.actor_id ∧ row.approved_at = some entry.occurred_at)

/-- The two rows name the same approval. -/
def SameApproval (row row' : VersionRow) : Prop :=
  row'.approved_by_actor_type = row.approved_by_actor_type ∧
    row'.approved_by_actor_id = row.approved_by_actor_id ∧ row'.approved_at = row.approved_at

/-- The rows are as they were, or new drafts, and no approval is audited. -/
theorem Provenance.keep {entry : AuditRow} (h : Provenance db)
    (haudit : db'.audit_log = db.audit_log ++ [entry]) (hentry : entry.action ≠ .moved .approved)
    (hrows : ∀ id row', db'.versions.get? id = some row' →
      (row'.status = .draft ∧ row'.approved_by_actor_type = none ∧ row'.approved_by_actor_id = none ∧
        row'.approved_at = none) ∨
      ∃ row, db.versions.get? id = some row ∧ SameApproval row row' ∧
        (row'.status.unapproved ↔ row.status.unapproved)) :
    Provenance db' := by
  intro id row' hrow'
  rcases hrows id row' hrow' with ⟨hdraft, hempty⟩ | ⟨row, hrow, ⟨htype, hid, hat⟩, hstatus⟩
  · exact ⟨fun _ => hempty, fun hnot => absurd (Or.inl hdraft) hnot⟩
  · obtain ⟨hbefore, hafter⟩ := h id row hrow
    rw [htype, hid, hat, hstatus, haudit]
    refine ⟨hbefore, fun hnot => ?_⟩
    obtain ⟨⟨found, hfound, hfoundIs⟩, hall⟩ := hafter hnot
    refine ⟨⟨found, List.mem_append_left _ hfound, hfoundIs⟩, ?_⟩
    intro other hother hsubject haction
    rcases List.mem_append.mp hother with hother | hother
    · exact hall other hother hsubject haction
    · cases List.mem_singleton.mp hother
      exact absurd haction hentry

/-- The call moves a draft to review: for a contract, its actor has to be attributable. -/
def Reviews (service : Service) (db : Db) (input : TransitionInput) : Prop :=
  input.to_ = .under_review ∧
    (∃ row, db.versions.get? input.version_id = some row ∧ row.status = .draft) ∧
    (service = .contracts → attributable input.actor.actor_type input.actor.actor_id)

/-- No draft is moved to review. -/
def Unreviewed (service : Service) (db : Db) : Call → Prop
  | .create _ => True
  | .transition input => ¬ Reviews service db input

/-- A transition of an approved version leaves its approval as it is. -/
theorem moved_sameApproval {rules : Rules} {input : TransitionInput} {supersedes : Option String}
    (hcheck : row.approvalCheck) (hstatus : ¬ row.status.unapproved) :
    SameApproval row (row.moved rules input supersedes) := by
  obtain ⟨htype, hid, hat⟩ := hcheck.resolve_left hstatus
  obtain ⟨actor_type, htype⟩ := Option.isSome_iff_exists.mp htype
  obtain ⟨actor_id, hid⟩ := Option.isSome_iff_exists.mp hid
  obtain ⟨at_, hat⟩ := Option.isSome_iff_exists.mp hat
  unfold SameApproval VersionRow.moved
  dsimp only
  rw [htype, hid, hat]
  exact ⟨rfl, rfl, rfl⟩

/-- An answered transition of a draft is a review. -/
theorem reviews_of_draft {input : TransitionInput} {supersedes : Option String} (hshaped : Shaped db.versions)
    (hrow : db.versions.get? input.version_id = some row) (hdraft : row.status = .draft)
    (hallowed : input.to_ ∈ allowed row.status)
    (hanswerable : (row.moved service.rules input supersedes).answerable) : Reviews service db input := by
  have hto : input.to_ = .under_review := by
    rw [hdraft] at hallowed
    simpa [allowed] using hallowed
  refine ⟨hto, ⟨row, hrow, hdraft⟩, ?_⟩
  rintro rfl
  obtain ⟨htype, hid, -⟩ := (hshaped _ _ hrow).fresh hdraft
  have htypeColumn : (row.moved Service.contracts.rules input supersedes).approved_by_actor_type =
      some input.actor.actor_type := by
    show (row.approved_by_actor_type <|> some input.actor.actor_type) = _
    rw [htype]
    rfl
  have hidColumn : (row.moved Service.contracts.rules input supersedes).approved_by_actor_id =
      input.actor.actor_id := by
    show (row.approved_by_actor_id <|> input.actor.actor_id) = _
    rw [hid]
    rfl
  have hattributable := hanswerable.2 input.actor.actor_type htypeColumn
  rw [hidColumn] at hattributable
  exact hattributable

/-- Without a review the approvals stay as they are. -/
theorem unreviewed_keeps (hkept : Kept db) (h : Provenance db) (hcall : Unreviewed service db call) :
    Provenance (step service db call) := by
  rcases step_cases service db call with hsame | ⟨row', hdone⟩
  · rw [hsame]
    exact h
  · generalize step service db call = db' at hdone
    cases hdone with
    | created input project_id _ hfresh hanswerable hversions haudit =>
      refine h.keep haudit (by simp) ?_
      intro id row' hrow'
      rw [hversions, OrdMap.get?_set] at hrow'
      split_ifs at hrow'
      · cases hrow'
        exact Or.inl ⟨rfl, rfl, rfl, rfl⟩
      · exact Or.inr ⟨row', hrow', ⟨rfl, rfl, rfl⟩, Iff.rfl⟩
    | moved input row _ _ hrow hallowed hwrites hcheck hanswerable haudit =>
      have hshape := hkept.2 _ _ hrow
      have hnotDraft : row.status ≠ .draft := by
        intro hdraft
        obtain ⟨supersedes, rfl⟩ := hwrites.eq_moved
        exact hcall (reviews_of_draft hkept.2 hrow hdraft hallowed hanswerable)
      have hnotReview : row.status ≠ .under_review := by
        intro hreview
        obtain ⟨-, -, hnone⟩ := (h _ _ hrow).1 (Or.inr hreview)
        have hsome := hshape.dated hnotDraft
        rw [hnone] at hsome
        cases hsome
      have happroved : ¬ row.status.unapproved := by
        rintro (hdraft | hreview)
        · exact hnotDraft hdraft
        · exact hnotReview hreview
      have hto : input.to_ = .active ∨ input.to_ = .archived := by
        rcases mem_allowed hallowed with ⟨h', -⟩ | ⟨h', -⟩ | ⟨-, h'⟩ | ⟨-, h'⟩
        · exact absurd h' hnotDraft
        · exact absurd h' hnotReview
        · exact Or.inl h'
        · exact Or.inr h'
      have htoApproved : ¬ input.to_.unapproved := by
        rcases hto with h' | h' <;> rw [h'] <;> decide
      have hentry : AuditAction.moved input.to_ ≠ .moved .approved := by
        rcases hto with h' | h' <;> rw [h'] <;> decide
      refine h.keep haudit hentry ?_
      intro id other hother
      generalize db'.versions = versions' at hwrites hother
      cases hwrites with
      | plain hactive =>
        rw [OrdMap.get?_set] at hother
        split_ifs at hother with hid
        · cases hother
          subst hid
          exact Or.inr ⟨row, hrow, moved_sameApproval hshape.approval happroved,
            iff_of_false htoApproved happroved⟩
        · exact Or.inr ⟨other, hother, ⟨rfl, rfl, rfl⟩, Iff.rfl⟩
      | superseding previousId previous hactiveTo hprevious hcontainer hactive =>
        rw [OrdMap.get?_set, OrdMap.get?_set] at hother
        split_ifs at hother with hid hid'
        · cases hother
          subst hid
          exact Or.inr ⟨row, hrow, moved_sameApproval hshape.approval happroved,
            iff_of_false htoApproved happroved⟩
        · cases hother
          subst hid'
          refine Or.inr ⟨previous, hprevious, ⟨rfl, rfl, rfl⟩, iff_of_false ?_ ?_⟩
          · rintro (h' | h') <;> cases h'
          · rw [hactive]
            rintro (h' | h') <;> cases h'
        · exact Or.inr ⟨other, hother, ⟨rfl, rfl, rfl⟩, Iff.rfl⟩

/-- A review is answered, with a date of approval. -/
theorem review_ok {input : TransitionInput} (hshaped : Shaped db.versions)
    (h : Reviews service db input) :
    ∃ row, db.versions.get? input.version_id = some row ∧ row.status = .draft ∧
      perform service db (.transition input) =
        .ok (row.moved service.rules input row.supersedes_version_id,
          (db.write input.version_id
            (row.moved service.rules input row.supersedes_version_id)).audit
              ⟨input.actor, .moved input.to_, input.version_id, input.transitioned_at⟩) := by
  obtain ⟨hto, ⟨row, hrow, hdraft⟩, hattributable⟩ := h
  obtain ⟨htype, hid, -⟩ := (hshaped _ _ hrow).fresh hdraft
  have hcreator := (hshaped _ _ hrow).creator
  have hperform : perform service db (.transition input) =
      transitionVersion service.rules db input := by cases service <;> rfl
  refine ⟨row, hrow, hdraft, ?_⟩
  have hstatus : (row.moved service.rules input row.supersedes_version_id).status = .under_review := hto
  have hwritable : db.writable input.version_id
      (row.moved service.rules input row.supersedes_version_id) := by
    refine ⟨Or.inl (Or.inr hstatus), ?_, ?_⟩ <;>
    · intro h'
      rw [hstatus] at h'
      cases h'
  have hchecks : service.rules.checks (row.moved service.rules input row.supersedes_version_id) =
      true := by
    cases service with
    | packages =>
      simp only [Service.rules, packageRules, Bool.and_eq_true, Bool.or_eq_true, decide_eq_true_eq]
      refine ⟨⟨hcreator, Or.inl ?_⟩, Or.inl (Or.inr hto)⟩
      show input.to_ ≠ .superseded
      rw [hto]
      decide
    | contracts => rfl
  have hanswerable : (row.moved service.rules input row.supersedes_version_id).answerable := by
    refine ⟨hcreator, ?_⟩
    intro actor_type htypeColumn
    have htypeColumn : (row.approved_by_actor_type <|> (service.rules.approval input.to_
        input.actor).1) = some actor_type := htypeColumn
    show attributable actor_type (row.approved_by_actor_id <|> (service.rules.approval input.to_
        input.actor).2)
    rw [htype, hto] at htypeColumn
    rw [hid, hto]
    cases service with
    | packages => simp [Service.rules, packageRules] at htypeColumn
    | contracts =>
      cases htypeColumn
      exact hattributable rfl
  rw [hperform]
  unfold transitionVersion
  rw [hrow]
  dsimp only
  rw [refuse_bind_ok]
  refine ⟨?_, ?_⟩
  · rw [hto, hdraft]
    decide
  · have hsupersede : supersede service.rules db row input = .ok (db, row.supersedes_version_id) := by
      unfold supersede
      rw [hto, if_neg (by decide)]
    rw [hsupersede]
    refine bind_eq_ok.mpr ⟨_, rfl, ?_⟩
    dsimp only
    rw [refuse_bind_ok, refuse_bind_ok]
    exact ⟨not_not.mpr ⟨hwritable, hchecks⟩, not_not.mpr hanswerable, rfl⟩

/-- A review dates an approval that was not given. -/
theorem review_breaks {input : TransitionInput} (hshaped : Shaped db.versions)
    (h : Reviews service db input) : ¬ Provenance (step service db (.transition input)) := by
  obtain ⟨row, hrow, hdraft, hperform⟩ := review_ok hshaped h
  intro hprovenance
  unfold step at hprovenance
  rw [hperform] at hprovenance
  have hget : (db.write input.version_id (row.moved service.rules input
      row.supersedes_version_id)).versions.get? input.version_id =
        some (row.moved service.rules input row.supersedes_version_id) := OrdMap.get?_set_self _ _ _
  obtain ⟨-, -, hnone⟩ := (hprovenance _ _ hget).1 (Or.inr h.1)
  have hnone : (row.approved_at <|> some input.transitioned_at) = none := hnone
  cases hat : row.approved_at <;> rw [hat] at hnone <;> cases hnone

theorem step_provenance_iff (hkept : Kept db) (h : Provenance db) :
    Provenance (step service db call) ↔ Unreviewed service db call := by
  constructor
  · intro hprovenance
    cases call with
    | create input => trivial
    | transition input => exact fun hreviews => review_breaks hkept.2 hreviews hprovenance
  · exact unreviewed_keeps hkept h

theorem start_kept (containers : OrdMap String String) : Kept { containers } := by
  refine ⟨⟨?_, ?_, ?_⟩, ?_⟩
  · intro id id' row row' hrow
    cases hrow
  · intro id id'
    constructor <;>
    · rintro ⟨row, hrow, -⟩
      cases hrow
  · intro id hcycle
    obtain ⟨id', ⟨row, hrow, -⟩, -⟩ := TransGen.head'_iff.mp hcycle
    cases hrow
  · intro id row hrow
    cases hrow

theorem start_provenance (containers : OrdMap String String) : Provenance { containers } := by
  intro id row hrow
  cases hrow

/-! ### The two services -/

/-- The answers to a sequence of calls. -/
def answers (service : Service) : Db → List Call → List (Except KnowledgeError VersionRow)
  | _, [] => []
  | db, call :: calls =>
    (perform service db call).map Prod.fst :: answers service (step service db call) calls

/-- The calls name containers that exist, with their projects. -/
def Corresponding (containers : OrdMap String String) (calls : List Call) : Prop :=
  ∀ input, Call.create input ∈ calls → containers.get? input.container_id = some input.project_id

/-- All versions are drafts. -/
def Drafts (db : Db) : Prop := ∀ id row, db.versions.get? id = some row → row.status = .draft

/-- The two tables take the same drafts: what the check of one refuses, the schema of the other does. -/
theorem insert_alike (db : Db) (input : CreateVersionInput) (project_id : String) :
    insertVersion packageRules db input project_id = insertVersion contractRules db input project_id := by
  have hstatus : (input.row project_id).status.unapproved := Or.inl rfl
  unfold insertVersion
  dsimp only
  refine congrArg (fun next => refuse _ _ >>= next) (funext fun _ => ?_)
  refine congrArg (fun next => refuse _ _ >>= next) (funext fun _ => ?_)
  by_cases hcreator : attributable input.actor.actor_type input.actor.actor_id
  · have hchecks : packageRules.checks (input.row project_id) = true := by
      simp only [packageRules, Bool.and_eq_true, Bool.or_eq_true, decide_eq_true_eq]
      exact ⟨⟨hcreator, Or.inl V2KnowledgeLifecycleStatus.noConfusion⟩, Or.inl hstatus⟩
    rw [hchecks]
    rfl
  · have hchecks : packageRules.checks (input.row project_id) = false := by
      simp only [packageRules, Bool.and_eq_false_iff, decide_eq_false_iff_not]
      exact Or.inl (Or.inl hcreator)
    have hanswerable : ¬ (input.row project_id).answerable := fun h => hcreator h.1
    rw [hchecks]
    unfold refuse
    rw [if_pos (by simp), if_pos hanswerable]
    split_ifs <;> rfl

theorem create_alike {input : CreateVersionInput}
    (h : db.containers.get? input.container_id = some input.project_id) :
    perform .contracts db (.create input) = perform .packages db (.create input) := by
  have hcontain : db.contain input.container_id input.project_id = db := by
    unfold Db.contain OrdMap.has
    rw [h]
    rfl
  show createInterfaceContractVersion db input = createPackageVersion db input
  unfold createInterfaceContractVersion createPackageVersion
  dsimp only
  rw [hcontain, h, ← insert_alike]
  unfold refuse
  rw [if_neg (fun hne => hne rfl)]
  rfl

/-- Drafts only move to review. -/
theorem transition_alike {input : TransitionInput} (hdrafts : Drafts db)
    (hreview : Unreviewed .packages db (.transition input)) :
    perform .contracts db (.transition input) = perform .packages db (.transition input) ∧
      step .packages db (.transition input) = db := by
  show transitionVersion contractRules db input = transitionVersion packageRules db input ∧ _
  have hpackages : ∃ error, ∀ rules, transitionVersion rules db input = .error error := by
    cases hrow : db.versions.get? input.version_id with
    | none =>
      refine ⟨.not_found, fun rules => ?_⟩
      unfold transitionVersion
      rw [hrow]
    | some row =>
      have hdraft := hdrafts _ _ hrow
      have hto : input.to_ ∉ allowed row.status := by
        intro hallowed
        rw [hdraft] at hallowed
        have hto : input.to_ = .under_review := by simpa [allowed] using hallowed
        exact hreview ⟨hto, ⟨row, hrow, hdraft⟩, fun h => by cases h⟩
      refine ⟨.invalid_transition row.status input.to_, fun rules => ?_⟩
      unfold transitionVersion
      rw [hrow]
      dsimp only
      unfold refuse
      rw [if_pos hto]
      rfl
  obtain ⟨error, herror⟩ := hpackages
  refine ⟨by rw [herror, herror], ?_⟩
  unfold step
  rw [show perform .packages db (.transition input) = _ from herror packageRules]

/-- The answers to a review differ: one names an approver, the other does not. -/
theorem review_differs {input : TransitionInput} (hshaped : Shaped db.versions)
    (h : Reviews .packages db input) :
    (perform .packages db (.transition input)).map Prod.fst ≠
      (perform .contracts db (.transition input)).map Prod.fst := by
  obtain ⟨row, hrow, hdraft, hpackages⟩ := review_ok hshaped h
  obtain ⟨htype, -, -⟩ := (hshaped _ _ hrow).fresh hdraft
  rw [hpackages]
  intro hsame
  cases hcontracts : perform .contracts db (.transition input) with
  | error error =>
    rw [hcontracts] at hsame
    cases hsame
  | ok result =>
    obtain ⟨row', db'⟩ := result
    have hdone := perform_ok hcontracts
    rw [hcontracts] at hsame
    have hrows : row.moved packageRules input row.supersedes_version_id = row' :=
      Except.ok.inj hsame
    generalize hcall : Call.transition input = call at hdone
    cases hdone with
    | created _ _ _ _ _ _ _ => cases hcall
    | moved input' other _ _ hother _ hwrites _ _ _ =>
      cases hcall
      rw [hrow] at hother
      cases hother
      obtain ⟨supersedes, rfl⟩ := hwrites.eq_moved
      have htypes := congrArg VersionRow.approved_by_actor_type hrows
      have htypes : (row.approved_by_actor_type <|> (packageRules.approval input.to_ input.actor).1) =
          (row.approved_by_actor_type <|> some input.actor.actor_type) := htypes
      rw [htype, h.1] at htypes
      cases htypes

/-- What two services in step keep. -/
structure InStep (containers : OrdMap String String) (db : Db) : Prop where
  kept : Kept db
  drafts : Drafts db
  same : db.containers = containers

theorem create_inStep {containers : OrdMap String String} {input : CreateVersionInput}
    (h : InStep containers db) : InStep containers (step .packages db (.create input)) := by
  refine ⟨step_kept _ _ _ h.kept, ?_, ?_⟩
  · rcases step_cases .packages db (.create input) with hsame | ⟨row, hdone⟩
    · rw [hsame]
      exact h.drafts
    · intro id row' hrow'
      generalize step .packages db (.create input) = db' at hdone hrow'
      cases hdone with
      | created _ project_id _ _ _ hversions _ =>
        rw [hversions, OrdMap.get?_set] at hrow'
        split_ifs at hrow'
        · cases hrow'
          rfl
        · exact h.drafts _ _ hrow'
  · rw [← h.same]
    unfold step
    cases hperform : perform .packages db (.create input) with
    | error error => rfl
    | ok result =>
      obtain ⟨row, db'⟩ := result
      have hcreate : createPackageVersion db input = .ok (row, db') := hperform
      unfold createPackageVersion at hcreate
      cases hcontainer : db.containers.get? input.container_id with
      | none =>
        rw [hcontainer] at hcreate
        cases hcreate
      | some project_id =>
        rw [hcontainer] at hcreate
        obtain ⟨-, -, -, hdb⟩ := insert_ok hcreate
        rw [hdb]
        rfl

/-- Corresponding calls are answered alike exactly without a review. -/
theorem answers_alike_iff {containers : OrdMap String String} {calls : List Call}
    (hcalls : Corresponding containers calls) (h : InStep containers db) :
    answers .packages db calls = answers .contracts db calls ↔
      Along (step .packages) (Unreviewed .packages) db calls := by
  induction calls generalizing db with
  | nil => exact iff_of_true rfl trivial
  | cons call calls ih =>
    have htail : Corresponding containers calls := fun input hinput =>
      hcalls input (List.mem_cons_of_mem _ hinput)
    have halike : ∀ next, InStep containers next → step .packages db call = next →
        perform .contracts db call = perform .packages db call → Unreviewed .packages db call →
        (answers .packages db (call :: calls) = answers .contracts db (call :: calls) ↔
          Along (step .packages) (Unreviewed .packages) db (call :: calls)) := by
      intro next hnext hstep hperform hunreviewed
      have hstep' : step .contracts db call = next := by
        rw [← hstep]
        unfold step
        rw [hperform]
      rw [along_cons]
      unfold answers
      rw [hperform, hstep, hstep', List.cons_inj_right, ih htail hnext]
      exact ⟨fun hrest => ⟨hunreviewed, hrest⟩, fun hrest => hrest.2⟩
    cases call with
    | create input =>
      have hcontainer : db.containers.get? input.container_id = some input.project_id := by
        rw [h.same]
        exact hcalls input List.mem_cons_self
      exact halike _ (create_inStep h) rfl (create_alike hcontainer) trivial
    | transition input =>
      by_cases hreview : Reviews .packages db input
      · refine iff_of_false ?_ fun halong => halong.1 hreview
        intro hsame
        exact review_differs h.kept.2 hreview (List.cons.inj hsame).1
      · obtain ⟨hperform, hstep⟩ := transition_alike h.drafts hreview
        exact halike db h hstep hperform hreview

end

/-! ### Runs -/

/-- One active version for each container, links that are inverse and acyclic, and versions that only move
along the lifecycle. -/
structure Ordered (service : Service) (containers : OrdMap String String) (calls : List Call) : Prop where
  lifecycle : ∀ pre, pre <+: calls → Lifecycle (run (step service) { containers } pre).versions
  moves : ∀ pre call, pre ++ [call] <+: calls →
    Moves (run (step service) { containers } pre).versions
      (run (step service) { containers } (pre ++ [call])).versions

/-- The claimed life of the versions of a service, with their provenance. -/
structure Meets (service : Service) (containers : OrdMap String String) (calls : List Call) : Prop
    extends Ordered service containers calls where
  provenance : ∀ pre, pre <+: calls → Provenance (run (step service) { containers } pre)

/-- The lifecycle holds in every run of either service; the provenance does exactly in the runs that move
no draft to review, and so does the agreement of the two services on corresponding calls. -/
theorem versions_meet_iff (containers : OrdMap String String) (calls : List Call) :
    (∀ service, Ordered service containers calls) ∧
    (∀ service, Meets service containers calls ↔
      Along (step service) (Unreviewed service) { containers } calls) ∧
    (Corresponding containers calls →
      (answers .packages { containers } calls = answers .contracts { containers } calls ↔
        Along (step .packages) (Unreviewed .packages) { containers } calls)) := by
  have hordered : ∀ service, Ordered service containers calls := by
    intro service
    refine ⟨fun pre _ => ?_, fun pre call _ => ?_⟩
    · have hkept : Kept (run (step service) { containers } pre) :=
        run_induct' (step_kept service) (start_kept containers) pre
      exact hkept.1
    · rw [run_concat]
      exact step_moves service _ call
  refine ⟨hordered, fun service => ?_, fun hcalls => ?_⟩
  · have hprovenance : (∀ pre, pre <+: calls → Provenance (run (step service) { containers } pre)) ↔
        Along (step service) (Unreviewed service) { containers } calls :=
      prefixes_iff_along (step_kept service) (fun db call hkept h => step_provenance_iff hkept h)
        (start_kept containers) (start_provenance containers)
    rw [← hprovenance]
    exact ⟨Meets.provenance, fun h => ⟨hordered service, h⟩⟩
  · refine answers_alike_iff hcalls ⟨start_kept containers, ?_, rfl⟩
    intro id row hrow
    cases hrow

/-! A version that one actor reviews and another one approves. -/

def reviewedCalls : List Call :=
  [.create ⟨"kpv-1", "project-1", "kp-1", "1.0.0", ⟨.agent, some "author"⟩, "10:00"⟩,
    .transition ⟨"kpv-1", .under_review, ⟨.human, some "reviewer"⟩, "11:00"⟩,
    .transition ⟨"kpv-1", .approved, ⟨.human, some "approver"⟩, "12:00"⟩]

/-- The row of that version, with what its service says of its approval. -/
def reviewedRow (actor_id at_ : String) : VersionRow where
  project_id := "project-1"
  container_id := "kp-1"
  version := "1.0.0"
  status := .approved
  created_by_actor_type := .agent
  created_by_actor_id := some "author"
  approved_by_actor_type := some .human
  approved_by_actor_id := some actor_id
  approved_at := some at_
  created_at := "10:00"
  updated_at := "12:00"

def approvalEntry : AuditRow := ⟨⟨.human, some "approver"⟩, .moved .approved, "kpv-1", "12:00"⟩

theorem reviewer_recorded : ¬ Meets .packages (OrdMap.empty.set "kp-1" "project-1") reviewedCalls ∧
    ¬ Meets .contracts (OrdMap.empty.set "kp-1" "project-1") reviewedCalls := by
  have happroved : ¬ V2KnowledgeLifecycleStatus.unapproved .approved := by decide
  constructor
  · intro h
    have hrow : (run (step .packages) { containers := OrdMap.empty.set "kp-1" "project-1" }
        reviewedCalls).versions.get? "kpv-1" = some (reviewedRow "approver" "11:00") := by decide +kernel
    have hentry : approvalEntry ∈ (run (step .packages)
        { containers := OrdMap.empty.set "kp-1" "project-1" } reviewedCalls).audit_log := by
      decide +kernel
    obtain ⟨-, -, hat⟩ := ((h.provenance _ List.prefix_rfl _ _ hrow).2 happroved).2 _ hentry rfl rfl
    exact absurd hat (by decide)
  · intro h
    have hrow : (run (step .contracts) { containers := OrdMap.empty.set "kp-1" "project-1" }
        reviewedCalls).versions.get? "kpv-1" = some (reviewedRow "reviewer" "11:00") := by decide +kernel
    have hentry : approvalEntry ∈ (run (step .contracts)
        { containers := OrdMap.empty.set "kp-1" "project-1" } reviewedCalls).audit_log := by
      decide +kernel
    obtain ⟨-, hid, -⟩ := ((h.provenance _ List.prefix_rfl _ _ hrow).2 happroved).2 _ hentry rfl rfl
    exact absurd hid (by decide)

end Norns.Knowledge
