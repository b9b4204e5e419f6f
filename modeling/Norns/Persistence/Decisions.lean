import Mathlib.Data.List.MinMax
import Mathlib.Data.Prod.Lex
import Norns.Coordinator.EventProcessor
import Norns.Lib.OrdMap
import Norns.Lib.Run
import Norns.Lib.Transaction
import Norns.Lib.Uri

/-! # Decision points

`upsertV2DecisionPoint` (`v2/application.ts`) over the table `decision_points`, with the statements by which a
point is resolved or dismissed. A transaction of an upsert holds the lock of its condition key and the row of the
latest revision from the moment it reads them, and writes when it commits; what it locks waits for it.

* `latest_of_chain`: the latest revision is the last of the chain;
* `chains_step`, `commit_cases`: what a step does to the chains;
* `run_chained`: every run. -/

namespace Norns.Persistence.Decisions

open Norns.Lib Norns.Lib.Run Norns.Lib.Transaction
open Norns.Coordinator (trim)

/-! ### Decision points -/

inductive EntityRefType
  | project | phase | objective | task | strategy_version | agent_profile | agent_assignment | agent_run
  | decision_point | decision_record | memory_entry | architecture_revision | repository_binding | approval
  | artifact | verification_result | budget_reservation | dispatch_job | command | human_direction | debate
  | debate_actor | debate_context | debate_run | debate_round | debate_turn | debate_turn_attempt
  | debate_message | debate_finding | debate_revision | debate_judgment | debate_final_output | debate_job
  | debate_reservation | debate_usage_event
  deriving DecidableEq, Repr

def EntityRefType.text : EntityRefType → String
  | .project => "project"
  | .phase => "phase"
  | .objective => "objective"
  | .task => "task"
  | .strategy_version => "strategy_version"
  | .agent_profile => "agent_profile"
  | .agent_assignment => "agent_assignment"
  | .agent_run => "agent_run"
  | .decision_point => "decision_point"
  | .decision_record => "decision_record"
  | .memory_entry => "memory_entry"
  | .architecture_revision => "architecture_revision"
  | .repository_binding => "repository_binding"
  | .approval => "approval"
  | .artifact => "artifact"
  | .verification_result => "verification_result"
  | .budget_reservation => "budget_reservation"
  | .dispatch_job => "dispatch_job"
  | .command => "command"
  | .human_direction => "human_direction"
  | .debate => "debate"
  | .debate_actor => "debate_actor"
  | .debate_context => "debate_context"
  | .debate_run => "debate_run"
  | .debate_round => "debate_round"
  | .debate_turn => "debate_turn"
  | .debate_turn_attempt => "debate_turn_attempt"
  | .debate_message => "debate_message"
  | .debate_finding => "debate_finding"
  | .debate_revision => "debate_revision"
  | .debate_judgment => "debate_judgment"
  | .debate_final_output => "debate_final_output"
  | .debate_job => "debate_job"
  | .debate_reservation => "debate_reservation"
  | .debate_usage_event => "debate_usage_event"

structure EntityRef where
  entity_type : EntityRefType
  entity_id : String
  deriving DecidableEq

inductive Urgency
  | low | normal | high | critical
  deriving DecidableEq, Repr

structure DecisionOption where
  id : String
  label : String
  impact : String
  risk : String
  deriving DecidableEq

/-- What a point says, but for its id. -/
structure PointFields where
  project_id : String
  phase_id : Option String
  task_id : Option String
  scope_entity_type : EntityRefType
  scope_entity_id : String
  reason_class : String
  source_instance_id : String
  condition_key : String
  condition_fingerprint : String
  question : String
  context : String
  options : List DecisionOption
  recommendation_option_id : String
  urgency : Urgency
  blocking_scope : Option EntityRef
  deriving DecidableEq

/-- `V2DecisionPointInput`. -/
structure PointInput extends PointFields where
  id : String
  occurred_at : ℤ
  actor_id : String
  correlation_id : String
  causation_id : Option String
  deriving DecidableEq

def v2DecisionPointConditionKey (project_id : String) (scope_entity_type : EntityRefType)
    (scope_entity_id reason_class source_instance_id : String) : String :=
  String.intercalate ":" (["decision", project_id, scope_entity_type.text, scope_entity_id, reason_class,
    source_instance_id].map encodeURIComponent)

/-- `V2NonEmptyString` -/
def Filled (s : String) : Prop := trim s ≠ ""

/-- `V2Sha256Hex` -/
def Sha256Hex (s : String) : Prop :=
  s.length = 64 ∧ ∀ c ∈ s.toList, ('a' ≤ c ∧ c ≤ 'f') ∨ ('0' ≤ c ∧ c ≤ '9')

instance (s : String) : Decidable (Filled s) := by unfold Filled; infer_instance

instance (s : String) : Decidable (Sha256Hex s) :=
  decidable_of_iff (s.length = 64 ∧ (s.toList.all fun c => ('a' ≤ c ∧ c ≤ 'f') ∨ ('0' ≤ c ∧ c ≤ '9')) = true) <| by
    simp [Sha256Hex]

def DecisionOption.Accepted (o : DecisionOption) : Prop :=
  Filled o.id ∧ Filled o.label ∧ Filled o.impact ∧ Filled o.risk

instance (o : DecisionOption) : Decidable o.Accepted := by unfold DecisionOption.Accepted; infer_instance

/-- What `V2DecisionPoint` accepts; its texts are trimmed before they are compared. -/
def PointInput.Accepted (input : PointInput) : Prop :=
  (∀ s ∈ [input.id, input.project_id, input.scope_entity_id, input.reason_class, input.source_instance_id,
    input.condition_key, input.question, input.context, input.recommendation_option_id], Filled s) ∧
  (∀ s ∈ [input.phase_id, input.task_id, input.blocking_scope.map EntityRef.entity_id].reduceOption, Filled s) ∧
  Sha256Hex input.condition_fingerprint ∧ input.options ≠ [] ∧ (∀ o ∈ input.options, o.Accepted) ∧
  trim input.condition_key = v2DecisionPointConditionKey (trim input.project_id) input.scope_entity_type
    (trim input.scope_entity_id) (trim input.reason_class) (trim input.source_instance_id) ∧
  trim input.recommendation_option_id ∈ input.options.map (fun o => trim o.id) ∧
  (input.options.map fun o => trim o.id).Nodup

instance (input : PointInput) : Decidable input.Accepted := by unfold PointInput.Accepted; infer_instance

inductive PointStatus
  | opened | resolved | dismissed | superseded
  deriving DecidableEq, Repr

structure PointRow extends PointFields where
  condition_revision : ℕ
  status : PointStatus
  supersedes_decision_point_id : Option String
  superseded_by_decision_point_id : Option String
  created_at : ℤ
  updated_at : ℤ
  resolved_at : Option ℤ
  deriving DecidableEq

/-- The domain event `decision_point_opened`. -/
structure OpenedEvent where
  decision_point_id : String
  stream_version : ℕ
  condition_key : String
  condition_fingerprint : String
  actor_id : String
  correlation_id : String
  causation_id : Option String
  occurred_at : ℤ
  deriving DecidableEq

structure Database where
  decision_points : OrdMap String PointRow
  domain_events : List OpenedEvent

/-! ### The transaction -/

inductive UpsertError
  /-- `V2DecisionPoint.parse` throws. -/
  | schema
  /-- The id is taken. -/
  | duplicate
  /-- The unique index of the open points. -/
  | openCondition
  /-- The project, the phase or the task does not exist, or a task without a phase is named. -/
  | scope
  /-- The superseded point has another project or condition. -/
  | supersedes
  | disappeared (message : String)
  deriving DecidableEq, Repr

inductive UpsertResult
  | created (decision_point : String × PointRow)
  | existing (decision_point : String × PointRow)
  | closed_unchanged (decision_point : String × PointRow)
  | superseded (decision_point : String × PointRow) (superseded_decision_point_id : String)
  deriving DecidableEq

/-- The rows of a condition, the latest revision first. -/
def latest (points : OrdMap String PointRow) (conditionKey : String) : Option (String × PointRow) :=
  -- the order of the integers is computable only as a linear order
  @List.argmax _ (ℕ ×ₗ ℤ) (Prod.Lex.instLinearOrder ℕ ℤ).toPreorder _
    (fun e => toLex (e.2.condition_revision, e.2.created_at))
    (points.entries.filter fun e => e.2.condition_key = conditionKey)

structure WriteInput extends PointInput where
  condition_revision : ℕ
  supersedes_decision_point_id : Option String

def WriteInput.row (input : WriteInput) : PointRow where
  toPointFields := input.toPointFields
  condition_revision := input.condition_revision
  status := .opened
  supersedes_decision_point_id := input.supersedes_decision_point_id
  superseded_by_decision_point_id := none
  created_at := input.occurred_at
  updated_at := input.occurred_at
  resolved_at := none

def WriteInput.event (input : WriteInput) : OpenedEvent where
  decision_point_id := input.id
  stream_version := input.condition_revision
  condition_key := input.condition_key
  condition_fingerprint := input.condition_fingerprint
  actor_id := input.actor_id
  correlation_id := input.correlation_id
  causation_id := input.causation_id
  occurred_at := input.occurred_at

/-- The foreign key of `supersedes_decision_point_id`. -/
def WriteInput.Linked (input : WriteInput) (points : OrdMap String PointRow) : Prop :=
  ∀ id ∈ input.supersedes_decision_point_id, ∃ row ∈ points.get? id,
    row.project_id = input.project_id ∧ row.condition_key = input.condition_key

instance (input : WriteInput) (points : OrdMap String PointRow) : Decidable (input.Linked points) := by
  unfold WriteInput.Linked; infer_instance

/-- `known` says whether the project, the phase and the task are there and, with them, whether the database
takes the row at all. -/
def insertDecisionPoint (input : WriteInput) (known : Bool) (db : Database) :
    Except UpsertError ((String × PointRow) × Database) :=
  if db.decision_points.get? input.id ≠ none then .error .duplicate
  else if ∃ e ∈ db.decision_points.entries, e.2.condition_key = input.condition_key ∧ e.2.status = .opened then
    .error .openCondition
  else if known = false ∨ (input.phase_id = none ∧ input.task_id ≠ none) then .error .scope
  else if ¬ input.Linked db.decision_points then .error .supersedes
  else
    .ok ((input.id, input.row),
      { decision_points := db.decision_points.set input.id input.row
        domain_events := db.domain_events ++ [input.event] })

/-- An update of the row `id` when it has the status. -/
def updateWhere (id : String) (status : PointStatus) (f : PointRow → PointRow) (message : String)
    (db : Database) : Except UpsertError Database :=
  match db.decision_points.get? id with
  | some row =>
    if row.status = status then .ok { db with decision_points := db.decision_points.set id (f row) }
    else .error (.disappeared message)
  | none => .error (.disappeared message)

def PointRow.supersede (at_ : ℤ) (row : PointRow) : PointRow :=
  { row with
    status := .superseded
    updated_at := at_ }

def PointRow.link (id : String) (at_ : ℤ) (row : PointRow) : PointRow :=
  { row with
    superseded_by_decision_point_id := some id
    updated_at := at_ }

def supersedeOpen (existing : String × PointRow) (input : WriteInput) (db : Database) :
    Except UpsertError (PointStatus × Database) :=
  if existing.2.status = .opened then
    (updateWhere existing.1 .opened (PointRow.supersede input.occurred_at)
      "open decision point disappeared before supersession" db).map fun db => (.superseded, db)
  else .ok (existing.2.status, db)

def supersedeAndInsertDecisionPoint (existing : String × PointRow) (input : WriteInput) (known : Bool)
    (db : Database) : Except UpsertError ((String × PointRow) × Database) := do
  let (linkedStatus, db) ← supersedeOpen existing input db
  let (replacement, db) ← insertDecisionPoint input known db
  let db ← updateWhere existing.1 linkedStatus (PointRow.link replacement.1 input.occurred_at)
    "decision point disappeared before revision linking" db
  pure (replacement, db)

/-- The rest of the transaction of `upsertV2DecisionPoint`, after `lockLatestDecisionPoint`. -/
def upsertDecisionPoint (input : PointInput) (existing : Option (String × PointRow)) (known : Bool)
    (db : Database) : Except UpsertError (UpsertResult × Database) :=
  match existing with
  | none =>
    (insertDecisionPoint ⟨input, 1, none⟩ known db).map fun (point, db) => (.created point, db)
  | some existing =>
    if existing.2.condition_fingerprint = input.condition_fingerprint then
      if existing.2.status = .opened then .ok (.existing existing, db)
      else .ok (.closed_unchanged existing, db)
    else
      (supersedeAndInsertDecisionPoint existing
        ⟨input, existing.2.condition_revision + 1, some existing.1⟩ known db).map
          fun (point, db) => (.superseded point existing.1, db)

/-! ### The system -/

/-- A transaction that holds the lock of its condition key. -/
structure Call where
  input : PointInput
  existing : Option (String × PointRow)

structure System where
  db : Database
  /-- The transactions that hold a lock, by condition key. -/
  inflight : OrdMap String Call
  answers : List (PointInput × Except UpsertError UpsertResult)

/-- What a disposition makes of a point. -/
inductive Disposition
  | resolved | dismissed
  deriving DecidableEq, Repr

def Disposition.status : Disposition → PointStatus
  | .resolved => .resolved
  | .dismissed => .dismissed

def PointRow.dispose (disposition : Disposition) (at_ : ℤ) (row : PointRow) : PointRow :=
  { row with
    status := disposition.status
    updated_at := at_
    resolved_at := some at_ }

/-- A transaction holds the row. -/
def Locked (inflight : OrdMap String Call) (id : String) : Prop :=
  ∃ call ∈ inflight.values, call.existing.map Prod.fst = some id

instance (inflight : OrdMap String Call) (id : String) : Decidable (Locked inflight id) := by
  unfold Locked; infer_instance

inductive Action
  /-- A call, up to and with `lockLatestDecisionPoint`; it waits while another holds the lock. -/
  | lock (input : PointInput)
  | commit (conditionKey : String) (known : Bool)
  /-- The connection is lost. -/
  | abort (conditionKey : String)
  /-- A human resolves or dismisses an open point; this waits while a transaction holds the row. -/
  | dispose (id : String) (disposition : Disposition) (at_ : ℤ)

def dispose (db : Database) (id : String) (disposition : Disposition) (at_ : ℤ) : Database :=
  match db.decision_points.get? id with
  | some row =>
    if row.status = .opened then
      { db with decision_points := db.decision_points.set id (row.dispose disposition at_) }
    else db
  | none => db

def step (s : System) : Action → System
  | .lock input =>
    if ¬ input.Accepted then { s with answers := s.answers ++ [(input, .error .schema)] }
    else if s.inflight.get? input.condition_key ≠ none then s
    else
      { s with
        inflight :=
          s.inflight.set input.condition_key ⟨input, latest s.db.decision_points input.condition_key⟩ }
  | .commit conditionKey known =>
    match s.inflight.get? conditionKey with
    | none => s
    | some call =>
      let result := upsertDecisionPoint call.input call.existing known s.db
      { db := commit s.db (result.map Prod.snd)
        inflight := s.inflight.delete conditionKey
        answers := s.answers ++ [(call.input, result.map Prod.fst)] }
  | .abort conditionKey => { s with inflight := s.inflight.delete conditionKey }
  | .dispose id disposition at_ =>
    if Locked s.inflight id then s else { s with db := dispose s.db id disposition at_ }

/-- No decision points. -/
def initial : System := ⟨⟨.empty, []⟩, .empty, []⟩

/-! ### The chain of a condition -/

/-- The points of a condition are the revisions `1 .. n` in the order of `ids`, each linked to its neighbours,
and only the last can be open. -/
structure Chain (points : OrdMap String PointRow) (conditionKey : String) (ids : List String) : Prop where
  mem : ∀ id row, points.get? id = some row → row.condition_key = conditionKey → id ∈ ids
  revision : ∀ i id, ids[i]? = some id → ∃ row, points.get? id = some row ∧
    row.condition_key = conditionKey ∧ row.condition_revision = i + 1 ∧
    row.supersedes_decision_point_id = (if i = 0 then none else ids[i - 1]?) ∧
    row.superseded_by_decision_point_id = ids[i + 1]? ∧ (row.status = .opened → i + 1 = ids.length)

section

variable {points points' : OrdMap String PointRow} {key : String} {ids : List String}

/-- A point of the chain has its revision. -/
theorem Chain.index (h : Chain points key ids) {id : String} {row : PointRow}
    (hrow : points.get? id = some row) (hkey : row.condition_key = key) :
    ∃ i, ids[i]? = some id ∧ row.condition_revision = i + 1 := by
  obtain ⟨i, hi⟩ := List.mem_iff_getElem?.mp (h.mem id row hrow hkey)
  obtain ⟨row', hrow', -, hrevision, -⟩ := h.revision i id hi
  cases hrow.symm.trans hrow'
  exact ⟨i, hi, hrevision⟩

/-- **The latest revision** is the last of the chain. -/
theorem latest_of_chain (h : Chain points key ids) :
    latest points key = ids.getLast?.bind fun id => (points.get? id).map (Prod.mk id) := by
  rcases List.eq_nil_or_concat' ids with rfl | ⟨front, last, rfl⟩
  · have hempty : points.entries.filter (fun e => e.2.condition_key = key) = [] := by
      refine List.filter_eq_nil_iff.mpr fun e he hkey => ?_
      exact absurd (h.mem e.1 e.2 (OrdMap.mem_entries.mp he) (of_decide_eq_true hkey)) (by simp)
    unfold latest
    rw [hempty]
    rfl
  · obtain ⟨row, hrow, hkey, hrevision, -⟩ := h.revision front.length last (by simp)
    have hmem : (last, row) ∈ points.entries.filter (fun e => e.2.condition_key = key) :=
      List.mem_filter.mpr ⟨OrdMap.mem_entries.mpr hrow, by simpa using hkey⟩
    unfold latest
    rcases hmax : @List.argmax _ (ℕ ×ₗ ℤ) (Prod.Lex.instLinearOrder ℕ ℤ).toPreorder _
        (fun e => toLex (e.2.condition_revision, e.2.created_at))
        (points.entries.filter fun e => e.2.condition_key = key) with _ | e
    · rw [List.argmax_eq_none.mp hmax] at hmem
      cases hmem
    · have he := List.mem_filter.mp (List.argmax_mem hmax)
      have hle := List.le_of_mem_argmax hmem hmax
      have hrevisions : row.condition_revision ≤ e.2.condition_revision := by
        rcases Prod.Lex.le_iff.mp hle with hlt | ⟨heq, -⟩
        · exact hlt.le
        · exact heq.le
      obtain ⟨i, hi, hindex⟩ := h.index (OrdMap.mem_entries.mp he.1) (of_decide_eq_true he.2)
      obtain ⟨hbound, -⟩ := List.getElem?_eq_some_iff.mp hi
      rw [List.length_append, List.length_singleton] at hbound
      have hlast : i = front.length := by omega
      rw [hlast] at hi
      have hid : e.1 = last := by simpa using hi.symm
      have hget := OrdMap.mem_entries.mp he.1
      rw [hid, hrow] at hget
      have he' : e = (last, row) := Prod.ext hid (Option.some.inj hget).symm
      rw [hmax, he']
      simp [hrow]

theorem latest_mem (h : Chain points key ids) {e : String × PointRow} (he : latest points key = some e) :
    points.get? e.1 = some e.2 ∧ e.2.condition_key = key := by
  rw [latest_of_chain h] at he
  obtain ⟨id, hid, hpair⟩ := Option.bind_eq_some_iff.mp he
  obtain ⟨row, hrow, rfl⟩ := Option.map_eq_some_iff.mp hpair
  obtain ⟨i, hi⟩ := List.mem_iff_getElem?.mp (List.mem_of_getLast? hid)
  obtain ⟨row', hrow', hkey, -⟩ := h.revision i id hi
  cases hrow.symm.trans hrow'
  exact ⟨hrow, hkey⟩

/-- A chain is about the points of its condition. -/
theorem Chain.congr (h : Chain points key ids)
    (hsame : ∀ id row, row.condition_key = key → (points'.get? id = some row ↔ points.get? id = some row)) :
    Chain points' key ids where
  mem id row hrow hkey := h.mem id row ((hsame id row hkey).mp hrow) hkey
  revision i id hi := by
    obtain ⟨row, hrow, hkey, hrest⟩ := h.revision i id hi
    exact ⟨row, (hsame id row hkey).mpr hrow, hkey, hrest⟩

/-- The latest revision depends on the rows of the chain. -/
theorem latest_congr (h : Chain points key ids) (h' : Chain points' key ids)
    (hsame : ∀ e, latest points key = some e → points'.get? e.1 = points.get? e.1) :
    latest points' key = latest points key := by
  have hold := latest_of_chain h
  rw [latest_of_chain h']
  rcases hlast : ids.getLast? with _ | id
  · rw [hold, hlast]
    rfl
  · obtain ⟨i, hi⟩ := List.mem_iff_getElem?.mp (List.mem_of_getLast? hlast)
    obtain ⟨row, hrow, -⟩ := h.revision i id hi
    rw [hlast, Option.bind_some, hrow] at hold
    rw [Option.bind_some, hsame _ hold, hold, hrow]

/-- A chain survives an update of a row that opens nothing and keeps the revision and the links. -/
theorem Chain.update (h : Chain points key ids) {id : String} {row row' : PointRow}
    (hrow : points.get? id = some row) (hfields : row'.toPointFields = row.toPointFields)
    (hrevision : row'.condition_revision = row.condition_revision)
    (hsupersedes : row'.supersedes_decision_point_id = row.supersedes_decision_point_id)
    (hsuperseded : row'.superseded_by_decision_point_id = row.superseded_by_decision_point_id)
    (hopen : row'.status = .opened → row.status = .opened) : Chain (points.set id row') key ids where
  mem other otherRow hother hkey := by
    rw [OrdMap.get?_set] at hother
    split_ifs at hother with hid
    · cases hother
      subst hid
      rw [hfields] at hkey
      exact h.mem id row hrow hkey
    · exact h.mem other otherRow hother hkey
  revision i other hi := by
    obtain ⟨otherRow, hother, hkey, hnumber, hback, hforth, hlast⟩ := h.revision i other hi
    by_cases hid : id = other
    · subst hid
      cases hrow.symm.trans hother
      refine ⟨row', OrdMap.get?_set_self _ _ _, by rw [hfields]; exact hkey, by rw [hrevision]; exact hnumber,
        by rw [hsupersedes]; exact hback, by rw [hsuperseded]; exact hforth, fun ho => hlast (hopen ho)⟩
    · exact ⟨otherRow, by rw [OrdMap.get?_set_ne _ _ hid]; exact hother, hkey, hnumber, hback, hforth, hlast⟩

/-- The point that a new revision closes. -/
def PointRow.closed (row : PointRow) (at_ : ℤ) : PointRow :=
  if row.status = .opened then row.supersede at_ else row

/-- The next revision. -/
def nextRow (input : PointInput) (existing : Option (String × PointRow)) : PointRow :=
  WriteInput.row ⟨input, (existing.elim 0 fun e => e.2.condition_revision) + 1, existing.map Prod.fst⟩

/-- The answer that a revision was opened. -/
def openedResult (input : PointInput) (existing : Option (String × PointRow)) : UpsertResult :=
  match existing with
  | none => .created (input.id, nextRow input none)
  | some e => .superseded (input.id, nextRow input (some e)) e.1

/-- A new revision is inserted, and the latest one closed and linked to it. -/
def Inserted (points points' : OrdMap String PointRow) (input : PointInput)
    (existing : Option (String × PointRow)) : Prop :=
  points.get? input.id = none ∧ ∀ id, points'.get? id =
    if id = input.id then some (nextRow input existing)
    else
      match existing with
      | some (eid, erow) =>
        if id = eid then some ((erow.closed input.occurred_at).link input.id input.occurred_at)
        else points.get? id
      | none => points.get? id

@[simp] theorem closed_fields (row : PointRow) (at_ : ℤ) :
    (row.closed at_).toPointFields = row.toPointFields := by
  unfold PointRow.closed
  split <;> rfl

@[simp] theorem closed_revision (row : PointRow) (at_ : ℤ) :
    (row.closed at_).condition_revision = row.condition_revision := by
  unfold PointRow.closed
  split <;> rfl

@[simp] theorem closed_supersedes (row : PointRow) (at_ : ℤ) :
    (row.closed at_).supersedes_decision_point_id = row.supersedes_decision_point_id := by
  unfold PointRow.closed
  split <;> rfl

theorem closed_status (row : PointRow) (at_ : ℤ) : (row.closed at_).status ≠ .opened := by
  unfold PointRow.closed
  split
  · simp [PointRow.supersede]
  · assumption

/-- **A new revision** extends the chain of its condition. -/
theorem Chain.inserted (h : Chain points key ids) {input : PointInput} (hkey : input.condition_key = key)
    (hinserted : Inserted points points' input (latest points key)) :
    Chain points' key (ids ++ [input.id]) := by
  obtain ⟨hfresh, hget⟩ := hinserted
  rw [latest_of_chain h] at hget
  have hold : ∀ id ∈ ids, id ≠ input.id := by
    intro id hid heq
    obtain ⟨i, hi⟩ := List.mem_iff_getElem?.mp hid
    obtain ⟨row, hrow, -⟩ := h.revision i id hi
    rw [heq, hfresh] at hrow
    cases hrow
  rcases List.eq_nil_or_concat' ids with rfl | ⟨front, last, rfl⟩
  · have hget' : ∀ id, points'.get? id =
        if id = input.id then some (WriteInput.row ⟨input, 1, none⟩) else points.get? id := hget
    refine ⟨fun id row hrow hk => ?_, fun i id hi => ?_⟩
    · rw [hget'] at hrow
      split_ifs at hrow with hid
      · simp [hid]
      · exact absurd (h.mem id row hrow hk) (by simp)
    · rcases i with _ | i
      · have hid : id = input.id := by simpa using hi.symm
        refine ⟨_, by rw [hget', if_pos hid], hkey, rfl, rfl, rfl, fun _ => rfl⟩
      · simp at hi
  · obtain ⟨row, hrow, hrowKey, hnumber, hback, -, -⟩ := h.revision front.length last (by simp)
    have hget' : ∀ id, points'.get? id =
        if id = input.id then some (WriteInput.row ⟨input, row.condition_revision + 1, some last⟩)
        else if id = last then some ((row.closed input.occurred_at).link input.id input.occurred_at)
        else points.get? id := by
      intro id
      rw [hget]
      simp [hrow, nextRow]
    refine ⟨fun id other hother hk => ?_, fun i id hi => ?_⟩
    · rw [hget'] at hother
      split_ifs at hother with hid hlast
      · simp [hid]
      · simp [hlast]
      · exact List.mem_append_left _ (h.mem id other hother hk)
    · rcases lt_trichotomy i (front.length + 1) with hlt | heq | hgt
      · have hi' : (front ++ [last])[i]? = some id := by
          rwa [List.getElem?_append_left (by simpa using hlt)] at hi
        have hprev : (if i = 0 then none else (front ++ [last] ++ [input.id])[i - 1]?) =
            if i = 0 then none else (front ++ [last])[i - 1]? := by
          split_ifs with h0
          · rfl
          · rw [List.getElem?_append_left (by simp; omega)]
        rw [hprev]
        have hne := hold id (List.mem_of_getElem? hi')
        by_cases hlast : i = front.length
        · subst hlast
          have hid : id = last := by simpa using hi'.symm
          subst hid
          refine ⟨_, by rw [hget', if_neg hne, if_pos rfl], ?_, ?_, ?_, ?_, fun hopen => ?_⟩
          · show (row.closed input.occurred_at).condition_key = key
            rw [closed_fields]
            exact hrowKey
          · show (row.closed input.occurred_at).condition_revision = _
            rw [closed_revision]
            exact hnumber
          · show (row.closed input.occurred_at).supersedes_decision_point_id = _
            rw [closed_supersedes]
            exact hback
          · show some input.id = _
            simp
          · exact absurd hopen (closed_status row _)
        · obtain ⟨other, hother, hk, hnumber', hback', hforth', hopen'⟩ := h.revision i id hi'
          have hlt' : i < front.length := by omega
          have hneLast : id ≠ last := by
            intro hid
            rw [hid, hrow] at hother
            cases hother
            omega
          refine ⟨other, by rw [hget', if_neg hne, if_neg hneLast]; exact hother, hk, hnumber', hback', ?_,
            fun hopen => ?_⟩
          · have hi'' : i + 1 < (front ++ [last]).length := by
              simp only [List.length_append, List.length_singleton]
              omega
            rw [hforth', List.getElem?_append_left hi'']
          · have := hopen' hopen
            simp at this
            omega
      · subst heq
        have hid : id = input.id := by simpa using hi.symm
        refine ⟨_, by rw [hget', if_pos hid], hkey, ?_, ?_, ?_, fun _ => by simp⟩
        · show row.condition_revision + 1 = _
          rw [hnumber]
        · simp [WriteInput.row]
        · simp [WriteInput.row]
      · rw [List.getElem?_eq_none (by simp; omega)] at hi
        cases hi

/-- The other conditions keep their chains. -/
theorem Chain.inserted_other (h : Chain points key ids) {input : PointInput}
    {existing : Option (String × PointRow)} (hkey : input.condition_key ≠ key)
    (hexisting : ∀ e ∈ existing, points.get? e.1 = some e.2 ∧ e.2.condition_key ≠ key)
    (hinserted : Inserted points points' input existing) : Chain points' key ids := by
  obtain ⟨hfresh, hget⟩ := hinserted
  refine h.congr fun id row hrowKey => ?_
  rw [hget]
  split_ifs with hid
  · subst hid
    refine iff_of_false (fun hrow => ?_) (by simp [hfresh])
    cases hrow
    exact hkey hrowKey
  · rcases existing with _ | ⟨eid, erow⟩
    · rfl
    · obtain ⟨herow, hother⟩ := hexisting _ rfl
      dsimp only at herow hother ⊢
      split_ifs with heid
      · subst heid
        refine iff_of_false (fun hrow => ?_) (fun hrow => ?_)
        · cases hrow
          have hfields : (erow.closed input.occurred_at).condition_key = key := hrowKey
          rw [closed_fields] at hfields
          exact hother hfields
        · cases herow.symm.trans hrow
          exact hother hrowKey
      · rfl

end

/-! ### What a transaction does -/

section

variable {db : Database} {input : PointInput} {known : Bool} {key : String} {ids : List String}

/-- The database takes a new revision. -/
def Storable (db : Database) (input : PointInput) (existing : Option (String × PointRow)) (known : Bool) :
    Prop :=
  db.decision_points.get? input.id = none ∧ known = true ∧ (input.phase_id = none → input.task_id = none) ∧
    ∀ e ∈ existing, e.2.project_id = input.project_id

theorem insert_ok (write : WriteInput) (hfresh : db.decision_points.get? write.id = none)
    (hclosed : ∀ id row, db.decision_points.get? id = some row → row.condition_key = write.condition_key →
      row.status ≠ .opened)
    (hknown : known = true) (hscope : write.phase_id = none → write.task_id = none)
    (hlinked : write.Linked db.decision_points) :
    ∃ db', insertDecisionPoint write known db = .ok ((write.id, write.row), db') ∧
      ∀ id, db'.decision_points.get? id =
        if id = write.id then some write.row else db.decision_points.get? id := by
  have hnone : ¬ ∃ e ∈ db.decision_points.entries,
      e.2.condition_key = write.condition_key ∧ e.2.status = .opened := by
    rintro ⟨e, he, hkey, hopen⟩
    exact hclosed e.1 e.2 (OrdMap.mem_entries.mp he) hkey hopen
  have hscope' : ¬ (known = false ∨ (write.phase_id = none ∧ write.task_id ≠ none)) := by
    rintro (hunknown | ⟨hphase, htask⟩)
    · rw [hknown] at hunknown
      cases hunknown
    · exact htask (hscope hphase)
  refine ⟨⟨db.decision_points.set write.id write.row, db.domain_events ++ [write.event]⟩, ?_, fun id => ?_⟩
  · unfold insertDecisionPoint
    rw [if_neg (not_not.mpr hfresh), if_neg hnone, if_neg hscope', if_neg (not_not.mpr hlinked)]
  · rw [OrdMap.get?_set]
    simp only [eq_comm]

theorem insert_error (write : WriteInput)
    (h : db.decision_points.get? write.id ≠ none ∨ known = false ∨
      (write.phase_id = none ∧ write.task_id ≠ none) ∨ ¬ write.Linked db.decision_points) :
    ∃ e, insertDecisionPoint write known db = .error e := by
  unfold insertDecisionPoint
  by_cases hfresh : db.decision_points.get? write.id ≠ none
  · exact ⟨_, by rw [if_pos hfresh]⟩
  rw [if_neg hfresh]
  split
  · exact ⟨_, rfl⟩
  by_cases hscope : known = false ∨ (write.phase_id = none ∧ write.task_id ≠ none)
  · exact ⟨_, by rw [if_pos hscope]⟩
  · rw [if_neg hscope]
    rcases h with h | h | h | h
    · exact absurd h hfresh
    · exact absurd (.inl h) hscope
    · exact absurd (.inr h) hscope
    · exact ⟨_, by rw [if_pos h]⟩

theorem updateWhere_ok {id : String} {row : PointRow} (f : PointRow → PointRow) (message : String)
    (hrow : db.decision_points.get? id = some row) :
    ∃ db', updateWhere id row.status f message db = .ok db' ∧ ∀ other, db'.decision_points.get? other =
      if other = id then some (f row) else db.decision_points.get? other := by
  refine ⟨{ db with decision_points := db.decision_points.set id (f row) }, ?_, fun other => ?_⟩
  · unfold updateWhere
    simp only [hrow, if_true]
  · rw [OrdMap.get?_set]
    simp only [eq_comm]

/-- The latest point is closed. -/
theorem supersedeOpen_ok (write : WriteInput) {eid : String} {erow : PointRow}
    (hrow : db.decision_points.get? eid = some erow) : ∃ db',
      supersedeOpen (eid, erow) write db = .ok ((erow.closed write.occurred_at).status, db') ∧
      ∀ id, db'.decision_points.get? id =
        if id = eid then some (erow.closed write.occurred_at) else db.decision_points.get? id := by
  unfold supersedeOpen PointRow.closed
  dsimp only
  split
  · rename_i hopen
    obtain ⟨db', hrun, hget⟩ := updateWhere_ok (PointRow.supersede write.occurred_at)
      "open decision point disappeared before supersession" hrow
    rw [hopen] at hrun
    exact ⟨db', by rw [hrun]; rfl, hget⟩
  · refine ⟨db, rfl, fun id => ?_⟩
    split_ifs with hid
    · rw [hid, hrow]
    · rfl

/-- **A changed condition** opens a revision when the database takes it. -/
theorem upsert_changed (h : Chain db.decision_points key ids) (hkey : input.condition_key = key)
    {existing : Option (String × PointRow)} (hlatest : existing = latest db.decision_points key)
    (hchanged : ∀ e ∈ existing, e.2.condition_fingerprint ≠ input.condition_fingerprint)
    (hstorable : Storable db input existing known) : ∃ db',
      upsertDecisionPoint input existing known db = .ok (openedResult input existing, db') ∧
        Inserted db.decision_points db'.decision_points input existing := by
  obtain ⟨hfresh, hknown, hscope, hproject⟩ := hstorable
  have hlast := latest_of_chain h
  rw [← hlatest] at hlast
  have hopenLast : ∀ id row, db.decision_points.get? id = some row → row.condition_key = key →
      row.status = .opened → existing = some (id, row) := by
    intro id row hrow hk hopen
    obtain ⟨i, hi, -⟩ := h.index hrow hk
    obtain ⟨row', hrow', -, -, -, -, hend⟩ := h.revision i id hi
    cases hrow.symm.trans hrow'
    have hlength := hend hopen
    rw [hlast, List.getLast?_eq_getElem?, show ids.length - 1 = i by omega, hi]
    simp [hrow]
  rcases existing with _ | ⟨eid, erow⟩
  · obtain ⟨db', hinsert, hget⟩ := insert_ok ⟨input, 1, none⟩ hfresh
      (fun id row hrow hk hopen => absurd (hopenLast id row hrow (hk.trans hkey) hopen) (by simp))
      hknown hscope (by intro id hid; cases hid)
    have hrun : upsertDecisionPoint input none known db = .ok (openedResult input none, db') := by
      unfold upsertDecisionPoint
      rw [hinsert]
      rfl
    exact ⟨db', hrun, hfresh, hget⟩
  · obtain ⟨hrow, hrowKey⟩ := latest_mem h hlatest.symm
    have hne : input.id ≠ eid := by
      rintro rfl
      rw [hrow] at hfresh
      cases hfresh
    obtain ⟨db₁, hsupersede, hget₁⟩ := supersedeOpen_ok
      ⟨input, erow.condition_revision + 1, some eid⟩ hrow
    have hfresh₁ : db₁.decision_points.get? input.id = none := by
      rw [hget₁, if_neg hne]
      exact hfresh
    have hclosed₁ : ∀ id row, db₁.decision_points.get? id = some row →
        row.condition_key = input.condition_key → row.status ≠ .opened := by
      intro id row hid hk hopen
      rw [hget₁] at hid
      split_ifs at hid with heid
      · cases hid
        exact closed_status _ _ hopen
      · cases hopenLast id row hid (hk.trans hkey) hopen
        exact heid rfl
    obtain ⟨db₂, hinsert, hget₂⟩ := insert_ok ⟨input, erow.condition_revision + 1, some eid⟩ hfresh₁ hclosed₁
      hknown hscope (by
        intro id hid
        cases hid
        refine ⟨erow.closed input.occurred_at, by rw [hget₁, if_pos rfl]; rfl, ?_, ?_⟩
        · rw [closed_fields]
          exact hproject _ rfl
        · rw [closed_fields, hrowKey]
          exact hkey.symm)
    have hrow₂ : db₂.decision_points.get? eid = some (erow.closed input.occurred_at) := by
      rw [hget₂, if_neg hne.symm, hget₁, if_pos rfl]
    obtain ⟨db₃, hlink, hget₃⟩ := updateWhere_ok (PointRow.link input.id input.occurred_at)
      "decision point disappeared before revision linking" hrow₂
    have hrun : upsertDecisionPoint input (some (eid, erow)) known db =
        .ok (openedResult input (some (eid, erow)), db₃) := by
      unfold upsertDecisionPoint supersedeAndInsertDecisionPoint
      dsimp only
      rw [if_neg (hchanged _ rfl), hsupersede]
      show Except.map _ (insertDecisionPoint _ known db₁ >>= _) = _
      rw [hinsert]
      show Except.map _ (updateWhere eid _ _ _ db₂ >>= _) = _
      rw [hlink]
      rfl
    refine ⟨db₃, hrun, hfresh, fun id => ?_⟩
    rw [hget₃, hget₂, hget₁]
    by_cases hid : id = input.id
    · rw [if_neg (hid ▸ hne), if_pos hid, if_pos hid]
      rfl
    · rw [if_neg hid]
      by_cases heid : id = eid
      · rw [if_pos heid, if_neg hid]
        exact (if_pos heid).symm
      · rw [if_neg heid, if_neg hid, if_neg heid]
        exact (if_neg heid).symm

/-- A changed condition that the database does not take aborts. -/
theorem upsert_refused {existing : Option (String × PointRow)}
    (hexisting : ∀ e ∈ existing, db.decision_points.get? e.1 = some e.2)
    (hchanged : ∀ e ∈ existing, e.2.condition_fingerprint ≠ input.condition_fingerprint)
    (hstorable : ¬ Storable db input existing known) :
    ∃ e, upsertDecisionPoint input existing known db = .error e := by
  have hrefused : db.decision_points.get? input.id ≠ none ∨ known = false ∨
      (input.phase_id = none ∧ input.task_id ≠ none) ∨
        ∃ e ∈ existing, e.2.project_id ≠ input.project_id := by
    by_contra hnot
    push Not at hnot
    obtain ⟨hfresh, hknown, hscope, hproject⟩ := hnot
    exact hstorable ⟨hfresh, by simpa using hknown, hscope, hproject⟩
  rcases existing with _ | ⟨eid, erow⟩
  · obtain ⟨e, he⟩ : ∃ e, insertDecisionPoint ⟨input, 1, none⟩ known db = .error e := by
      refine insert_error _ ?_
      rcases hrefused with h | h | h | ⟨e, he, -⟩
      · exact .inl h
      · exact .inr (.inl h)
      · exact .inr (.inr (.inl h))
      · cases he
    exact ⟨e, by unfold upsertDecisionPoint; rw [he]; rfl⟩
  · obtain ⟨db₁, hsupersede, hget₁⟩ := supersedeOpen_ok
      ⟨input, erow.condition_revision + 1, some eid⟩ (hexisting _ rfl)
    obtain ⟨e, he⟩ : ∃ e,
        insertDecisionPoint ⟨input, erow.condition_revision + 1, some eid⟩ known db₁ = .error e := by
      refine insert_error _ ?_
      rcases hrefused with h | h | h | ⟨e, he, hproject⟩
      · refine .inl ?_
        show db₁.decision_points.get? input.id ≠ none
        rw [hget₁]
        split_ifs
        · simp
        · exact h
      · exact .inr (.inl h)
      · exact .inr (.inr (.inl h))
      · cases he
        refine .inr (.inr (.inr fun hlinked => ?_))
        obtain ⟨row, hrow, hsame, -⟩ := hlinked eid rfl
        rw [hget₁, if_pos rfl] at hrow
        cases hrow
        rw [closed_fields] at hsame
        exact hproject hsame
    refine ⟨e, ?_⟩
    unfold upsertDecisionPoint supersedeAndInsertDecisionPoint
    dsimp only
    rw [if_neg (hchanged _ rfl), hsupersede]
    show Except.map _ (insertDecisionPoint _ known db₁ >>= _) = _
    rw [he]
    rfl

end

/-! ### Every run -/

section

variable {s : System} {a : Action} {key : String} {known : Bool} {call : Call}

/-- Every condition has a chain, and a transaction holds the latest revision of its condition. -/
structure Inv (s : System) : Prop where
  chains : ∀ key, ∃ ids, Chain s.db.decision_points key ids
  inflight : ∀ key call, s.inflight.get? key = some call →
    call.input.condition_key = key ∧ call.existing = latest s.db.decision_points key

theorem inv_initial : Inv initial where
  chains _ := ⟨[], ⟨fun id row hrow => by simp [initial] at hrow, fun i id hi => by simp at hi⟩⟩
  inflight key call hcall := by simp [initial] at hcall

/-- **A commit**: the condition is unchanged, or it has changed and the database takes the new revision, or not. -/
theorem commit_cases (h : Inv s) (hcall : s.inflight.get? key = some call) (known : Bool) :
    (∃ e, latest s.db.decision_points key = some e ∧
      e.2.condition_fingerprint = call.input.condition_fingerprint ∧
      step s (.commit key known) = ⟨s.db, s.inflight.delete key, s.answers ++ [(call.input,
        .ok (if e.2.status = .opened then .existing e else .closed_unchanged e))]⟩) ∨
    ((∀ e ∈ latest s.db.decision_points key,
        e.2.condition_fingerprint ≠ call.input.condition_fingerprint) ∧
      ((Storable s.db call.input (latest s.db.decision_points key) known ∧ ∃ db',
          Inserted s.db.decision_points db'.decision_points call.input (latest s.db.decision_points key) ∧
          step s (.commit key known) = ⟨db', s.inflight.delete key, s.answers ++ [(call.input,
            .ok (openedResult call.input (latest s.db.decision_points key)))]⟩) ∨
        (¬ Storable s.db call.input (latest s.db.decision_points key) known ∧ ∃ e,
          step s (.commit key known) =
            ⟨s.db, s.inflight.delete key, s.answers ++ [(call.input, .error e)]⟩))) := by
  obtain ⟨ids, hchain⟩ := h.chains key
  obtain ⟨hkey, hexisting⟩ := h.inflight key call hcall
  have hstep : step s (.commit key known) =
      ⟨commit s.db ((upsertDecisionPoint call.input call.existing known s.db).map Prod.snd),
        s.inflight.delete key, s.answers ++ [(call.input,
          (upsertDecisionPoint call.input call.existing known s.db).map Prod.fst)]⟩ := by
    unfold step
    simp only [hcall]
  rw [hexisting] at hstep
  by_cases hsame : ∃ e ∈ latest s.db.decision_points key,
      e.2.condition_fingerprint = call.input.condition_fingerprint
  · obtain ⟨e, he, hfingerprint⟩ := hsame
    refine .inl ⟨e, he, hfingerprint, ?_⟩
    have hrun : upsertDecisionPoint call.input (latest s.db.decision_points key) known s.db =
        .ok (if e.2.status = .opened then .existing e else .closed_unchanged e, s.db) := by
      rw [Option.mem_def.mp he]
      unfold upsertDecisionPoint
      dsimp only
      rw [if_pos hfingerprint]
      split <;> rfl
    rw [hstep, hrun]
    rfl
  · have hchanged : ∀ e ∈ latest s.db.decision_points key,
        e.2.condition_fingerprint ≠ call.input.condition_fingerprint :=
      fun e he heq => hsame ⟨e, he, heq⟩
    refine .inr ⟨hchanged, ?_⟩
    by_cases hstorable : Storable s.db call.input (latest s.db.decision_points key) known
    · obtain ⟨db', hrun, hinserted⟩ := upsert_changed hchain hkey rfl hchanged hstorable
      refine .inl ⟨hstorable, db', hinserted, ?_⟩
      rw [hstep, hrun]
      rfl
    · obtain ⟨e, hrun⟩ := upsert_refused (fun e he => (latest_mem hchain he).1) hchanged hstorable
      refine .inr ⟨hstorable, e, ?_⟩
      rw [hstep, hrun]
      rfl

/-- A disposition leaves the table, or updates an open point that no transaction holds. -/
theorem dispose_cases (s : System) (id : String) (disposition : Disposition) (at_ : ℤ) :
    step s (.dispose id disposition at_) = s ∨
      ∃ row, s.db.decision_points.get? id = some row ∧ row.status = .opened ∧ ¬ Locked s.inflight id ∧
        step s (.dispose id disposition at_) = { s with db := { s.db with
          decision_points := s.db.decision_points.set id (row.dispose disposition at_) } } := by
  unfold step
  dsimp only
  split
  · exact .inl rfl
  · rename_i hfree
    unfold dispose
    split
    · rename_i row hrow
      split
      · rename_i hopen
        exact .inr ⟨row, hrow, hopen, hfree, rfl⟩
      · exact .inl rfl
    · exact .inl rfl

theorem Chain.dispose {points : OrdMap String PointRow} {ids : List String} (h : Chain points key ids)
    {id : String} {row : PointRow} (hrow : points.get? id = some row) (disposition : Disposition) (at_ : ℤ) :
    Chain (points.set id (row.dispose disposition at_)) key ids :=
  h.update hrow rfl rfl rfl rfl fun hopen => by cases disposition <;> cases hopen

/-- **The step lemma.** -/
theorem inv_step (h : Inv s) (a : Action) : Inv (step s a) := by
  cases a with
  | lock input =>
    unfold step
    dsimp only
    split
    · exact ⟨h.chains, h.inflight⟩
    split
    · exact h
    · refine ⟨h.chains, fun key call hcall => ?_⟩
      dsimp only at hcall
      rw [OrdMap.get?_set] at hcall
      split_ifs at hcall with hkey
      · cases hcall
        exact ⟨hkey, by rw [← hkey]⟩
      · exact h.inflight key call hcall
  | commit key known =>
    rcases hcall : s.inflight.get? key with _ | call
    · have hsame : step s (.commit key known) = s := by
        unfold step
        simp only [hcall]
      rw [hsame]
      exact h
    have hrest : ∀ other call, (s.inflight.delete key).get? other = some call →
        other ≠ key ∧ s.inflight.get? other = some call := by
      intro other call hother
      rw [OrdMap.get?_delete] at hother
      split_ifs at hother with hne
      · exact ⟨Ne.symm hne, hother⟩
    rcases commit_cases h hcall known with ⟨e, -, -, hstep⟩ | ⟨-, ⟨-, db', hinserted, hstep⟩ | ⟨-, e, hstep⟩⟩
    · rw [hstep]
      exact ⟨h.chains, fun other call hother => h.inflight other call (hrest other call hother).2⟩
    · obtain ⟨hkey, -⟩ := h.inflight key call hcall
      obtain ⟨ids, hchain⟩ := h.chains key
      have hother : ∀ other ids, other ≠ key → Chain s.db.decision_points other ids →
          Chain db'.decision_points other ids := by
        intro other ids hne hold
        refine hold.inserted_other (hkey.trans_ne hne.symm) (fun e he => ?_) hinserted
        obtain ⟨hrow, hrowKey⟩ := latest_mem hchain he
        exact ⟨hrow, hrowKey.trans_ne hne.symm⟩
      rw [hstep]
      refine ⟨fun other => ?_, fun other otherCall hget => ?_⟩
      · by_cases hne : other = key
        · subst hne
          exact ⟨_, hchain.inserted hkey hinserted⟩
        · obtain ⟨ids, hold⟩ := h.chains other
          exact ⟨ids, hother other ids hne hold⟩
      · obtain ⟨hne, hold⟩ := hrest other otherCall hget
        obtain ⟨hotherKey, hexisting⟩ := h.inflight other otherCall hold
        refine ⟨hotherKey, ?_⟩
        obtain ⟨ids, hotherChain⟩ := h.chains other
        rw [hexisting]
        refine (latest_congr hotherChain (hother other ids hne hotherChain) fun e he => ?_).symm
        obtain ⟨hrow, hrowKey⟩ := latest_mem hotherChain he
        obtain ⟨hfresh, hget'⟩ := hinserted
        rw [hget']
        rw [if_neg (by rintro heq; rw [heq, hfresh] at hrow; cases hrow)]
        rcases hlatest : latest s.db.decision_points key with _ | ⟨eid, erow⟩
        · rfl
        · obtain ⟨herow, herowKey⟩ := latest_mem hchain hlatest
          refine if_neg fun heq => ?_
          rw [heq] at hrow
          cases herow.symm.trans hrow
          exact hne (hrowKey.symm.trans herowKey)
    · rw [hstep]
      exact ⟨h.chains, fun other call hother => h.inflight other call (hrest other call hother).2⟩
  | abort key =>
    refine ⟨h.chains, fun other call hother => ?_⟩
    have hget : (s.inflight.delete key).get? other = some call := hother
    rw [OrdMap.get?_delete] at hget
    split_ifs at hget
    · exact h.inflight other call hget
  | dispose id disposition at_ =>
    rcases dispose_cases s id disposition at_ with hsame | ⟨row, hrow, -, hfree, hstep⟩
    · rw [hsame]
      exact h
    · rw [hstep]
      refine ⟨fun key => ?_, fun key call hcall => ?_⟩
      · obtain ⟨ids, hchain⟩ := h.chains key
        exact ⟨ids, hchain.dispose hrow disposition at_⟩
      · obtain ⟨hkey, hexisting⟩ := h.inflight key call hcall
        obtain ⟨ids, hchain⟩ := h.chains key
        refine ⟨hkey, hexisting.trans ?_⟩
        refine (latest_congr hchain (hchain.dispose hrow disposition at_) fun e he => ?_).symm
        refine OrdMap.get?_set_ne _ _ fun heq => hfree ⟨call, OrdMap.mem_values.mpr ⟨key, hcall⟩, ?_⟩
        rw [hexisting, he, heq]
        rfl

/-- What a step does with the points that exist, and when it opens one. -/
structure Settled (s : System) (a : Action) : Prop where
  kept : ∀ id row, s.db.decision_points.get? id = some row → ∃ row',
    (step s a).db.decision_points.get? id = some row' ∧ row'.toPointFields = row.toPointFields ∧
      row'.condition_revision = row.condition_revision ∧
      (row.status = .resolved ∨ row.status = .dismissed →
        row'.status = row.status ∧ row'.resolved_at = row.resolved_at)
  /-- An upsert opens a revision exactly when the fingerprint differs and the database takes it. -/
  inserts : ∀ key known call, a = .commit key known → s.inflight.get? key = some call →
    (Inserted s.db.decision_points (step s a).db.decision_points call.input
        (latest s.db.decision_points key) ↔
      (∀ e ∈ latest s.db.decision_points key,
        e.2.condition_fingerprint ≠ call.input.condition_fingerprint) ∧
      Storable s.db call.input (latest s.db.decision_points key) known)
  /-- It answers with the latest point, or with the opened one, or it throws and writes nothing. -/
  answered : ∀ key known call, a = .commit key known → s.inflight.get? key = some call →
    ∃ answer, (step s a).answers = s.answers ++ [(call.input, answer)] ∧
      ((∃ e, latest s.db.decision_points key = some e ∧
          e.2.condition_fingerprint = call.input.condition_fingerprint ∧ (step s a).db = s.db ∧
          answer = .ok (if e.2.status = .opened then .existing e else .closed_unchanged e)) ∨
        (Inserted s.db.decision_points (step s a).db.decision_points call.input
            (latest s.db.decision_points key) ∧
          answer = .ok (openedResult call.input (latest s.db.decision_points key))) ∨
        ((∃ e, answer = .error e) ∧ (step s a).db = s.db))
  others : (∀ key known, a ≠ .commit key known) → ∀ id,
    (step s a).db.decision_points.get? id = none ↔ s.db.decision_points.get? id = none

/-- An inserted revision is new. -/
theorem not_inserted (points : OrdMap String PointRow) (input : PointInput)
    (existing : Option (String × PointRow)) : ¬ Inserted points points input existing := by
  rintro ⟨hfresh, hget⟩
  rw [hget, if_pos rfl] at hfresh
  cases hfresh

theorem Inserted.kept {points points' : OrdMap String PointRow} {input : PointInput}
    {existing : Option (String × PointRow)} (h : Inserted points points' input existing)
    (hexisting : ∀ e ∈ existing, points.get? e.1 = some e.2) {id : String} {row : PointRow}
    (hrow : points.get? id = some row) : ∃ row',
    points'.get? id = some row' ∧ row'.toPointFields = row.toPointFields ∧
      row'.condition_revision = row.condition_revision ∧
      (row.status = .resolved ∨ row.status = .dismissed →
        row'.status = row.status ∧ row'.resolved_at = row.resolved_at) := by
  obtain ⟨hfresh, hget⟩ := h
  have hne : id ≠ input.id := by
    rintro rfl
    rw [hfresh] at hrow
    cases hrow
  rw [hget, if_neg hne]
  rcases existing with _ | ⟨eid, erow⟩
  · exact ⟨row, hrow, rfl, rfl, fun _ => ⟨rfl, rfl⟩⟩
  · have herow := hexisting _ rfl
    dsimp only at herow ⊢
    split_ifs with heid
    · subst heid
      cases herow.symm.trans hrow
      refine ⟨_, rfl, closed_fields _ _, closed_revision _ _, fun hdisposed => ?_⟩
      have hclosed : row.closed input.occurred_at = row := by
        unfold PointRow.closed
        rw [if_neg]
        rcases hdisposed with hd | hd <;> simp [hd]
      rw [hclosed]
      exact ⟨rfl, rfl⟩
    · exact ⟨row, hrow, rfl, rfl, fun _ => ⟨rfl, rfl⟩⟩

/-- What a step that is no commit does with the points. -/
theorem points_step (s : System) (a : Action) (ha : ∀ key known, a ≠ .commit key known) :
    (step s a).db.decision_points = s.db.decision_points ∨ ∃ id row disposition at_,
      s.db.decision_points.get? id = some row ∧ row.status = .opened ∧
        (step s a).db.decision_points = s.db.decision_points.set id (row.dispose disposition at_) := by
  cases a with
  | lock input =>
    refine .inl ?_
    unfold step
    dsimp only
    split
    · rfl
    split <;> rfl
  | commit key known => exact absurd rfl (ha key known)
  | abort key => exact .inl rfl
  | dispose id disposition at_ =>
    rcases dispose_cases s id disposition at_ with hsame | ⟨row, hrow, hopen, -, hstep⟩
    · exact .inl (by rw [hsame])
    · exact .inr ⟨id, row, disposition, at_, hrow, hopen, by rw [hstep]⟩

theorem kept_step (h : Inv s) (a : Action) {id : String} {row : PointRow}
    (hrow : s.db.decision_points.get? id = some row) : ∃ row',
    (step s a).db.decision_points.get? id = some row' ∧ row'.toPointFields = row.toPointFields ∧
      row'.condition_revision = row.condition_revision ∧
      (row.status = .resolved ∨ row.status = .dismissed →
        row'.status = row.status ∧ row'.resolved_at = row.resolved_at) := by
  have hsame : ∃ row', s.db.decision_points.get? id = some row' ∧ row'.toPointFields = row.toPointFields ∧
      row'.condition_revision = row.condition_revision ∧
      (row.status = .resolved ∨ row.status = .dismissed →
        row'.status = row.status ∧ row'.resolved_at = row.resolved_at) :=
    ⟨row, hrow, rfl, rfl, fun _ => ⟨rfl, rfl⟩⟩
  by_cases ha : ∃ key known, a = .commit key known
  · obtain ⟨key, known, rfl⟩ := ha
    rcases hcall : s.inflight.get? key with _ | call
    · have hstep : step s (.commit key known) = s := by
        unfold step
        simp only [hcall]
      rw [hstep]
      exact hsame
    · obtain ⟨ids, hchain⟩ := h.chains key
      rcases commit_cases h hcall known with ⟨_, -, -, hstep⟩ | ⟨-, ⟨-, db', hinserted, hstep⟩ | ⟨-, _, hstep⟩⟩
      · rw [hstep]
        exact hsame
      · rw [hstep]
        exact hinserted.kept (fun e he => (latest_mem hchain he).1) hrow
      · rw [hstep]
        exact hsame
  · rcases points_step s a (fun key known heq => ha ⟨key, known, heq⟩) with
      hsteps | ⟨other, orow, disposition, at_, horow, hopen, hsteps⟩
    · rw [hsteps]
      exact hsame
    · rw [hsteps, OrdMap.get?_set]
      split_ifs with hid
      · subst hid
        cases horow.symm.trans hrow
        refine ⟨_, rfl, rfl, rfl, fun hdisposed => ?_⟩
        rw [hopen] at hdisposed
        rcases hdisposed with hd | hd <;> cases hd
      · exact hsame

theorem settled_step (h : Inv s) (a : Action) : Settled s a where
  kept id row hrow := kept_step h a hrow
  inserts key known call ha hcall := by
    subst ha
    rcases commit_cases h hcall known with ⟨e, he, hsame, hstep⟩ | ⟨hchanged, hrest⟩
    · rw [hstep]
      exact iff_of_false (not_inserted _ _ _) fun hiff => hiff.1 e he hsame
    · rcases hrest with ⟨hstorable, db', hinserted, hstep⟩ | ⟨hstorable, e, hstep⟩
      · rw [hstep]
        exact iff_of_true hinserted ⟨hchanged, hstorable⟩
      · rw [hstep]
        exact iff_of_false (not_inserted _ _ _) fun hiff => hstorable hiff.2
  answered key known call ha hcall := by
    subst ha
    rcases commit_cases h hcall known with ⟨e, he, hsame, hstep⟩ | ⟨-, hrest⟩
    · rw [hstep]
      exact ⟨_, rfl, .inl ⟨e, he, hsame, rfl, rfl⟩⟩
    · rcases hrest with ⟨-, db', hinserted, hstep⟩ | ⟨-, e, hstep⟩
      · rw [hstep]
        exact ⟨_, rfl, .inr (.inl ⟨hinserted, rfl⟩)⟩
      · rw [hstep]
        exact ⟨_, rfl, .inr (.inr ⟨⟨e, rfl⟩, rfl⟩)⟩
  others ha id := by
    rcases points_step s a ha with hsteps | ⟨other, row, disposition, at_, hrow, -, hsteps⟩
    · rw [hsteps]
    · rw [hsteps, OrdMap.get?_set]
      split_ifs with hid
      · subst hid
        simp [hrow]
      · rfl

end

end Norns.Persistence.Decisions
