import Mathlib.Data.List.ReduceOption
import Norns.Lib.OrdMap
import Norns.Lib.Run

/-! # Application commands

`executeV2ApplicationCommand` (`v2/application.ts`) over the table `idempotency_records`. A call is a transaction
that tries the advisory lock of its scope, claims the key, runs `mutate` behind a savepoint and commits or releases
the claim; between its steps other calls may do theirs. What `mutate` writes and how it ends is arbitrary. Bodies
are JSON values, which the table keeps as they are.

* `Inv`, `inv_step`: the records and the transactions that hold a lock;
* `settled_step`, `run_once`: every run. -/

namespace Norns.Persistence.Commands

open Norns.Lib Norns.Lib.Run

/-! ### Records -/

inductive V2CommandFamily
  | project | phase | strategy_approval | task_execution | decision_resolution | human_direction | budget
  | integration | debate
  deriving DecidableEq, Repr

def V2CommandFamily.text : V2CommandFamily → String
  | .project => "project"
  | .phase => "phase"
  | .strategy_approval => "strategy_approval"
  | .task_execution => "task_execution"
  | .decision_resolution => "decision_resolution"
  | .human_direction => "human_direction"
  | .budget => "budget"
  | .integration => "integration"
  | .debate => "debate"

/-- The key of an idempotency record. -/
structure Scope where
  actor_id : String
  command_family : V2CommandFamily
  idempotency_key : String
  deriving DecidableEq, Repr

def idempotencyLockKey (scope : Scope) : String :=
  "idempotency:" ++ scope.actor_id ++ ":" ++ scope.command_family.text ++ ":" ++ scope.idempotency_key

inductive Outcome
  | succeeded | failed
  deriving DecidableEq, Repr

/-- `V2CommandResponseEnvelope`. -/
structure Response (β : Type) where
  outcome : Outcome
  retriable : Bool
  http_status : ℤ
  body : β
  committed_at : ℤ

inductive V2IdempotencyStatus
  | in_progress | committed_succeeded | committed_failed
  deriving DecidableEq, Repr

/-- `V2IdempotencyRecord`. -/
structure Record (β : Type) where
  scope : Scope
  request_fingerprint : String
  command_id : String
  status : V2IdempotencyStatus
  response : Option (Response β)
  created_at : ℤ
  updated_at : ℤ
  retain_until : ℤ
  asynchronous_work_until : Option ℤ
  rollback_window_until : Option ℤ

def V2_IDEMPOTENCY_MIN_RETENTION_MS : ℤ := 30 * 24 * 60 * 60 * 1000

variable {β ω : Type}

/-- What `V2CommandResponseEnvelope` accepts. -/
def Response.Accepted (r : Response β) : Prop :=
  100 ≤ r.http_status ∧ r.http_status ≤ 599 ∧ ¬ (r.outcome = .succeeded ∧ r.retriable = true)

instance (r : Response β) : Decidable r.Accepted := by unfold Response.Accepted; infer_instance

/-- What `V2IdempotencyRecord` accepts. -/
def Record.Accepted (r : Record β) : Prop :=
  r.created_at + V2_IDEMPOTENCY_MIN_RETENTION_MS ≤ r.retain_until ∧
  (∀ horizon ∈ r.asynchronous_work_until, horizon ≤ r.retain_until) ∧
  (∀ horizon ∈ r.rollback_window_until, horizon ≤ r.retain_until) ∧
  (∀ response ∈ r.response, response.Accepted) ∧
  (r.status = .in_progress ↔ r.response.isNone) ∧
  (r.status = .committed_succeeded → ∀ response ∈ r.response, response.outcome = .succeeded) ∧
  (r.status = .committed_failed → ∀ response ∈ r.response,
    response.outcome = .failed ∧ response.retriable = false)

instance (r : Record β) : Decidable r.Accepted := by unfold Record.Accepted; infer_instance

/-! ### Calls -/

/-- A command, with its fingerprint. -/
structure Call where
  scope : Scope
  request_fingerprint : String
  command_id : String
  asynchronous_work_until : Option ℤ
  rollback_window_until : Option ℤ
  deriving DecidableEq

inductive Disposition (β : Type)
  | proceed
  | command_in_progress (command_id : String)
  | replay (command_id : String) (response : Response β)
  | reject_fingerprint_mismatch (command_id : String)
  | reject_scope_mismatch (command_id : String)

/-- `none` where it throws. -/
def evaluateV2Idempotency (existing : Option (Record β)) (attempt : Call) : Option (Disposition β) :=
  match existing with
  | none => some .proceed
  | some existing =>
    if existing.scope ≠ attempt.scope then some (.reject_scope_mismatch existing.command_id)
    else if existing.request_fingerprint ≠ attempt.request_fingerprint then
      some (.reject_fingerprint_mismatch existing.command_id)
    else if existing.status = .in_progress then some (.command_in_progress existing.command_id)
    else existing.response.map (.replay existing.command_id)

inductive MismatchReason
  | fingerprint_mismatch | scope_mismatch
  deriving DecidableEq, Repr

/-- `V2CommandExecutionResult`, or an exception. -/
inductive Answer (β : Type)
  | executed (command_id : String) (response : Response β)
  | replayed (command_id : String) (response : Response β)
  | command_in_progress (command_id : Option String)
  | idempotency_conflict (command_id : String) (reason : MismatchReason)
  | threw

inductive FailureDisposition
  | terminal | retriable
  deriving DecidableEq, Repr

/-- How `mutate` ends, and what it has written. -/
inductive Mutation (β ω : Type)
  | succeeded (http_status : ℤ) (body : β) (writes : List ω)
  | failed (failure_disposition : FailureDisposition) (http_status : ℤ) (body : β) (writes : List ω)
  | threw (writes : List ω)

/-! ### Transactions -/

/-- What a transaction has written: the row of its key, when it has touched it, and the writes of `mutate`. -/
structure Local (β ω : Type) where
  row : Option (Option (Record β))
  writes : List (Call × List ω)

inductive Stage (β : Type)
  /-- The lock is held. -/
  | locked
  /-- `mutate` runs. -/
  | mutating
  /-- `COMMIT` comes next. -/
  | ended (answer : Answer β)

structure Tx (β ω : Type) where
  call : Call
  here : Local β ω
  savepoint : Option (Local β ω)
  stage : Stage β

structure Database (β ω : Type) where
  idempotency_records : OrdMap Scope (Record β)
  /-- The domain writes of each committed run of `mutate`. -/
  domain : List (Call × List ω)

def Tx.rollbackTo (tx : Tx β ω) : Tx β ω := { tx with here := tx.savepoint.getD tx.here }

def Tx.release (tx : Tx β ω) : Tx β ω := { tx with savepoint := none }

/-- The row of its key, as the transaction sees it. -/
def Tx.row (tx : Tx β ω) (db : Database β ω) : Option (Record β) :=
  tx.here.row.getD (db.idempotency_records.get? tx.call.scope)

def Tx.write (tx : Tx β ω) (row : Option (Record β)) : Tx β ω :=
  { tx with here := { tx.here with row := some row } }

/-- `none` where the claim has disappeared. -/
def Tx.commitIdempotency (tx : Tx β ω) (db : Database β ω) (status : V2IdempotencyStatus)
    (response : Response β) (updatedAt : ℤ) : Option (Tx β ω) :=
  (tx.row db).map fun row => tx.write (some { row with
    status := status
    response := some response
    updated_at := updatedAt })

/-- `none` where the claim has disappeared. -/
def Tx.releaseIdempotency (tx : Tx β ω) (db : Database β ω) : Option (Tx β ω) :=
  match tx.row db with
  | some row => if row.status = .in_progress then some (tx.write none) else none
  | none => none

def latestDate (date : ℤ) (dates : List (Option ℤ)) : ℤ := dates.reduceOption.foldl max date

def inProgress (call : Call) (startedAt : ℤ) : Record β where
  scope := call.scope
  request_fingerprint := call.request_fingerprint
  command_id := call.command_id
  status := .in_progress
  response := none
  created_at := startedAt
  updated_at := startedAt
  retain_until := latestDate (startedAt + V2_IDEMPOTENCY_MIN_RETENTION_MS)
    [call.asynchronous_work_until, call.rollback_window_until]
  asynchronous_work_until := call.asynchronous_work_until
  rollback_window_until := call.rollback_window_until

/-- The call from the lock to `mutate`, or to its end. `audited` says whether an audit event can be stored; the
unique index of the command ids may refuse the claim. -/
def claimCommand (db : Database β ω) (tx : Tx β ω) (startedAt : ℤ) (audited : Bool) : Option (Tx β ω) :=
  let existing := tx.row db
  if ∃ r ∈ existing, ¬ r.Accepted then none
  else
    match evaluateV2Idempotency existing tx.call with
    | none => none
    | some (.replay command_id response) => some { tx with stage := .ended (.replayed command_id response) }
    | some (.command_in_progress command_id) =>
      some { tx with stage := .ended (.command_in_progress (some command_id)) }
    | some (.reject_fingerprint_mismatch command_id) =>
      if audited then
        some { tx with stage := .ended (.idempotency_conflict command_id .fingerprint_mismatch) }
      else none
    | some (.reject_scope_mismatch command_id) =>
      if audited then some { tx with stage := .ended (.idempotency_conflict command_id .scope_mismatch) }
      else none
    | some .proceed =>
      if ¬ (inProgress (β := β) tx.call startedAt).Accepted then none
      else if ∃ r ∈ db.idempotency_records.values, r.command_id = tx.call.command_id then none
      else
        let claimed := tx.write (some (inProgress tx.call startedAt))
        some { claimed with
          savepoint := some claimed.here
          stage := .mutating }

/-- The call from the end of `mutate`. -/
def finishCommand (db : Database β ω) (tx : Tx β ω) (mutation : Mutation β ω) (committedAt : ℤ)
    (audited : Bool) : Option (Tx β ω) :=
  match mutation with
  | .threw _ => none
  | .succeeded http_status body writes =>
    let ran := { tx with here := { tx.here with writes := tx.here.writes ++ [(tx.call, writes)] } }
    let response : Response β := ⟨.succeeded, false, http_status, body, committedAt⟩
    if ¬ response.Accepted then none
    else
      (ran.release.commitIdempotency db .committed_succeeded response committedAt).map fun tx =>
        { tx with stage := .ended (.executed tx.call.command_id response) }
  | .failed disposition http_status body writes =>
    let ran := { tx with here := { tx.here with writes := tx.here.writes ++ [(tx.call, writes)] } }
    let response : Response β := ⟨.failed, disposition = .retriable, http_status, body, committedAt⟩
    if ¬ response.Accepted ∨ audited = false then none
    else
      match disposition with
      | .retriable =>
        (ran.rollbackTo.release.releaseIdempotency db).map fun tx =>
          { tx with stage := .ended (.executed tx.call.command_id response) }
      | .terminal =>
        (ran.rollbackTo.release.commitIdempotency db .committed_failed response committedAt).map fun tx =>
          { tx with stage := .ended (.executed tx.call.command_id response) }

/-- `COMMIT`. -/
def Tx.apply (tx : Tx β ω) (db : Database β ω) : Database β ω where
  idempotency_records :=
    match tx.here.row with
    | none => db.idempotency_records
    | some none => db.idempotency_records.delete tx.call.scope
    | some (some row) => db.idempotency_records.set tx.call.scope row
  domain := db.domain ++ tx.here.writes

/-! ### The system -/

structure System (β ω : Type) where
  db : Database β ω
  /-- The transactions in flight, by the advisory lock each holds. -/
  inflight : OrdMap ℤ (Tx β ω)
  answers : List (Call × Answer β)

inductive Action (β ω : Type)
  | start (call : Call)
  | claim (lock startedAt : ℤ) (audited : Bool)
  | mutate (lock : ℤ) (mutation : Mutation β ω) (committedAt : ℤ) (audited : Bool)
  | commit (lock : ℤ)

/-- The transaction goes on, or it has thrown and is rolled back. -/
def System.proceed (s : System β ω) (lock : ℤ) (call : Call) : Option (Tx β ω) → System β ω
  | some tx => { s with inflight := s.inflight.set lock tx }
  | none =>
    { s with
      inflight := s.inflight.delete lock
      answers := s.answers ++ [(call, .threw)] }

/-- Another transaction is claiming the command id: the unique index makes the insert wait for it. -/
def Waits (s : System β ω) (tx : Tx β ω) : Prop :=
  (s.db.idempotency_records.get? tx.call.scope).isNone = true ∧
    ∃ other ∈ s.inflight.values, ∃ row ∈ other.here.row.join, row.command_id = tx.call.command_id

instance (s : System β ω) (tx : Tx β ω) : Decidable (Waits s tx) := by unfold Waits; infer_instance

/-- `hashtextextended` gives the lock of a lock key. -/
def step (hashtextextended : String → ℤ) (s : System β ω) : Action β ω → System β ω
  | .start call =>
    let lock := hashtextextended (idempotencyLockKey call.scope)
    match s.inflight.get? lock with
    | some _ => { s with answers := s.answers ++ [(call, .command_in_progress none)] }
    | none => { s with inflight := s.inflight.set lock ⟨call, ⟨none, []⟩, none, .locked⟩ }
  | .claim lock startedAt audited =>
    match s.inflight.get? lock with
    | some tx =>
      match tx.stage with
      | .locked => if Waits s tx then s else s.proceed lock tx.call (claimCommand s.db tx startedAt audited)
      | _ => s
    | none => s
  | .mutate lock mutation committedAt audited =>
    match s.inflight.get? lock with
    | some tx =>
      match tx.stage with
      | .mutating => s.proceed lock tx.call (finishCommand s.db tx mutation committedAt audited)
      | _ => s
    | none => s
  | .commit lock =>
    match s.inflight.get? lock with
    | some tx =>
      match tx.stage with
      | .ended answer =>
        { db := tx.apply s.db
          inflight := s.inflight.delete lock
          answers := s.answers ++ [(tx.call, answer)] }
      | _ => s
    | none => s

/-- No records and no calls. -/
def initial : System β ω := ⟨⟨.empty, []⟩, .empty, []⟩

/-! ### The records and the transactions -/

section

variable {db db' : Database β ω} {tx tx' : Tx β ω}

/-- The committed runs of `mutate` for a scope. -/
def Database.runs (db : Database β ω) (scope : Scope) : List (Call × List ω) :=
  db.domain.filter fun e => e.1.scope = scope

/-- The records are final and pass their own schema, and a run that is committed has succeeded. -/
structure DbOk (db : Database β ω) : Prop where
  scope : ∀ scope r, db.idempotency_records.get? scope = some r → r.scope = scope
  settled : ∀ scope r, db.idempotency_records.get? scope = some r → r.status ≠ .in_progress ∧ r.Accepted
  once : ∀ scope, (db.runs scope).length ≤ 1
  recorded : ∀ scope, db.runs scope ≠ [] →
    ∃ r, db.idempotency_records.get? scope = some r ∧ r.status = .committed_succeeded

/-- The record of a call's response. -/
structure Records (r : Record β) (call : Call) (response : Response β) : Prop where
  scope : r.scope = call.scope
  request_fingerprint : r.request_fingerprint = call.request_fingerprint
  command_id : r.command_id = call.command_id
  response : r.response = some response
  accepted : r.Accepted

/-- A transaction that holds a lock. -/
inductive TxOk (db : Database β ω) (tx : Tx β ω) : Prop
  | locked (stage : tx.stage = .locked) (here : tx.here = ⟨none, []⟩)
  | mutating (stage : tx.stage = .mutating) (free : db.idempotency_records.get? tx.call.scope = none)
      (startedAt : ℤ) (here : tx.here = ⟨some (some (inProgress tx.call startedAt)), []⟩)
      (accepted : (inProgress (β := β) tx.call startedAt).Accepted) (saved : tx.savepoint = some tx.here)
  | refused (r : Record β) (answer : Answer β) (stage : tx.stage = .ended answer)
      (found : db.idempotency_records.get? tx.call.scope = some r) (here : tx.here = ⟨none, []⟩)
      (answer_eq : (r.request_fingerprint = tx.call.request_fingerprint ∧
          ∃ response, r.response = some response ∧ answer = .replayed r.command_id response) ∨
        (r.request_fingerprint ≠ tx.call.request_fingerprint ∧
          answer = .idempotency_conflict r.command_id .fingerprint_mismatch))
  | released (response : Response β) (stage : tx.stage = .ended (.executed tx.call.command_id response))
      (free : db.idempotency_records.get? tx.call.scope = none) (here : tx.here = ⟨some none, []⟩)
      (outcome : response.outcome = .failed ∧ response.retriable = true)
  | recorded (response : Response β) (r : Record β) (writes : List (Call × List ω))
      (stage : tx.stage = .ended (.executed tx.call.command_id response))
      (free : db.idempotency_records.get? tx.call.scope = none) (here : tx.here = ⟨some (some r), writes⟩)
      (records : Records r tx.call response)
      (kind : (r.status = .committed_succeeded ∧ response.outcome = .succeeded ∧
          ∃ w, writes = [(tx.call, w)]) ∨
        (r.status = .committed_failed ∧ response.outcome = .failed ∧ response.retriable = false ∧
          writes = []))

/-- A transaction depends on the row of its key. -/
theorem TxOk.congr (h : TxOk db tx)
    (hsame : db'.idempotency_records.get? tx.call.scope = db.idempotency_records.get? tx.call.scope) :
    TxOk db' tx := by
  cases h with
  | locked stage here => exact .locked stage here
  | mutating stage free startedAt here accepted saved =>
    exact .mutating stage (hsame.trans free) startedAt here accepted saved
  | refused r answer stage found here answer_eq => exact .refused r answer stage (hsame.trans found) here answer_eq
  | released response stage free here outcome => exact .released response stage (hsame.trans free) here outcome
  | recorded response r writes stage free here records kind =>
    exact .recorded response r writes stage (hsame.trans free) here records kind

theorem le_foldl_max (dates : List ℤ) : ∀ date, date ≤ dates.foldl max date ∧
    ∀ d ∈ dates, d ≤ dates.foldl max date := by
  induction dates with
  | nil => exact fun date => ⟨le_rfl, fun d hd => nomatch hd⟩
  | cons head rest ih =>
    intro date
    obtain ⟨hbase, hrest⟩ := ih (max date head)
    refine ⟨(le_max_left _ _).trans hbase, fun d hd => ?_⟩
    rcases List.mem_cons.mp hd with rfl | hd
    · exact (le_max_right _ _).trans hbase
    · exact hrest d hd

/-- The claim passes the schema of the records. -/
theorem inProgress_accepted (call : Call) (startedAt : ℤ) :
    (inProgress (β := β) call startedAt).Accepted := by
  obtain ⟨hbase, hdates⟩ := le_foldl_max
    [call.asynchronous_work_until, call.rollback_window_until].reduceOption
    (startedAt + V2_IDEMPOTENCY_MIN_RETENTION_MS)
  have hdate : ∀ d : ℤ, some d ∈ [call.asynchronous_work_until, call.rollback_window_until] →
      d ≤ (inProgress (β := β) call startedAt).retain_until :=
    fun d hd => hdates d (List.reduceOption_mem_iff.mpr hd)
  refine ⟨hbase, fun d hd => hdate d ?_, fun d hd => hdate d ?_, ?_, by simp [inProgress], ?_, ?_⟩
  · rw [← Option.mem_def.mp hd]
    simp [inProgress]
  · rw [← Option.mem_def.mp hd]
    simp [inProgress]
  · intro response hresponse
    cases hresponse
  · intro hstatus
    cases hstatus
  · intro hstatus
    cases hstatus

/-- **The claim**: a recorded key is replayed or refused, a free one is claimed. -/
theorem claim_ok (hdb : DbOk db) (hhere : tx.here = ⟨none, []⟩) {startedAt : ℤ}
    {audited : Bool} (h : claimCommand db tx startedAt audited = some tx') :
    tx'.call = tx.call ∧ tx'.stage ≠ .locked ∧ TxOk db tx' := by
  have hrow : tx.row db = db.idempotency_records.get? tx.call.scope := by
    unfold Tx.row
    rw [hhere]
    rfl
  unfold claimCommand at h
  dsimp only at h
  rw [hrow] at h
  rcases hfound : db.idempotency_records.get? tx.call.scope with _ | r
  · rw [hfound] at h
    simp only [Option.mem_def, reduceCtorEq, false_and, exists_false, if_false, evaluateV2Idempotency] at h
    split at h
    · cases h
    split at h
    · cases h
    rename_i haccepted _
    cases h
    refine ⟨rfl, by simp, .mutating rfl hfound startedAt ?_ (not_not.mp haccepted) rfl⟩
    show (⟨some (some _), tx.here.writes⟩ : Local β ω) = _
    rw [hhere]
    rfl
  · obtain ⟨hstatus, haccepted⟩ := hdb.settled _ _ hfound
    have hscope := hdb.scope _ _ hfound
    rw [hfound, if_neg (by rintro ⟨r', hr', hnot⟩; cases hr'; exact hnot haccepted)] at h
    unfold evaluateV2Idempotency at h
    simp only [hscope, ne_eq, not_true_eq_false, if_false, hstatus] at h
    by_cases hfingerprint : r.request_fingerprint = tx.call.request_fingerprint
    · obtain ⟨response, hresponse⟩ : ∃ response, r.response = some response := by
        rcases hr : r.response with _ | response
        · exact absurd (haccepted.2.2.2.2.1.mpr (by rw [hr]; rfl)) hstatus
        · exact ⟨response, rfl⟩
      rw [if_neg (not_not.mpr hfingerprint), hresponse] at h
      cases h
      exact ⟨rfl, by simp, .refused r _ rfl hfound hhere (.inl ⟨hfingerprint, response, hresponse, rfl⟩)⟩
    · rw [if_pos hfingerprint] at h
      dsimp only at h
      split at h
      · cases h
        exact ⟨rfl, by simp, .refused r _ rfl hfound hhere (.inr ⟨hfingerprint, rfl⟩)⟩
      · cases h

theorem claim_recorded (hdb : DbOk db) (hhere : tx.here = ⟨none, []⟩) (startedAt : ℤ) (audited : Bool)
    {r : Record β} (hfound : db.idempotency_records.get? tx.call.scope = some r)
    (hsame : r.request_fingerprint = tx.call.request_fingerprint) :
    claimCommand db tx startedAt audited ≠ none := by
  obtain ⟨hstatus, haccepted⟩ := hdb.settled _ _ hfound
  have hrow : tx.row db = some r := by
    unfold Tx.row
    rw [hhere]
    exact hfound
  obtain ⟨response, hresponse⟩ : ∃ response, r.response = some response := by
    rcases hr : r.response with _ | response
    · exact absurd (haccepted.2.2.2.2.1.mpr (by rw [hr]; rfl)) hstatus
    · exact ⟨response, rfl⟩
  unfold claimCommand
  dsimp only
  rw [hrow, if_neg (by rintro ⟨r', hr', hnot⟩; cases hr'; exact hnot haccepted)]
  unfold evaluateV2Idempotency
  simp [hdb.scope _ _ hfound, hsame, hstatus, hresponse]

theorem claim_free (hhere : tx.here = ⟨none, []⟩) (startedAt : ℤ) (audited : Bool)
    (hfree : db.idempotency_records.get? tx.call.scope = none)
    (hfresh : ∀ r ∈ db.idempotency_records.values, r.command_id ≠ tx.call.command_id) :
    ∃ tx', claimCommand db tx startedAt audited = some tx' ∧ tx'.call = tx.call ∧ tx'.stage = .mutating := by
  have hrow : tx.row db = none := by
    unfold Tx.row
    rw [hhere]
    exact hfree
  have hnone : ¬ ∃ r ∈ db.idempotency_records.values, r.command_id = tx.call.command_id := by
    rintro ⟨r, hr, heq⟩
    exact hfresh r hr heq
  unfold claimCommand
  dsimp only
  rw [hrow]
  simp only [Option.mem_def, reduceCtorEq, false_and, exists_false, if_false, evaluateV2Idempotency]
  rw [if_neg (not_not.mpr (inProgress_accepted tx.call startedAt)), if_neg hnone]
  exact ⟨_, rfl, rfl, rfl⟩

/-- **The end of `mutate`**: the claim is recorded or released. -/
theorem finish_ok (hstage : tx.stage = .mutating) (htx : TxOk db tx) {mutation : Mutation β ω}
    {committedAt : ℤ} {audited : Bool} (h : finishCommand db tx mutation committedAt audited = some tx') :
    tx'.call = tx.call ∧ TxOk db tx' := by
  cases htx with
  | locked stage here => rw [stage] at hstage; cases hstage
  | refused r answer stage => rw [stage] at hstage; cases hstage
  | released response stage => rw [stage] at hstage; cases hstage
  | recorded response r writes stage => rw [stage] at hstage; cases hstage
  | mutating stage free startedAt here accepted saved =>
    obtain ⟨call, ⟨row, done⟩, savepoint, stage'⟩ := tx
    dsimp only at here saved free
    cases here
    subst saved
    obtain ⟨hretain, hasync, hrollback, -⟩ := accepted
    cases mutation with
    | threw writes => cases h
    | succeeded http_status body writes =>
      unfold finishCommand at h
      dsimp only at h
      split at h
      · cases h
      rename_i hresponse
      cases h
      refine ⟨rfl, .recorded _ _ _ rfl free rfl ⟨rfl, rfl, rfl, rfl, hretain, hasync, hrollback, ?_, ?_, ?_, ?_⟩
        (.inl ⟨rfl, rfl, writes, rfl⟩)⟩
      · rintro response hmem
        cases hmem
        exact not_not.mp hresponse
      · simp
      · rintro - response hmem
        cases hmem
        rfl
      · rintro hfailed
        cases hfailed
    | failed disposition http_status body writes =>
      unfold finishCommand at h
      dsimp only at h
      split at h
      · cases h
      rename_i hresponse
      obtain ⟨haccepted, -⟩ := not_or.mp hresponse
      cases disposition with
      | retriable =>
        cases h
        exact ⟨rfl, .released _ rfl free rfl ⟨rfl, by simp⟩⟩
      | terminal =>
        cases h
        refine ⟨rfl, .recorded _ _ _ rfl free rfl ⟨rfl, rfl, rfl, rfl, hretain, hasync, hrollback, ?_, ?_, ?_, ?_⟩
          (.inr ⟨rfl, rfl, by simp, rfl⟩)⟩
        · rintro response hmem
          cases hmem
          exact not_not.mp haccepted
        · simp
        · rintro hsucceeded
          cases hsucceeded
        · rintro - response hmem
          cases hmem
          exact ⟨rfl, by simp⟩

/-- The other keys keep their rows. -/
theorem apply_other (tx : Tx β ω) (db : Database β ω) {scope : Scope} (h : tx.call.scope ≠ scope) :
    (tx.apply db).idempotency_records.get? scope = db.idempotency_records.get? scope := by
  unfold Tx.apply
  dsimp only
  split
  · rfl
  · exact OrdMap.get?_delete_ne _ h
  · exact OrdMap.get?_set_ne _ _ h

/-- What a commit does. -/
inductive Applied (db : Database β ω) (tx : Tx β ω) (answer : Answer β) : Prop
  | refused (r : Record β) (found : db.idempotency_records.get? tx.call.scope = some r)
      (same : tx.apply db = db)
      (answer_eq : (r.request_fingerprint = tx.call.request_fingerprint ∧
          ∃ response, r.response = some response ∧ answer = .replayed r.command_id response) ∨
        (r.request_fingerprint ≠ tx.call.request_fingerprint ∧
          answer = .idempotency_conflict r.command_id .fingerprint_mismatch))
  | released (response : Response β) (free : db.idempotency_records.get? tx.call.scope = none)
      (same : tx.apply db = db) (answer_eq : answer = .executed tx.call.command_id response)
      (outcome : response.outcome = .failed ∧ response.retriable = true)
  | recorded (response : Response β) (r : Record β) (writes : List (Call × List ω))
      (free : db.idempotency_records.get? tx.call.scope = none)
      (records' : (tx.apply db).idempotency_records = db.idempotency_records.set tx.call.scope r)
      (domain : (tx.apply db).domain = db.domain ++ writes)
      (answer_eq : answer = .executed tx.call.command_id response) (records : Records r tx.call response)
      (kind : (r.status = .committed_succeeded ∧ response.outcome = .succeeded ∧
          ∃ w, writes = [(tx.call, w)]) ∨
        (r.status = .committed_failed ∧ response.outcome = .failed ∧ response.retriable = false ∧
          writes = []))

theorem TxOk.applied (h : TxOk db tx) {answer : Answer β} (hstage : tx.stage = .ended answer) :
    Applied db tx answer := by
  cases h with
  | locked stage here => rw [stage] at hstage; cases hstage
  | mutating stage free startedAt here accepted saved => rw [stage] at hstage; cases hstage
  | refused r answer' stage found here answer_eq =>
    cases stage.symm.trans hstage
    refine .refused r found ?_ answer_eq
    unfold Tx.apply
    rw [here]
    simp
  | released response stage free here outcome =>
    cases stage.symm.trans hstage
    refine .released response free ?_ rfl outcome
    unfold Tx.apply
    rw [here]
    simp [OrdMap.delete_of_get?_none free]
  | recorded response r writes stage free here records kind =>
    cases stage.symm.trans hstage
    refine .recorded response r writes free ?_ ?_ rfl records kind
    · unfold Tx.apply
      rw [here]
    · unfold Tx.apply
      rw [here]

/-- **A commit** keeps the records final and the runs single. -/
theorem Applied.dbOk {answer : Answer β} (h : Applied db tx answer) (hdb : DbOk db) : DbOk (tx.apply db) := by
  cases h with
  | refused r found same answer_eq => rw [same]; exact hdb
  | released response free same answer_eq outcome => rw [same]; exact hdb
  | recorded response r writes free records' domain answer_eq records kind =>
    have hstatus : r.status ≠ .in_progress := by
      rcases kind with ⟨hr, -⟩ | ⟨hr, -⟩ <;> simp [hr]
    have hnone : db.runs tx.call.scope = [] := by
      by_contra hne
      obtain ⟨r', hr', -⟩ := hdb.recorded _ hne
      rw [free] at hr'
      cases hr'
    have hruns : ∀ scope, (tx.apply db).runs scope =
        db.runs scope ++ writes.filter fun e => e.1.scope = scope := by
      intro scope
      unfold Database.runs
      rw [domain, List.filter_append]
    have hwrites : ∀ scope, writes.filter (fun e => decide (e.1.scope = scope)) ≠ [] →
        scope = tx.call.scope ∧ r.status = .committed_succeeded := by
      intro scope hne
      rcases kind with ⟨hr, -, w, rfl⟩ | ⟨-, -, -, rfl⟩
      · refine ⟨?_, hr⟩
        by_contra hother
        exact hne (by simp [Ne.symm hother])
      · exact absurd rfl hne
    have hlength : ∀ scope, (writes.filter fun e => decide (e.1.scope = scope)).length ≤ 1 := by
      intro scope
      refine (List.length_filter_le _ _).trans ?_
      rcases kind with ⟨-, -, w, rfl⟩ | ⟨-, -, -, rfl⟩ <;> simp
    refine ⟨fun scope r' hr' => ?_, fun scope r' hr' => ?_, fun scope => ?_, fun scope hne => ?_⟩
    · rw [records', OrdMap.get?_set] at hr'
      split_ifs at hr' with hscope
      · cases hr'
        rw [records.scope, hscope]
      · exact hdb.scope scope r' hr'
    · rw [records', OrdMap.get?_set] at hr'
      split_ifs at hr' with hscope
      · cases hr'
        exact ⟨hstatus, records.accepted⟩
      · exact hdb.settled scope r' hr'
    · rw [hruns]
      by_cases hscope : scope = tx.call.scope
      · rw [hscope, hnone, List.nil_append]
        exact hlength _
      · have hempty : writes.filter (fun e => decide (e.1.scope = scope)) = [] := by
          by_contra hne
          exact hscope (hwrites scope hne).1
        rw [hempty, List.append_nil]
        exact hdb.once scope
    · rw [records', OrdMap.get?_set]
      rw [hruns] at hne
      split_ifs with hscope
      · subst hscope
        rw [hnone, List.nil_append] at hne
        exact ⟨r, rfl, (hwrites _ hne).2⟩
      · have hempty : writes.filter (fun e => decide (e.1.scope = scope)) = [] := by
          by_contra hne'
          exact hscope (hwrites scope hne').1.symm
        rw [hempty, List.append_nil] at hne
        exact hdb.recorded scope hne

end

/-! ### Every run -/

section

variable {hashtextextended : String → ℤ} {s : System β ω} {a : Action β ω}

/-- The invariant: a transaction in flight holds the lock of its scope. -/
structure Inv (hashtextextended : String → ℤ) (s : System β ω) : Prop where
  db : DbOk s.db
  inflight : ∀ lock tx, s.inflight.get? lock = some tx →
    lock = hashtextextended (idempotencyLockKey tx.call.scope) ∧ TxOk s.db tx

theorem inv_initial : Inv hashtextextended (initial : System β ω) where
  db := ⟨fun scope r hr => by simp [initial] at hr, fun scope r hr => by simp [initial] at hr,
    fun scope => by simp [initial, Database.runs], fun scope hne => by simp [initial, Database.runs] at hne⟩
  inflight lock tx htx := by simp [initial] at htx

/-- The system goes on with a transaction that keeps its lock. -/
theorem Inv.proceed (h : Inv hashtextextended s) {lock : ℤ} {tx : Tx β ω}
    (hget : s.inflight.get? lock = some tx) (next : Option (Tx β ω))
    (hnext : ∀ tx' ∈ next, tx'.call = tx.call ∧ TxOk s.db tx') :
    Inv hashtextextended (s.proceed lock tx.call next) := by
  obtain ⟨hlock, -⟩ := h.inflight lock tx hget
  rcases next with _ | tx'
  · refine ⟨h.db, fun other otx hother => ?_⟩
    have hother' : (s.inflight.delete lock).get? other = some otx := hother
    rw [OrdMap.get?_delete] at hother'
    split_ifs at hother'
    exact h.inflight other otx hother'
  · obtain ⟨hcall, hok⟩ := hnext tx' rfl
    refine ⟨h.db, fun other otx hother => ?_⟩
    have hother' : (s.inflight.set lock tx').get? other = some otx := hother
    rw [OrdMap.get?_set] at hother'
    split_ifs at hother' with heq
    · cases hother'
      refine ⟨?_, hok⟩
      rw [← heq, hlock, hcall]
    · exact h.inflight other otx hother'

/-- What a step is. -/
inductive Steps (hashtextextended : String → ℤ) (s : System β ω) : Action β ω → System β ω → Prop
  | idle (a : Action β ω) : Steps hashtextextended s a s
  | busy (call : Call) (tx : Tx β ω)
      (held : s.inflight.get? (hashtextextended (idempotencyLockKey call.scope)) = some tx) :
      Steps hashtextextended s (.start call)
        { s with answers := s.answers ++ [(call, .command_in_progress none)] }
  | start (call : Call)
      (free : s.inflight.get? (hashtextextended (idempotencyLockKey call.scope)) = none) :
      Steps hashtextextended s (.start call) { s with
        inflight := s.inflight.set (hashtextextended (idempotencyLockKey call.scope))
          ⟨call, ⟨none, []⟩, none, .locked⟩ }
  | claim (lock startedAt : ℤ) (audited : Bool) (tx : Tx β ω) (held : s.inflight.get? lock = some tx)
      (stage : tx.stage = .locked) :
      Steps hashtextextended s (.claim lock startedAt audited)
        (s.proceed lock tx.call (claimCommand s.db tx startedAt audited))
  | mutate (lock : ℤ) (mutation : Mutation β ω) (committedAt : ℤ) (audited : Bool) (tx : Tx β ω)
      (held : s.inflight.get? lock = some tx) (stage : tx.stage = .mutating) :
      Steps hashtextextended s (.mutate lock mutation committedAt audited)
        (s.proceed lock tx.call (finishCommand s.db tx mutation committedAt audited))
  | commit (lock : ℤ) (tx : Tx β ω) (answer : Answer β) (held : s.inflight.get? lock = some tx)
      (stage : tx.stage = .ended answer) :
      Steps hashtextextended s (.commit lock)
        ⟨tx.apply s.db, s.inflight.delete lock, s.answers ++ [(tx.call, answer)]⟩

theorem step_cases (s : System β ω) (a : Action β ω) :
    Steps hashtextextended s a (step hashtextextended s a) := by
  cases a with
  | start call =>
    unfold step
    dsimp only
    split
    · rename_i tx hheld
      exact .busy call tx hheld
    · rename_i hfree
      exact .start call hfree
  | claim lock startedAt audited =>
    unfold step
    dsimp only
    split
    · rename_i tx hheld
      split
      · rename_i hstage
        split
        · exact .idle _
        · exact .claim lock startedAt audited tx hheld hstage
      · exact .idle _
    · exact .idle _
  | mutate lock mutation committedAt audited =>
    unfold step
    dsimp only
    split
    · rename_i tx hheld
      split
      · rename_i hstage
        exact .mutate lock mutation committedAt audited tx hheld hstage
      · exact .idle _
    · exact .idle _
  | commit lock =>
    unfold step
    dsimp only
    split
    · rename_i tx hheld
      split
      · rename_i answer hstage
        exact .commit lock tx answer hheld hstage
      · exact .idle _
    · exact .idle _

/-- The transactions that stay in flight have other keys. -/
theorem Inv.others (h : Inv hashtextextended s) {lock other : ℤ} {tx otx : Tx β ω}
    (hget : s.inflight.get? lock = some tx) (hother : (s.inflight.delete lock).get? other = some otx) :
    s.inflight.get? other = some otx ∧ tx.call.scope ≠ otx.call.scope := by
  rw [OrdMap.get?_delete] at hother
  split_ifs at hother with hne
  refine ⟨hother, fun hscope => hne ?_⟩
  rw [(h.inflight lock tx hget).1, (h.inflight other otx hother).1, hscope]

/-- **The step lemma.** -/
theorem inv_step (h : Inv hashtextextended s) (a : Action β ω) :
    Inv hashtextextended (step hashtextextended s a) := by
  have hsteps : Steps hashtextextended s a (step hashtextextended s a) := step_cases s a
  generalize step hashtextextended s a = s' at hsteps ⊢
  cases hsteps with
  | idle => exact h
  | busy call tx held => exact ⟨h.db, h.inflight⟩
  | start call free =>
    refine ⟨h.db, fun lock tx hget => ?_⟩
    dsimp only at hget
    rw [OrdMap.get?_set] at hget
    split_ifs at hget with hlock
    · cases hget
      exact ⟨hlock.symm, .locked rfl rfl⟩
    · exact h.inflight lock tx hget
  | claim lock startedAt audited tx held stage =>
    obtain ⟨-, hok⟩ := h.inflight lock tx held
    have hhere : tx.here = ⟨none, []⟩ := by
      cases hok with
      | locked stage' here => exact here
      | mutating stage' => rw [stage'] at stage; cases stage
      | refused r answer stage' => rw [stage'] at stage; cases stage
      | released response stage' => rw [stage'] at stage; cases stage
      | recorded response r writes stage' => rw [stage'] at stage; cases stage
    refine h.proceed held _ fun tx' htx' => ?_
    obtain ⟨hcall, -, hok'⟩ := claim_ok h.db hhere htx'
    exact ⟨hcall, hok'⟩
  | mutate lock mutation committedAt audited tx held stage =>
    exact h.proceed held _ fun tx' htx' => finish_ok stage (h.inflight lock tx held).2 htx'
  | commit lock tx answer held stage =>
    have happlied := (h.inflight lock tx held).2.applied stage
    refine ⟨happlied.dbOk h.db, fun other otx hother => ?_⟩
    obtain ⟨hget, hne⟩ := h.others held hother
    obtain ⟨hlock, hok⟩ := h.inflight other otx hget
    exact ⟨hlock, hok.congr (apply_other tx s.db hne)⟩

/-- What a step answers and writes. -/
structure Answers (hashtextextended : String → ℤ) (s s' : System β ω) : Prop where
  kept : ∀ scope r, s.db.idempotency_records.get? scope = some r →
    s'.db.idempotency_records.get? scope = some r
  /-- A recorded key is replayed or refused. -/
  answered : ∀ call answer, s'.answers = s.answers ++ [(call, answer)] → ∀ r,
    s.db.idempotency_records.get? call.scope = some r →
      (answer = .command_in_progress none ∧
        ∃ tx, s.inflight.get? (hashtextextended (idempotencyLockKey call.scope)) = some tx) ∨
      (r.request_fingerprint = call.request_fingerprint ∧
        ∃ response, r.response = some response ∧ answer = .replayed r.command_id response) ∨
      (r.request_fingerprint ≠ call.request_fingerprint ∧
        (answer = .idempotency_conflict r.command_id .fingerprint_mismatch ∨ answer = .threw))
  /-- An executed call has recorded its response, or has left the key free. -/
  executed : ∀ call command_id response, s'.answers = s.answers ++ [(call, .executed command_id response)] →
    command_id = call.command_id ∧ s.db.idempotency_records.get? call.scope = none ∧
      ((response.retriable = false ∧ ∃ r, s'.db.idempotency_records.get? call.scope = some r ∧
          Records r call response) ∨
        (response.retriable = true ∧ s'.db.idempotency_records.get? call.scope = none))
  /-- Only a successful `mutate` writes. -/
  written : s'.db.domain = s.db.domain ∨ ∃ call command_id response writes,
    s'.answers = s.answers ++ [(call, .executed command_id response)] ∧ response.outcome = .succeeded ∧
      s'.db.domain = s.db.domain ++ [(call, writes)]
  threw : ∀ call, s'.answers = s.answers ++ [(call, .threw)] → s'.db = s.db
  /-- A call that ends gives its lock back. -/
  freed : ∀ call answer, s'.answers = s.answers ++ [(call, answer)] →
    answer = .command_in_progress none ∨
      s'.inflight.get? (hashtextextended (idempotencyLockKey call.scope)) = none

/-- What a step answers, runs and writes. -/
structure Settled (hashtextextended : String → ℤ) (s : System β ω) (a : Action β ω) : Prop where
  answers : Answers hashtextextended s (step hashtextextended s a)
  /-- No `mutate` runs for a recorded key. -/
  unrun : ∀ lock mutation committedAt audited, a = .mutate lock mutation committedAt audited →
    ∀ tx, s.inflight.get? lock = some tx → tx.stage = .mutating →
      s.db.idempotency_records.get? tx.call.scope = none
  /-- A free key can be claimed, unless the command id is taken. -/
  claims : ∀ lock startedAt audited, a = .claim lock startedAt audited →
    ∀ tx, s.inflight.get? lock = some tx → tx.stage = .locked → ¬ Waits s tx →
      s.db.idempotency_records.get? tx.call.scope = none →
      (∀ r ∈ s.db.idempotency_records.values, r.command_id ≠ tx.call.command_id) →
        ∃ tx', (step hashtextextended s a).inflight.get? lock = some tx' ∧ tx'.call = tx.call ∧
          tx'.stage = .mutating

theorem Inv.locked (h : Inv hashtextextended s) {lock : ℤ} {tx : Tx β ω}
    (hget : s.inflight.get? lock = some tx) (hstage : tx.stage = .locked) : tx.here = ⟨none, []⟩ := by
  cases (h.inflight lock tx hget).2 with
  | locked stage here => exact here
  | mutating stage => rw [stage] at hstage; cases hstage
  | refused r answer stage => rw [stage] at hstage; cases hstage
  | released response stage => rw [stage] at hstage; cases hstage
  | recorded response r writes stage => rw [stage] at hstage; cases hstage

theorem Inv.mutating (h : Inv hashtextextended s) {lock : ℤ} {tx : Tx β ω}
    (hget : s.inflight.get? lock = some tx) (hstage : tx.stage = .mutating) :
    s.db.idempotency_records.get? tx.call.scope = none := by
  cases (h.inflight lock tx hget).2 with
  | locked stage => rw [stage] at hstage; cases hstage
  | mutating stage free => exact free
  | refused r answer stage => rw [stage] at hstage; cases hstage
  | released response stage => rw [stage] at hstage; cases hstage
  | recorded response r writes stage => rw [stage] at hstage; cases hstage

/-- A step that answers nothing and writes nothing. -/
theorem Answers.quiet {s' : System β ω} (hdb : s'.db = s.db) (hanswers : s'.answers = s.answers) :
    Answers hashtextextended s s' := by
  have hnot : ∀ call answer, s'.answers ≠ s.answers ++ [(call, answer)] := by
    intro call answer heq
    rw [hanswers] at heq
    simp at heq
  exact ⟨fun scope r hr => by rw [hdb]; exact hr, fun call answer heq => absurd heq (hnot _ _),
    fun call id response heq => absurd heq (hnot _ _), .inl (by rw [hdb]), fun call _ => hdb,
    fun call answer heq => absurd heq (hnot _ _)⟩

/-- A call that throws leaves everything as it was. -/
theorem Answers.thrown {lock : ℤ} {tx : Tx β ω}
    (hlock : lock = hashtextextended (idempotencyLockKey tx.call.scope))
    (hanswered : ∀ r, s.db.idempotency_records.get? tx.call.scope = some r →
      r.request_fingerprint ≠ tx.call.request_fingerprint) :
    Answers hashtextextended s (s.proceed lock tx.call none) := by
  have hanswers : ∀ call answer, (s.proceed lock tx.call none).answers = s.answers ++ [(call, answer)] →
      call = tx.call ∧ answer = .threw := by
    intro call answer heq
    have hpair : [(tx.call, Answer.threw)] = [(call, answer)] := List.append_cancel_left heq
    cases hpair
    exact ⟨rfl, rfl⟩
  refine ⟨fun scope r hr => hr, fun call answer heq r hr => ?_, fun call id response heq => ?_,
    .inl rfl, fun call _ => rfl, fun call answer heq => ?_⟩
  · obtain ⟨rfl, rfl⟩ := hanswers call answer heq
    exact .inr (.inr ⟨hanswered r hr, .inr rfl⟩)
  · cases (hanswers _ _ heq).2
  · obtain ⟨rfl, rfl⟩ := hanswers call answer heq
    refine .inr ?_
    rw [← hlock]
    exact OrdMap.get?_delete_self _ _

/-- A commit answers what it has read or written. -/
theorem Applied.answers {tx : Tx β ω} {answer : Answer β} (h : Applied s.db tx answer) {lock : ℤ}
    (hlock : lock = hashtextextended (idempotencyLockKey tx.call.scope)) :
    Answers hashtextextended s
      ⟨tx.apply s.db, s.inflight.delete lock, s.answers ++ [(tx.call, answer)]⟩ := by
  have hanswers : ∀ call answer', s.answers ++ [(tx.call, answer)] = s.answers ++ [(call, answer')] →
      call = tx.call ∧ answer' = answer := by
    intro call answer' heq
    have hpair : [(tx.call, answer)] = [(call, answer')] := List.append_cancel_left heq
    cases hpair
    exact ⟨rfl, rfl⟩
  have hfreed : ∀ call answer', s.answers ++ [(tx.call, answer)] = s.answers ++ [(call, answer')] →
      answer' = .command_in_progress none ∨
        (s.inflight.delete lock).get? (hashtextextended (idempotencyLockKey call.scope)) = none := by
    intro call answer' heq
    obtain ⟨rfl, rfl⟩ := hanswers call answer' heq
    refine .inr ?_
    rw [← hlock]
    exact OrdMap.get?_delete_self _ _
  cases h with
  | refused r found same answer_eq =>
    refine ⟨fun scope r' hr' => by rw [same]; exact hr', fun call answer' heq r' hr' => ?_,
      fun call id response heq => ?_, .inl (by rw [same]), fun call _ => same, hfreed⟩
    · obtain ⟨rfl, rfl⟩ := hanswers call answer' heq
      cases found.symm.trans hr'
      rcases answer_eq with hreplay | ⟨hother, hconflict⟩
      · exact .inr (.inl hreplay)
      · exact .inr (.inr ⟨hother, .inl hconflict⟩)
    · obtain ⟨-, hexecuted⟩ := hanswers _ _ heq
      rcases answer_eq with ⟨-, response', -, heq'⟩ | ⟨-, heq'⟩
      · rw [heq'] at hexecuted
        cases hexecuted
      · rw [heq'] at hexecuted
        cases hexecuted
  | released response free same answer_eq outcome =>
    refine ⟨fun scope r' hr' => by rw [same]; exact hr', fun call answer' heq r' hr' => ?_,
      fun call id response' heq => ?_, .inl (by rw [same]), fun call _ => same, hfreed⟩
    · obtain ⟨rfl, rfl⟩ := hanswers call answer' heq
      rw [free] at hr'
      cases hr'
    · obtain ⟨rfl, hexecuted⟩ := hanswers _ _ heq
      rw [answer_eq] at hexecuted
      cases hexecuted
      exact ⟨rfl, free, .inr ⟨outcome.2, by rw [same]; exact free⟩⟩
  | recorded response r writes free records' domain answer_eq records kind =>
    refine ⟨fun scope r' hr' => ?_, fun call answer' heq r' hr' => ?_, fun call id response' heq => ?_, ?_,
      fun call heq => ?_, hfreed⟩
    · show (tx.apply s.db).idempotency_records.get? scope = some r'
      rw [records', OrdMap.get?_set_ne]
      · exact hr'
      · rintro rfl
        rw [free] at hr'
        cases hr'
    · obtain ⟨rfl, rfl⟩ := hanswers call answer' heq
      rw [free] at hr'
      cases hr'
    · obtain ⟨rfl, hexecuted⟩ := hanswers _ _ heq
      rw [answer_eq] at hexecuted
      cases hexecuted
      have hretriable : response.retriable = false := by
        rcases kind with ⟨-, hsucceeded, -⟩ | ⟨-, -, hfinal, -⟩
        · have haccepted := (records.accepted.2.2.2.1 response records.response).2.2
          by_contra hnot
          exact haccepted ⟨hsucceeded, by simpa using hnot⟩
        · exact hfinal
      refine ⟨rfl, free, .inl ⟨hretriable, r, ?_, records⟩⟩
      show (tx.apply s.db).idempotency_records.get? tx.call.scope = some r
      rw [records', OrdMap.get?_set_self]
    · rcases kind with ⟨-, hsucceeded, w, rfl⟩ | ⟨-, -, -, rfl⟩
      · exact .inr ⟨tx.call, tx.call.command_id, response, w, by rw [answer_eq], hsucceeded, domain⟩
      · refine .inl ?_
        show (tx.apply s.db).domain = s.db.domain
        rw [domain, List.append_nil]
    · obtain ⟨-, hthrew⟩ := hanswers _ _ heq
      rw [answer_eq] at hthrew
      cases hthrew

theorem answers_step (h : Inv hashtextextended s) (a : Action β ω) :
    Answers hashtextextended s (step hashtextextended s a) := by
  have hsteps : Steps hashtextextended s a (step hashtextextended s a) := step_cases s a
  generalize step hashtextextended s a = s' at hsteps ⊢
  cases hsteps with
  | idle => exact .quiet rfl rfl
  | busy call tx held =>
    have hanswers : ∀ call' answer, s.answers ++ [(call, Answer.command_in_progress none)] =
        s.answers ++ [(call', answer)] → call' = call ∧ answer = .command_in_progress none := by
      intro call' answer heq
      have hpair : [(call, Answer.command_in_progress none)] = [(call', answer)] :=
        List.append_cancel_left heq
      cases hpair
      exact ⟨rfl, rfl⟩
    refine ⟨fun scope r hr => hr, fun call' answer heq r hr => ?_, fun call' id response heq => ?_,
      .inl rfl, fun call' _ => rfl, fun call' answer heq => .inl (hanswers call' answer heq).2⟩
    · obtain ⟨rfl, rfl⟩ := hanswers call' answer heq
      exact .inl ⟨rfl, tx, held⟩
    · cases (hanswers _ _ heq).2
  | start call free => exact .quiet rfl rfl
  | claim lock startedAt audited tx held stage =>
    rcases hclaim : claimCommand s.db tx startedAt audited with _ | tx'
    · refine .thrown (h.inflight lock tx held).1 fun r hr hsame => ?_
      exact claim_recorded h.db (h.locked held stage) startedAt audited hr hsame hclaim
    · exact .quiet rfl rfl
  | mutate lock mutation committedAt audited tx held stage =>
    rcases finishCommand s.db tx mutation committedAt audited with _ | tx'
    · refine .thrown (h.inflight lock tx held).1 fun r hr => ?_
      rw [h.mutating held stage] at hr
      cases hr
    · exact .quiet rfl rfl
  | commit lock tx answer held stage =>
    obtain ⟨hlock, hok⟩ := h.inflight lock tx held
    exact (hok.applied stage).answers hlock

theorem settled_step (h : Inv hashtextextended s) (a : Action β ω) : Settled hashtextextended s a where
  answers := answers_step h a
  unrun lock mutation committedAt audited _ tx hget hstage := h.mutating hget hstage
  claims lock startedAt audited ha tx hget hstage hwaits hfree hfresh := by
    subst ha
    obtain ⟨tx', hclaim, hrest⟩ := claim_free (h.locked hget hstage) startedAt audited hfree hfresh
    refine ⟨tx', ?_, hrest⟩
    unfold step
    simp only [hget, hstage, hwaits, if_false, hclaim]
    exact OrdMap.get?_set_self _ _ _

/-- **Exactly once**: of every key at most one `mutate` is committed and no record is in progress, and every step
answers, runs and writes as it should. -/
theorem run_once (hashtextextended : String → ℤ) (as : List (Action β ω)) :
    (∀ scope, ((run (step hashtextextended) initial as).db.runs scope).length ≤ 1 ∧
      ∀ r, (run (step hashtextextended) initial as).db.idempotency_records.get? scope = some r →
        r.status ≠ .in_progress) ∧
    Along (step hashtextextended) (Settled hashtextextended) (initial : System β ω) as := by
  have hinv : Inv hashtextextended (run (step hashtextextended) (initial : System β ω) as) :=
    run_induct' (I := Inv hashtextextended) (fun s a h => inv_step h a) inv_initial as
  refine ⟨fun scope => ⟨hinv.db.once scope, fun r hr => (hinv.db.settled scope r hr).1⟩, ?_⟩
  exact along_of_invariant (p := fun _ _ => True) (I := Inv hashtextextended)
    (fun s a h _ => inv_step h a) (fun s a h _ => settled_step h a) inv_initial
    (along_of_forall (fun _ _ => trivial) as initial)

/-- A call for a recorded key, with the fingerprint of the record, gets the recorded response. -/
def Replays (hashtextextended : String → ℤ) (s : System β ω) (a : Action β ω) : Prop :=
  ∀ call answer, (step hashtextextended s a).answers = s.answers ++ [(call, answer)] → ∀ r,
    s.db.idempotency_records.get? call.scope = some r → r.request_fingerprint = call.request_fingerprint →
      ∃ response, r.response = some response ∧ answer = .replayed r.command_id response

/-- A command that is sent three times. -/
def sentCall (command_id : String) : Call :=
  ⟨⟨"user-1", .phase, "key-1"⟩, "fingerprint-1", command_id, none, none⟩

/-- The first call commits, and the next two overlap. -/
def overlap : List (Action Unit Unit) :=
  [.start (sentCall "command-1"), .claim 0 0 true, .mutate 0 (.succeeded 200 () [()]) 1 true, .commit 0,
    .start (sentCall "command-2"), .start (sentCall "command-3")]

/-- **Two replays at once**: the second finds the lock held and is told that the command is in progress. -/
theorem overlapping_replays :
    ¬ Along (step fun _ => 0) (Replays fun _ => 0) (initial : System Unit Unit) overlap := by
  rintro ⟨-, -, -, -, -, hlast, -⟩
  obtain ⟨response, -, hanswer⟩ := hlast (sentCall "command-3") (.command_in_progress none) rfl _ rfl rfl
  cases hanswer

end

end Norns.Persistence.Commands
