import Mathlib.Data.Rat.Floor
import Norns.Coordinator.Budget
import Norns.Lib.Run

/-! # Resolutions of reservations and the sweep of orphans

`resolveV2BudgetReservationTransaction` and `sweepV2OrphanReservations` (`v2/budget.ts`) over the table
`budget_reservations`. A sweep lists its candidates in one transaction and repairs each in another; in between
anything may be resolved. Amounts are exact rationals, and a column has six decimals.

* `resolve_ok`, `resolve_repeated`, `resolve_other`: what one transaction does;
* `base_step`: what every step keeps;
* `exact_step_iff`, `run_exact_iff`: the steps after which the books are exact. -/

namespace Norns.Persistence.Reservations

open Norns.Lib Norns.Lib.Run Norns.Lib.Transaction
open Norns.Coordinator (BudgetOutcome ReservationStatus)

/-! ### One resolution -/

/-- A value in a `numeric(18, 6)` column: six decimals, halves away from zero. -/
def money (x : ℚ) : ℚ :=
  if 0 ≤ x then ⌊x * 1000000 + 1 / 2⌋ / 1000000 else -(⌊-x * 1000000 + 1 / 2⌋ / 1000000)

structure ReservationRow where
  project_id : String
  phase_id : String
  task_id : String
  run_id : String
  amount_usd : ℚ
  settled_usd : ℚ
  released_usd : ℚ
  retained_usd : ℚ
  status : ReservationStatus
  resolution_outcome : Option BudgetOutcome
  version : ℤ
  expires_at : ℤ
  deriving DecidableEq

/-- The domain event `budget_reservation_resolved`. -/
structure ResolvedEvent where
  reservation_id : String
  stream_version : ℤ
  task_id : String
  run_id : String
  outcome : BudgetOutcome
  settled_usd : ℚ
  released_usd : ℚ
  retained_usd : ℚ
  actor_id : String
  deriving DecidableEq

structure Database where
  budget_reservations : OrdMap String ReservationRow
  domain_events : List ResolvedEvent

inductive ResolutionError
  | rejected (message : String)
  | notFound (reservationId : String)
  | versionConflict (reservationId : String) (expectedVersion actualVersion : ℤ)
  | outcomeConflict (reservationId : String) (existingOutcome requestedOutcome : BudgetOutcome)
  /-- A check of the table. -/
  | check
  deriving DecidableEq, Repr

def ResolutionError.message : ResolutionError → String
  | .rejected message => message
  | .notFound reservationId => "unknown budget reservation " ++ reservationId
  | .versionConflict reservationId expectedVersion actualVersion =>
    "budget reservation " ++ reservationId ++ " version conflict: expected " ++
      toString expectedVersion ++ ", actual " ++ toString actualVersion
  | .outcomeConflict reservationId existingOutcome requestedOutcome =>
    "budget reservation " ++ reservationId ++ " already resolved as " ++ existingOutcome.text ++
      ", not " ++ requestedOutcome.text
  | .check => "new row for relation \"budget_reservations\" violates check constraint"

structure BudgetResolution where
  status : ReservationStatus
  settled_usd : ℚ
  released_usd : ℚ
  retained_usd : ℚ

/-- `resolveV2BudgetReservation`, also for a usage below zero. -/
def resolveV2BudgetReservation (reservedAmountUsd : ℚ) (outcome : BudgetOutcome)
    (attributable_usage_usd : ℚ) : Except ResolutionError BudgetResolution :=
  if reservedAmountUsd < 0 then
    .error (.rejected "reserved amount must be finite and nonnegative")
  else if reservedAmountUsd < attributable_usage_usd then
    .error (.rejected "attributable usage cannot exceed the reservation")
  else
    match outcome with
    | .success | .partial_usage =>
      .ok ⟨.settled, attributable_usage_usd, reservedAmountUsd - attributable_usage_usd, 0⟩
    | .cancelled | .expired | .rejected | .dead_letter =>
      if attributable_usage_usd ≠ 0 then
        .error (.rejected (outcome.text ++ " before execution cannot settle usage"))
      else .ok ⟨.released, 0, reservedAmountUsd, 0⟩
    | .ambiguous_execution =>
      if attributable_usage_usd ≠ 0 then
        .error (.rejected
          "ambiguous execution retains the full reservation until reconciliation")
      else .ok ⟨.retained_ambiguous, 0, 0, reservedAmountUsd⟩

structure ResolutionRequest where
  reservation_id : String
  expected_version : ℤ
  outcome : BudgetOutcome
  attributable_usage_usd : ℚ
  actor_id : String

/-- The checks of the table and of its columns. -/
structure Admitted (row : ReservationRow) : Prop where
  fits : |row.settled_usd| < 1000000000000 ∧ |row.released_usd| < 1000000000000 ∧
    |row.retained_usd| < 1000000000000
  balance : (row.status = .active ∧ row.settled_usd = 0 ∧ row.released_usd = 0 ∧ row.retained_usd = 0) ∨
    (row.status ≠ .active ∧ row.settled_usd + row.released_usd + row.retained_usd = row.amount_usd)
  shape : row.status = .active ∨
    (row.status = .retained_ambiguous ∧ row.settled_usd = 0 ∧ row.released_usd = 0 ∧
      row.retained_usd = row.amount_usd) ∨
    (row.status = .settled ∧ row.retained_usd = 0) ∨
    (row.status = .released ∧ row.settled_usd = 0 ∧ row.retained_usd = 0 ∧
      row.released_usd = row.amount_usd)

instance (row : ReservationRow) : Decidable (Admitted row) :=
  decidable_of_iff (_ ∧ _ ∧ _) ⟨fun ⟨h, h', h''⟩ => ⟨h, h', h''⟩, fun h => ⟨h.fits, h.balance, h.shape⟩⟩

/-- The row of the update. -/
def resolvedRow (row : ReservationRow) (request : ResolutionRequest) (resolution : BudgetResolution) :
    ReservationRow :=
  { row with
    status := resolution.status
    settled_usd := money resolution.settled_usd
    released_usd := money resolution.released_usd
    retained_usd := money resolution.retained_usd
    resolution_outcome := some request.outcome
    version := row.version + 1 }

def resolvedEvent (row : ReservationRow) (request : ResolutionRequest) (resolution : BudgetResolution) :
    ResolvedEvent where
  reservation_id := request.reservation_id
  stream_version := row.version + 1
  task_id := row.task_id
  run_id := row.run_id
  outcome := request.outcome
  settled_usd := resolution.settled_usd
  released_usd := resolution.released_usd
  retained_usd := resolution.retained_usd
  actor_id := request.actor_id

def applyResolution (db : Database) (row : ReservationRow) (request : ResolutionRequest)
    (resolution : BudgetResolution) : Except ResolutionError (ReservationRow × Database) :=
  if row.version ≠ request.expected_version ∨ row.resolution_outcome ≠ none then
    .error (.versionConflict request.reservation_id request.expected_version (row.version + 1))
  else if Admitted (resolvedRow row request resolution) then
    .ok (resolvedRow row request resolution,
      { budget_reservations :=
          db.budget_reservations.set request.reservation_id (resolvedRow row request resolution)
        domain_events := db.domain_events ++ [resolvedEvent row request resolution] })
  else .error .check

/-- The row that is returned, and the tables after the transaction. -/
def resolveV2BudgetReservationTransaction (request : ResolutionRequest) (db : Database) :
    Except ResolutionError (ReservationRow × Database) :=
  match db.budget_reservations.get? request.reservation_id with
  | none => .error (.notFound request.reservation_id)
  | some row =>
    match row.resolution_outcome with
    | some existing =>
      if existing ≠ request.outcome then
        .error (.outcomeConflict request.reservation_id existing request.outcome)
      else .ok (row, db)
    | none =>
      if row.version ≠ request.expected_version then
        .error (.versionConflict request.reservation_id request.expected_version row.version)
      else
        match resolveV2BudgetReservation row.amount_usd request.outcome
            request.attributable_usage_usd with
        | .error e => .error e
        | .ok resolution => applyResolution db row request resolution

/-- The statement with which a continuation or a human wait prolongs its reservation. -/
def extendReservation (reservationId : String) (expiresAt : ℤ) (db : Database) : Database :=
  match db.budget_reservations.get? reservationId with
  | some row =>
    if row.status = .active then
      { db with
        budget_reservations := db.budget_reservations.set reservationId
          { row with
            expires_at := max row.expires_at expiresAt
            version := row.version + 1 } }
    else db
  | none => db

/-! ### The sweep -/

structure OrphanReservationCandidate where
  reservation_id : String
  expected_version : ℤ
  project_id : String

/-- The active reservations that have expired, first come first; `held` are those that a live run, a human
wait or a checkpoint holds. -/
def findOrphanCandidates (held : String → Bool) (now : ℤ) (limit : ℕ) (db : Database) :
    List OrphanReservationCandidate :=
  (((db.budget_reservations.entries.filter fun e =>
      e.2.status = .active ∧ e.2.expires_at ≤ now ∧ held e.1 = false).mergeSort fun a b =>
        decide (a.2.expires_at < b.2.expires_at ∨ (a.2.expires_at = b.2.expires_at ∧ a.1 ≤ b.1))).take
      limit).map fun e => ⟨e.1, e.2.version, e.2.project_id⟩

/-- The local state of a sweep. -/
structure Sweep where
  candidates : List OrphanReservationCandidate
  /-- The candidates whose turn is still to come. -/
  pending : List OrphanReservationCandidate
  repaired : List String
  raced : List String
  thrown : Option ResolutionError
  /-- The reservations that its transactions have changed. -/
  written : List String

def sweepRequest (candidate : OrphanReservationCandidate) : ResolutionRequest where
  reservation_id := candidate.reservation_id
  expected_version := candidate.expected_version
  outcome := .expired
  attributable_usage_usd := 0
  actor_id := "system:budget-sweep"

/-- The next turn of the loop. -/
def Sweep.repair (sweep : Sweep) (db : Database) : Sweep × Database :=
  match sweep.thrown, sweep.pending with
  | none, candidate :: pending =>
    match resolveV2BudgetReservationTransaction (sweepRequest candidate) db with
    | .ok (_, db') =>
      ({ sweep with
          pending := pending
          repaired := sweep.repaired ++ [candidate.reservation_id]
          written :=
            if db'.budget_reservations.get? candidate.reservation_id =
                db.budget_reservations.get? candidate.reservation_id then sweep.written
            else sweep.written ++ [candidate.reservation_id] }, db')
    | .error (.versionConflict _ _ _) =>
      ({ sweep with
          pending := pending
          raced := sweep.raced ++ [candidate.reservation_id] }, db)
    | .error e => ({ sweep with pending := pending, thrown := some e }, db)
  | _, _ => (sweep, db)

/-! ### The system -/

structure System where
  db : Database
  sweeps : List Sweep

inductive Action
  | resolve (request : ResolutionRequest)
  | extend (reservationId : String) (expiresAt : ℤ)
  | sweep (held : String → Bool) (now : ℤ) (limit : ℕ)
  /-- The next turn of a sweep. -/
  | repair (i : ℕ)

def step (s : System) : Action → System
  | .resolve request =>
    let tables := (resolveV2BudgetReservationTransaction request s.db).map Prod.snd
    { s with db := commit s.db tables }
  | .extend reservationId expiresAt => { s with db := extendReservation reservationId expiresAt s.db }
  | .sweep held now limit =>
    let candidates := findOrphanCandidates held now limit s.db
    { s with sweeps := s.sweeps ++ [⟨candidates, candidates, [], [], none, []⟩] }
  | .repair i =>
    match s.sweeps[i]? with
    | none => s
    | some sweep =>
      { db := (sweep.repair s.db).2
        sweeps := s.sweeps.set i (sweep.repair s.db).1 }

/-! ### What one transaction does -/

section

variable {db db' : Database} {request : ResolutionRequest} {row row' : ReservationRow}

theorem money_zero : money 0 = 0 := by
  unfold money
  norm_num

theorem money_nonneg {x : ℚ} (h : 0 ≤ x) : 0 ≤ money x := by
  unfold money
  rw [if_pos h]
  have hfloor : (0 : ℤ) ≤ ⌊x * 1000000 + 1 / 2⌋ := Int.floor_nonneg.mpr (by positivity)
  positivity

/-- The outcomes that settle what was used. -/
def Settles (outcome : BudgetOutcome) : Prop := outcome = .success ∨ outcome = .partial_usage

/-- What is resolved is nonnegative, but for a usage below zero. -/
theorem resolution_parts {reserved usage : ℚ} {outcome : BudgetOutcome} {r : BudgetResolution}
    (h : resolveV2BudgetReservation reserved outcome usage = .ok r) :
    r.status ≠ .active ∧ 0 ≤ r.released_usd ∧ 0 ≤ r.retained_usd ∧
      ((Settles outcome ∧ r = ⟨.settled, usage, reserved - usage, 0⟩) ∨
        (¬ Settles outcome ∧ r.settled_usd = 0)) := by
  unfold resolveV2BudgetReservation at h
  split at h
  · cases h
  rename_i hreserved
  split at h
  · cases h
  rename_i husage
  have hreleased : ¬ Settles outcome → (if usage ≠ 0 then
      .error (.rejected (outcome.text ++ " before execution cannot settle usage"))
      else .ok ⟨.released, 0, reserved, 0⟩ : Except ResolutionError BudgetResolution) = .ok r →
      r.status ≠ .active ∧ 0 ≤ r.released_usd ∧ 0 ≤ r.retained_usd ∧
        ((Settles outcome ∧ r = ⟨.settled, usage, reserved - usage, 0⟩) ∨
        (¬ Settles outcome ∧ r.settled_usd = 0)) := by
    intro hnot hr
    split at hr
    · cases hr
    · cases hr
      exact ⟨by simp, not_lt.mp hreserved, le_rfl, .inr ⟨hnot, rfl⟩⟩
  have hle : 0 ≤ reserved - usage := sub_nonneg.mpr (not_lt.mp husage)
  cases outcome with
  | success =>
    cases h
    exact ⟨by simp, hle, le_rfl, .inl ⟨.inl rfl, rfl⟩⟩
  | partial_usage =>
    cases h
    exact ⟨by simp, hle, le_rfl, .inl ⟨.inr rfl, rfl⟩⟩
  | cancelled => exact hreleased (by simp [Settles]) h
  | expired => exact hreleased (by simp [Settles]) h
  | rejected => exact hreleased (by simp [Settles]) h
  | dead_letter => exact hreleased (by simp [Settles]) h
  | ambiguous_execution =>
    dsimp only at h
    split at h
    · cases h
    · cases h
      exact ⟨by simp, le_rfl, not_lt.mp hreserved, .inr ⟨by simp [Settles], rfl⟩⟩

/-- The transaction writes: the reservation is open and at the expected version, and the row is admitted. -/
structure Writes (request : ResolutionRequest) (db : Database) (row row' : ReservationRow) (db' : Database) :
    Prop where
  found : db.budget_reservations.get? request.reservation_id = some row
  unresolved : row.resolution_outcome = none
  version : row.version = request.expected_version
  resolution : ∃ r, resolveV2BudgetReservation row.amount_usd request.outcome
    request.attributable_usage_usd = .ok r ∧ row' = resolvedRow row request r
  admitted : Admitted row'
  tables : db'.budget_reservations = db.budget_reservations.set request.reservation_id row'

/-- **A transaction that commits** reads a reservation resolved alike, or resolves an open one. -/
theorem resolve_ok (h : resolveV2BudgetReservationTransaction request db = .ok (row', db')) :
    (db.budget_reservations.get? request.reservation_id = some row' ∧
      row'.resolution_outcome = some request.outcome ∧ db' = db) ∨
      ∃ row, Writes request db row row' db' := by
  unfold resolveV2BudgetReservationTransaction at h
  split at h
  · cases h
  rename_i row hrow
  split at h
  · rename_i existing hexisting
    split at h
    · cases h
    · rename_i hsame
      cases h
      exact .inl ⟨hrow, by rw [hexisting, not_not.mp hsame], rfl⟩
  · rename_i hnone
    split at h
    · cases h
    rename_i hversion
    split at h
    · cases h
    rename_i r hr
    unfold applyResolution at h
    rw [if_neg (by simp [not_not.mp hversion, hnone])] at h
    split at h
    · rename_i hadmitted
      cases h
      exact .inr ⟨row, hrow, hnone, not_not.mp hversion, ⟨r, hr, rfl⟩, hadmitted, rfl⟩
    · cases h

theorem resolve_repeated (hrow : db.budget_reservations.get? request.reservation_id = some row)
    (h : row.resolution_outcome = some request.outcome) :
    resolveV2BudgetReservationTransaction request db = .ok (row, db) := by
  unfold resolveV2BudgetReservationTransaction
  simp only [hrow, h, ne_eq, not_true_eq_false, if_false]

theorem resolve_other (hrow : db.budget_reservations.get? request.reservation_id = some row)
    {existing : BudgetOutcome} (h : row.resolution_outcome = some existing)
    (hne : existing ≠ request.outcome) :
    resolveV2BudgetReservationTransaction request db =
      .error (.outcomeConflict request.reservation_id existing request.outcome) := by
  unfold resolveV2BudgetReservationTransaction
  simp only [hrow, h, ne_eq, hne, not_false_eq_true, if_true]

theorem resolve_stale (hrow : db.budget_reservations.get? request.reservation_id = some row)
    (h : row.resolution_outcome = none) (hversion : row.version ≠ request.expected_version) :
    resolveV2BudgetReservationTransaction request db =
      .error (.versionConflict request.reservation_id request.expected_version row.version) := by
  unfold resolveV2BudgetReservationTransaction
  simp only [hrow, h, hversion, ne_eq, not_false_eq_true, if_true]

theorem Writes.resolved (h : Writes request db row row' db') :
    row'.resolution_outcome = some request.outcome ∧ row'.amount_usd = row.amount_usd ∧
      row'.status ≠ .active ∧
      row'.settled_usd + row'.released_usd + row'.retained_usd = row'.amount_usd := by
  obtain ⟨r, hr, hrow'⟩ := h.resolution
  have hclosed : row'.status ≠ .active := by
    have hstatus : row'.status = r.status := by rw [hrow']; rfl
    rw [hstatus]
    exact (resolution_parts hr).1
  refine ⟨by rw [hrow']; rfl, by rw [hrow']; rfl, hclosed, ?_⟩
  rcases h.admitted.balance with ⟨hactive, -⟩ | ⟨-, hsum⟩
  · exact absurd hactive hclosed
  · exact hsum

/-- The parts of a resolution are nonnegative, but for a negative settlement. -/
theorem Writes.parts (h : Writes request db row row' db') :
    0 ≤ row'.released_usd ∧ 0 ≤ row'.retained_usd ∧
      (0 ≤ row'.settled_usd ↔ (Settles request.outcome → 0 ≤ money request.attributable_usage_usd)) := by
  obtain ⟨r, hr, rfl⟩ := h.resolution
  obtain ⟨-, hreleased, hretained, hsettled⟩ := resolution_parts hr
  refine ⟨money_nonneg hreleased, money_nonneg hretained, ?_⟩
  show 0 ≤ money r.settled_usd ↔ _
  rcases hsettled with ⟨hsettles, heq⟩ | ⟨hnot, hzero⟩
  · subst heq
    exact ⟨fun h _ => h, fun h => h hsettles⟩
  · rw [hzero, money_zero]
    exact iff_of_true le_rfl fun hsettles => absurd hsettles hnot

end

/-! ### Every run -/

section

variable {db db' : Database} {sw : Sweep} {s : System} {a : Action}

/-- The amount fits its column, and a resolved reservation is closed and accounted for. -/
structure RowOk (row : ReservationRow) : Prop where
  nonneg : 0 ≤ row.amount_usd
  fits : row.amount_usd < 1000000000000
  column : money row.amount_usd = row.amount_usd
  closed : row.resolution_outcome ≠ none → row.status ≠ .active
  balance : row.resolution_outcome ≠ none →
    row.settled_usd + row.released_usd + row.retained_usd = row.amount_usd

/-- Nothing is resolved in a way that is changed later: an open row may become a resolved one. -/
def Evolves (db db' : Database) : Prop :=
  ∀ id row, db.budget_reservations.get? id = some row → ∃ row',
    db'.budget_reservations.get? id = some row' ∧ row'.amount_usd = row.amount_usd ∧
      (row.resolution_outcome ≠ none → row' = row)

theorem Evolves.refl (db : Database) : Evolves db db := fun _ row h => ⟨row, h, rfl, fun _ => rfl⟩

theorem Writes.evolves {request : ResolutionRequest} {row row' : ReservationRow}
    (h : Writes request db row row' db') : Evolves db db' := by
  intro id other hother
  rw [h.tables]
  by_cases hid : request.reservation_id = id
  · subst hid
    cases h.found.symm.trans hother
    exact ⟨row', OrdMap.get?_set_self _ _ _, h.resolved.2.1, fun hne => absurd h.unresolved hne⟩
  · exact ⟨other, by rw [OrdMap.get?_set_ne _ _ hid]; exact hother, rfl, fun _ => rfl⟩

/-- A sweep that has not thrown has visited the candidates whose turn is over. -/
structure SweepOk (db : Database) (sw : Sweep) : Prop where
  distinct : (sw.candidates.map OrphanReservationCandidate.reservation_id).Nodup
  known : ∀ c ∈ sw.pending, ∃ row, db.budget_reservations.get? c.reservation_id = some row
  visited : sw.thrown = none → (sw.repaired ++ sw.raced ++
    sw.pending.map OrphanReservationCandidate.reservation_id).Perm
      (sw.candidates.map OrphanReservationCandidate.reservation_id)
  written : ∀ id ∈ sw.written, id ∈ sw.repaired

structure Base (s : System) : Prop where
  rows : ∀ id row, s.db.budget_reservations.get? id = some row → RowOk row
  sweeps : ∀ sw ∈ s.sweeps, SweepOk s.db sw

/-- No sweep has failed, repaired and raced are the candidates that were visited, and what a sweep calls
repaired it has released itself. -/
structure SweepExact (sw : Sweep) : Prop where
  running : sw.thrown = none
  visited : (sw.repaired ++ sw.raced ++
    sw.pending.map OrphanReservationCandidate.reservation_id).Perm
      (sw.candidates.map OrphanReservationCandidate.reservation_id)
  own : ∀ id ∈ sw.repaired, id ∈ sw.written

/-- A resolved reservation is split into nonnegative parts. -/
def Split (db : Database) : Prop :=
  ∀ id row, db.budget_reservations.get? id = some row → row.resolution_outcome ≠ none →
    row.settled_usd + row.released_usd + row.retained_usd = row.amount_usd ∧
      0 ≤ row.settled_usd ∧ 0 ≤ row.released_usd ∧ 0 ≤ row.retained_usd

/-- The resolved reservations are split, and the sweeps are exact. -/
structure Exact (s : System) : Prop where
  rows : Split s.db
  sweeps : ∀ sw ∈ s.sweeps, SweepExact sw

/-- What a step does with reservations that are resolved. -/
structure Stable (s : System) (a : Action) : Prop where
  kept : ∀ id row, s.db.budget_reservations.get? id = some row → row.resolution_outcome ≠ none →
    (step s a).db.budget_reservations.get? id = some row
  repeated : ∀ request, a = .resolve request → ∀ row,
    s.db.budget_reservations.get? request.reservation_id = some row →
      row.resolution_outcome = some request.outcome →
        resolveV2BudgetReservationTransaction request s.db = .ok (row, s.db)
  refused : ∀ request, a = .resolve request → ∀ row existing,
    s.db.budget_reservations.get? request.reservation_id = some row →
      row.resolution_outcome = some existing → existing ≠ request.outcome →
        resolveV2BudgetReservationTransaction request s.db =
          .error (.outcomeConflict request.reservation_id existing request.outcome) ∧
        (step s a).db = s.db

/-- No call settles a usage below zero that the columns can hold, and a candidate of a sweep is open when its
turn comes. -/
def Clean (s : System) : Action → Prop
  | .resolve request => Settles request.outcome → ∀ row,
      s.db.budget_reservations.get? request.reservation_id = some row →
      row.resolution_outcome = none → row.version = request.expected_version →
      0 ≤ money request.attributable_usage_usd ∨
        1000000000000 ≤ money (row.amount_usd - request.attributable_usage_usd)
  | .extend _ _ => True
  | .sweep _ _ _ => True
  | .repair i => ∀ sw, s.sweeps[i]? = some sw → sw.thrown = none → ∀ c rest, sw.pending = c :: rest →
      ∀ row, s.db.budget_reservations.get? c.reservation_id = some row → row.resolution_outcome = none

/-- Reservations that nobody has resolved. -/
structure Start (s : System) : Prop where
  rows : ∀ id row, s.db.budget_reservations.get? id = some row →
    row.resolution_outcome = none ∧ 0 ≤ row.amount_usd ∧ row.amount_usd < 1000000000000 ∧
      money row.amount_usd = row.amount_usd
  sweeps : s.sweeps = []

/-! ### An extension -/

/-- An extension leaves the tables, or changes an open row. -/
theorem extend_cases (id : String) (expiresAt : ℤ) (db : Database) :
    extendReservation id expiresAt db = db ∨
      ∃ row, db.budget_reservations.get? id = some row ∧ row.status = .active ∧
        (extendReservation id expiresAt db).budget_reservations = db.budget_reservations.set id
          { row with expires_at := max row.expires_at expiresAt, version := row.version + 1 } := by
  unfold extendReservation
  split
  · rename_i row hrow
    split
    · rename_i hactive
      exact .inr ⟨row, hrow, hactive, rfl⟩
    · exact .inl rfl
  · exact .inl rfl

theorem extend_evolves (hrows : ∀ id row, db.budget_reservations.get? id = some row → RowOk row)
    (id : String) (expiresAt : ℤ) : Evolves db (extendReservation id expiresAt db) := by
  rcases extend_cases id expiresAt db with hsame | ⟨row, hrow, hactive, htables⟩
  · rw [hsame]
    exact .refl db
  · intro other otherRow hother
    rw [htables, OrdMap.get?_set]
    split_ifs with hid
    · subst hid
      cases hrow.symm.trans hother
      exact ⟨_, rfl, rfl, fun hresolved => absurd hactive ((hrows _ _ hrow).closed hresolved)⟩
    · exact ⟨otherRow, hother, rfl, fun _ => rfl⟩

theorem extend_rows (hrows : ∀ id row, db.budget_reservations.get? id = some row → RowOk row)
    (id : String) (expiresAt : ℤ) : ∀ other row,
      (extendReservation id expiresAt db).budget_reservations.get? other = some row → RowOk row := by
  rcases extend_cases id expiresAt db with hsame | ⟨row, hrow, -, htables⟩
  · rw [hsame]
    exact hrows
  · intro other otherRow hother
    rw [htables, OrdMap.get?_set] at hother
    split_ifs at hother with hid
    · cases hother
      have hold := hrows _ _ hrow
      exact ⟨hold.nonneg, hold.fits, hold.column, hold.closed, hold.balance⟩
    · exact hrows _ _ hother

theorem extend_split (hrows : ∀ id row, db.budget_reservations.get? id = some row → RowOk row)
    (id : String) (expiresAt : ℤ) (hsplit : Split db) : Split (extendReservation id expiresAt db) := by
  rcases extend_cases id expiresAt db with hsame | ⟨row, hrow, hactive, htables⟩
  · rw [hsame]
    exact hsplit
  · intro other otherRow hother hresolved
    rw [htables, OrdMap.get?_set] at hother
    split_ifs at hother with hid
    · cases hother
      exact absurd hactive ((hrows _ _ hrow).closed hresolved)
    · exact hsplit _ _ hother hresolved

/-! ### The turns of a sweep -/

/-- **A turn of a sweep.** -/
theorem repair_cases (sw : Sweep) (db : Database) :
    (sw.repair db = (sw, db) ∧ (sw.thrown ≠ none ∨ sw.pending = [])) ∨
    ∃ c rest, sw.thrown = none ∧ sw.pending = c :: rest ∧
      ((∃ row' db', resolveV2BudgetReservationTransaction (sweepRequest c) db = .ok (row', db') ∧
          sw.repair db = ({ sw with
            pending := rest
            repaired := sw.repaired ++ [c.reservation_id]
            written := if db'.budget_reservations.get? c.reservation_id =
                db.budget_reservations.get? c.reservation_id then sw.written
              else sw.written ++ [c.reservation_id] }, db')) ∨
        (∃ id expected actual, resolveV2BudgetReservationTransaction (sweepRequest c) db =
            .error (.versionConflict id expected actual) ∧
          sw.repair db = ({ sw with
            pending := rest
            raced := sw.raced ++ [c.reservation_id] }, db)) ∨
        (∃ e, resolveV2BudgetReservationTransaction (sweepRequest c) db = .error e ∧
          (∀ id expected actual, e ≠ .versionConflict id expected actual) ∧
          sw.repair db = ({ sw with pending := rest, thrown := some e }, db))) := by
  unfold Sweep.repair
  split
  · rename_i c rest hthrown hpending
    refine .inr ⟨c, rest, hthrown, hpending, ?_⟩
    split
    · rename_i row' db' hok
      exact .inl ⟨row', db', hok, rfl⟩
    · rename_i id expected actual herror
      exact .inr (.inl ⟨id, expected, actual, herror, rfl⟩)
    · rename_i e hother herror
      exact .inr (.inr ⟨e, herror, fun id expected actual heq => hother id expected actual (heq ▸ rfl), rfl⟩)
  · rename_i hnot
    refine .inl ⟨rfl, ?_⟩
    cases hthrown : sw.thrown with
    | some e => exact .inl (by simp)
    | none =>
      cases hpending : sw.pending with
      | nil => exact .inr rfl
      | cons c rest => exact absurd hpending (hnot c rest hthrown)

/-! ### What every step keeps -/

theorem Writes.rows {request : ResolutionRequest} {row row' : ReservationRow}
    (h : Writes request db row row' db')
    (hrows : ∀ id row, db.budget_reservations.get? id = some row → RowOk row) :
    ∀ id row, db'.budget_reservations.get? id = some row → RowOk row := by
  intro id other hother
  rw [h.tables, OrdMap.get?_set] at hother
  split_ifs at hother with hid
  · cases hother
    have hold := hrows _ _ h.found
    obtain ⟨-, hamount, hclosed, hsum⟩ := h.resolved
    exact ⟨hamount ▸ hold.nonneg, hamount ▸ hold.fits, by rw [hamount]; exact hold.column,
      fun _ => hclosed, fun _ => hsum⟩
  · exact hrows id other hother

theorem SweepOk.evolves (h : SweepOk db sw) (he : Evolves db db') : SweepOk db' sw where
  distinct := h.distinct
  known c hc := by
    obtain ⟨row, hrow⟩ := h.known c hc
    obtain ⟨row', hrow', -⟩ := he _ row hrow
    exact ⟨row', hrow'⟩
  visited := h.visited
  written := h.written

/-- A transaction leaves the tables, or writes. -/
theorem commit_cases (request : ResolutionRequest) (db : Database) :
    commit db ((resolveV2BudgetReservationTransaction request db).map Prod.snd) = db ∨
      ∃ row row', Writes request db row row'
        (commit db ((resolveV2BudgetReservationTransaction request db).map Prod.snd)) := by
  rcases hrun : resolveV2BudgetReservationTransaction request db with e | ⟨row', db'⟩
  · exact .inl rfl
  · rcases resolve_ok hrun with ⟨-, -, rfl⟩ | ⟨row, h⟩
    · exact .inl rfl
    · exact .inr ⟨row, row', h⟩

/-- The tables after a turn of a sweep. -/
theorem repair_tables (sw : Sweep) (db : Database) :
    (sw.repair db).2 = db ∨ ∃ c row row', Writes (sweepRequest c) db row row' (sw.repair db).2 := by
  rcases repair_cases sw db with ⟨h, -⟩ | ⟨c, rest, -, -, ⟨row', db', hok, h⟩ | ⟨_, _, _, -, h⟩ | ⟨_, -, -, h⟩⟩
  · exact .inl (by rw [h])
  · rw [h]
    rcases resolve_ok hok with ⟨-, -, hsame⟩ | ⟨row, hwrites⟩
    · exact .inl hsame
    · exact .inr ⟨c, row, row', hwrites⟩
  · exact .inl (by rw [h])
  · exact .inl (by rw [h])

theorem SweepOk.repair (h : SweepOk db sw) : SweepOk (sw.repair db).2 (sw.repair db).1 := by
  have hevolves : Evolves db (sw.repair db).2 := by
    rcases repair_tables sw db with hsame | ⟨c, row, row', hwrites⟩
    · rw [hsame]
      exact .refl db
    · exact hwrites.evolves
  have hnext := h.evolves hevolves
  rcases repair_cases sw db with ⟨heq, -⟩ |
    ⟨c, rest, hthrown, hpending, ⟨row', db', hok, heq⟩ | ⟨_, _, _, -, heq⟩ | ⟨e, -, -, heq⟩⟩
  · rw [heq] at hnext ⊢
    exact hnext
  · have hvisited := h.visited hthrown
    rw [heq] at hnext ⊢
    refine ⟨h.distinct, fun c' hc' => hnext.known c' (hpending ▸ List.mem_cons_of_mem _ hc'), fun _ => ?_,
      fun id hid => ?_⟩
    · refine List.Perm.trans ?_ hvisited
      rw [hpending, List.map_cons]
      simp only [List.append_assoc, List.singleton_append]
      refine List.Perm.append_left _ ?_
      exact List.perm_middle.symm
    · dsimp only at hid ⊢
      split_ifs at hid
      · exact List.mem_append_left _ (h.written id hid)
      · rcases List.mem_append.mp hid with hid | hid
        · exact List.mem_append_left _ (h.written id hid)
        · exact List.mem_append_right _ hid
  · have hvisited := h.visited hthrown
    rw [heq] at hnext ⊢
    refine ⟨h.distinct, fun c' hc' => hnext.known c' (hpending ▸ List.mem_cons_of_mem _ hc'), fun _ => ?_,
      h.written⟩
    refine List.Perm.trans ?_ hvisited
    rw [hpending, List.map_cons]
    simp only [List.append_assoc, List.singleton_append]
    exact List.Perm.refl _
  · rw [heq] at hnext ⊢
    exact ⟨h.distinct, fun c' hc' => hnext.known c' (hpending ▸ List.mem_cons_of_mem _ hc'),
      fun hnone => (by cases hnone), h.written⟩

theorem candidates_ok (held : String → Bool) (now : ℤ) (limit : ℕ) (db : Database) :
    SweepOk db ⟨findOrphanCandidates held now limit db, findOrphanCandidates held now limit db, [], [],
      none, []⟩ := by
  refine ⟨?_, fun c hc => ?_, fun _ => List.Perm.refl _, by simp⟩
  · unfold findOrphanCandidates
    rw [List.map_map]
    refine (List.Nodup.sublist ((List.take_sublist _ _).map Prod.fst) ?_)
    refine ((List.mergeSort_perm _ _).map Prod.fst).nodup_iff.mpr ?_
    exact db.budget_reservations.nodup.sublist (List.filter_sublist.map Prod.fst)
  · unfold findOrphanCandidates at hc
    obtain ⟨e, he, rfl⟩ := List.mem_map.mp hc
    have hmem := (List.mergeSort_perm _ _).mem_iff.mp (List.mem_of_mem_take he)
    exact ⟨e.2, OrdMap.mem_entries.mp (List.mem_filter.mp hmem).1⟩

/-- **The step lemma.** -/
theorem base_step (h : Base s) (a : Action) : Base (step s a) := by
  cases a with
  | resolve request =>
    rcases commit_cases request s.db with hsame | ⟨row, row', hwrites⟩
    · have hs : step s (.resolve request) = s := by
        unfold step
        dsimp only
        rw [hsame]
      rw [hs]
      exact h
    · exact ⟨hwrites.rows h.rows, fun sw hsw => (h.sweeps sw hsw).evolves hwrites.evolves⟩
  | extend id expiresAt =>
    exact ⟨extend_rows h.rows id expiresAt, fun sw hsw =>
      (h.sweeps sw hsw).evolves (extend_evolves h.rows id expiresAt)⟩
  | sweep held now limit =>
    refine ⟨h.rows, fun sw hsw => ?_⟩
    rcases List.mem_append.mp hsw with hsw | hsw
    · exact h.sweeps sw hsw
    · rw [List.mem_singleton.mp hsw]
      exact candidates_ok held now limit s.db
  | repair i =>
    unfold step
    dsimp only
    split
    · exact h
    · rename_i sw hsw
      have hok := h.sweeps sw (List.mem_of_getElem? hsw)
      have htables := repair_tables sw s.db
      refine ⟨?_, fun other hother => ?_⟩
      · rcases htables with hsame | ⟨c, row, row', hwrites⟩
        · dsimp only
          rw [hsame]
          exact h.rows
        · exact hwrites.rows h.rows
      · rcases List.mem_or_eq_of_mem_set hother with hold | rfl
        · refine (h.sweeps other hold).evolves ?_
          rcases htables with hsame | ⟨c, row, row', hwrites⟩
          · dsimp only
            rw [hsame]
            exact .refl _
          · exact hwrites.evolves
        · exact hok.repair

/-- **What is resolved stays resolved**: it is read when it is resolved alike, and refused otherwise. -/
theorem stable_step (h : Base s) (a : Action) : Stable s a where
  kept id row hrow hresolved := by
    have hkept : Evolves s.db (step s a).db := by
      cases a with
      | resolve request =>
        rcases commit_cases request s.db with hsame | ⟨row, row', hwrites⟩
        · show Evolves s.db (commit s.db _)
          rw [hsame]
          exact .refl _
        · exact hwrites.evolves
      | extend id expiresAt => exact extend_evolves h.rows id expiresAt
      | sweep held now limit => exact .refl _
      | repair i =>
        unfold step
        dsimp only
        split
        · exact .refl _
        · rename_i sw hsw
          rcases repair_tables sw s.db with hsame | ⟨c, row, row', hwrites⟩
          · dsimp only
            rw [hsame]
            exact .refl _
          · exact hwrites.evolves
    obtain ⟨row', hrow', -, hsame⟩ := hkept id row hrow
    rw [hrow', hsame hresolved]
  repeated request ha row hrow hsame := resolve_repeated hrow hsame
  refused request ha row existing hrow hexisting hne := by
    have hrefused := resolve_other hrow hexisting hne
    refine ⟨hrefused, ?_⟩
    subst ha
    show commit s.db ((resolveV2BudgetReservationTransaction request s.db).map Prod.snd) = s.db
    rw [hrefused]
    rfl

/-! ### The steps after which the books are exact -/

theorem money_sub {amount usage : ℚ} (hcolumn : money amount = amount) (hamount : 0 ≤ amount)
    (husage : usage < 0) : money (amount - usage) = amount - money usage := by
  have hmicro : amount * 1000000 = (⌊amount * 1000000 + 1 / 2⌋ : ℤ) := by
    unfold money at hcolumn
    rw [if_pos hamount] at hcolumn
    rw [div_eq_iff (by norm_num)] at hcolumn
    exact hcolumn.symm
  have hshift : (amount - usage) * 1000000 + 1 / 2 =
      (⌊amount * 1000000 + 1 / 2⌋ : ℤ) + (-usage * 1000000 + 1 / 2) := by
    rw [← hmicro]
    ring
  unfold money
  rw [if_pos (by linarith), if_neg (not_le.mpr husage), hshift, Int.floor_intCast_add, Int.cast_add,
    ← hmicro]
  ring

/-- An open reservation at the expected version is resolved when the table admits the row. -/
theorem resolve_open {request : ResolutionRequest} {row : ReservationRow} {r : BudgetResolution}
    (hfound : db.budget_reservations.get? request.reservation_id = some row)
    (hnone : row.resolution_outcome = none) (hversion : row.version = request.expected_version)
    (hr : resolveV2BudgetReservation row.amount_usd request.outcome request.attributable_usage_usd = .ok r)
    (hadmitted : Admitted (resolvedRow row request r)) :
    ∃ db', resolveV2BudgetReservationTransaction request db = .ok (resolvedRow row request r, db') ∧
      Writes request db row (resolvedRow row request r) db' := by
  refine ⟨⟨db.budget_reservations.set request.reservation_id (resolvedRow row request r),
    db.domain_events ++ [resolvedEvent row request r]⟩, ?_,
    ⟨hfound, hnone, hversion, ⟨r, hr, rfl⟩, hadmitted, rfl⟩⟩
  unfold resolveV2BudgetReservationTransaction
  simp only [hfound, hnone, hversion, ne_eq, not_true_eq_false, if_false, hr]
  unfold applyResolution
  rw [if_neg (by simp [hversion, hnone]), if_pos hadmitted]

/-- A negative usage that the columns hold is settled. -/
theorem writes_negative {request : ResolutionRequest} {row : ReservationRow}
    (hfound : db.budget_reservations.get? request.reservation_id = some row) (hok : RowOk row)
    (hnone : row.resolution_outcome = none) (hversion : row.version = request.expected_version)
    (hsettles : Settles request.outcome) (husage : money request.attributable_usage_usd < 0)
    (hfits : money (row.amount_usd - request.attributable_usage_usd) < 1000000000000) :
    ∃ row' db', resolveV2BudgetReservationTransaction request db = .ok (row', db') ∧
      Writes request db row row' db' ∧ row'.settled_usd < 0 := by
  have hneg : request.attributable_usage_usd < 0 := by
    by_contra hnot
    exact absurd (money_nonneg (not_lt.mp hnot)) (not_le.mpr husage)
  have hsub := money_sub hok.column hok.nonneg hneg
  have hnonneg := hok.nonneg
  have hr : resolveV2BudgetReservation row.amount_usd request.outcome request.attributable_usage_usd =
      .ok ⟨.settled, request.attributable_usage_usd,
        row.amount_usd - request.attributable_usage_usd, 0⟩ := by
    unfold resolveV2BudgetReservation
    rw [if_neg (not_lt.mpr hok.nonneg), if_neg (by linarith)]
    rcases hsettles with h | h <;> rw [h]
  have hadmitted : Admitted (resolvedRow row request ⟨.settled, request.attributable_usage_usd,
      row.amount_usd - request.attributable_usage_usd, 0⟩) := by
    refine ⟨⟨?_, ?_, ?_⟩, .inr ⟨by simp [resolvedRow], ?_⟩, .inr (.inr (.inl ⟨rfl, money_zero⟩))⟩
    · show |money request.attributable_usage_usd| < _
      rw [abs_of_neg husage]
      linarith
    · show |money (row.amount_usd - request.attributable_usage_usd)| < _
      rw [abs_of_nonneg (by linarith)]
      exact hfits
    · show |money 0| < _
      rw [money_zero]
      norm_num
    · show money request.attributable_usage_usd +
        money (row.amount_usd - request.attributable_usage_usd) + money 0 = row.amount_usd
      rw [hsub, money_zero]
      ring
  obtain ⟨db', hrun, hwrites⟩ := resolve_open hfound hnone hversion hr hadmitted
  exact ⟨_, db', hrun, hwrites, husage⟩

/-- An open reservation at the expected version is released by the sweep. -/
theorem writes_expired {c : OrphanReservationCandidate} {row : ReservationRow}
    (hfound : db.budget_reservations.get? c.reservation_id = some row) (hok : RowOk row)
    (hnone : row.resolution_outcome = none) (hversion : row.version = c.expected_version) :
    ∃ row' db', resolveV2BudgetReservationTransaction (sweepRequest c) db = .ok (row', db') ∧
      Writes (sweepRequest c) db row row' db' := by
  have hr : resolveV2BudgetReservation row.amount_usd (sweepRequest c).outcome
      (sweepRequest c).attributable_usage_usd = .ok ⟨.released, 0, row.amount_usd, 0⟩ := by
    unfold resolveV2BudgetReservation
    rw [if_neg (not_lt.mpr hok.nonneg)]
    show (if row.amount_usd < 0 then _ else _) = _
    rw [if_neg (not_lt.mpr hok.nonneg)]
    rfl
  have hadmitted : Admitted (resolvedRow row (sweepRequest c) ⟨.released, 0, row.amount_usd, 0⟩) := by
    refine ⟨⟨?_, ?_, ?_⟩, .inr ⟨by simp [resolvedRow], ?_⟩,
      .inr (.inr (.inr ⟨rfl, money_zero, money_zero, hok.column⟩))⟩
    · show |money 0| < _
      rw [money_zero]
      norm_num
    · show |money row.amount_usd| < _
      rw [hok.column, abs_of_nonneg hok.nonneg]
      exact hok.fits
    · show |money 0| < _
      rw [money_zero]
      norm_num
    · show money 0 + money row.amount_usd + money 0 = row.amount_usd
      rw [money_zero, hok.column]
      ring
  obtain ⟨db', hrun, hwrites⟩ := @resolve_open _ (sweepRequest c) _ _ hfound hnone hversion hr hadmitted
  exact ⟨_, db', hrun, hwrites⟩

theorem Writes.get {request : ResolutionRequest} {row row' : ReservationRow}
    (h : Writes request db row row' db') :
    db'.budget_reservations.get? request.reservation_id = some row' := by
  rw [h.tables, OrdMap.get?_set_self]

/-- A resolution is split but for a usage below zero. -/
theorem Writes.split {request : ResolutionRequest} {row row' : ReservationRow}
    (h : Writes request db row row' db') (hsplit : Split db) :
    Split db' ↔ (Settles request.outcome → 0 ≤ money request.attributable_usage_usd) := by
  obtain ⟨hreleased, hretained, hsettled⟩ := h.parts
  obtain ⟨hresolved, -, -, hsum⟩ := h.resolved
  constructor
  · intro hsplit'
    exact hsettled.mp (hsplit' _ _ h.get (by simp [hresolved])).2.1
  · intro husage id other hother hne
    rw [h.tables, OrdMap.get?_set] at hother
    split_ifs at hother with hid
    · cases hother
      exact ⟨hsum, hsettled.mpr husage, hreleased, hretained⟩
    · exact hsplit id other hother hne

/-- **A call** keeps the resolved reservations split exactly when it settles no usage below zero. -/
theorem split_resolve_iff (request : ResolutionRequest) (h : Base s) (hsplit : Split s.db) :
    Split (step s (.resolve request)).db ↔ Clean s (.resolve request) := by
  constructor
  · intro hafter hsettles row hfound hnone hversion
    by_contra hbad
    obtain ⟨husage, hfits⟩ := not_or.mp hbad
    obtain ⟨row', db', hrun, hwrites, hneg⟩ := writes_negative hfound (h.rows _ _ hfound) hnone hversion
      hsettles (not_le.mp husage) (not_le.mp hfits)
    have hdb : (step s (.resolve request)).db = db' := by
      show commit s.db ((resolveV2BudgetReservationTransaction request s.db).map Prod.snd) = db'
      rw [hrun]
      rfl
    have hget : (step s (.resolve request)).db.budget_reservations.get? request.reservation_id =
        some row' := by rw [hdb, hwrites.get]
    have hnonneg := (hafter _ _ hget (by simp [hwrites.resolved.1])).2.1
    exact absurd hneg (not_lt.mpr hnonneg)
  · intro hclean
    rcases commit_cases request s.db with hsame | ⟨row, row', hwrites⟩
    · show Split (commit s.db _)
      rw [hsame]
      exact hsplit
    · refine (hwrites.split hsplit).mpr fun hsettles => ?_
      rcases hclean hsettles row hwrites.found hwrites.unresolved hwrites.version with husage | hlarge
      · exact husage
      · obtain ⟨r, hr, hrow'⟩ := hwrites.resolution
        rcases (resolution_parts hr).2.2.2 with ⟨-, heq⟩ | ⟨hnot, -⟩
        · have hfits := hwrites.admitted.fits.2.1
          rw [hrow', heq] at hfits
          exact absurd hlarge (not_le.mpr (lt_of_abs_lt hfits))
        · exact absurd hsettles hnot

/-- A turn of a sweep keeps the resolved reservations split. -/
theorem split_repair (sw : Sweep) (hsplit : Split db) : Split (sw.repair db).2 := by
  rcases repair_tables sw db with hsame | ⟨c, row, row', hwrites⟩
  · rw [hsame]
    exact hsplit
  · refine (hwrites.split hsplit).mpr fun hsettles => ?_
    rcases hsettles with h | h <;> cases h

section

variable {c : OrphanReservationCandidate} {rest : List OrphanReservationCandidate} {row : ReservationRow}

theorem repair_ok (hthrown : sw.thrown = none) (hpending : sw.pending = c :: rest)
    (hrun : resolveV2BudgetReservationTransaction (sweepRequest c) db = .ok (row, db')) :
    sw.repair db = ({ sw with
      pending := rest
      repaired := sw.repaired ++ [c.reservation_id]
      written := if db'.budget_reservations.get? c.reservation_id =
          db.budget_reservations.get? c.reservation_id then sw.written
        else sw.written ++ [c.reservation_id] }, db') := by
  unfold Sweep.repair
  simp only [hthrown, hpending, hrun]

/-- An open candidate is released, or it is raced. -/
theorem SweepExact.repair_open (h : SweepExact sw) (hpending : sw.pending = c :: rest)
    (hrow : db.budget_reservations.get? c.reservation_id = some row) (hok : RowOk row)
    (hafter : SweepOk (sw.repair db).2 (sw.repair db).1) (hnone : row.resolution_outcome = none) :
    SweepExact (sw.repair db).1 := by
  by_cases hversion : row.version = c.expected_version
  · obtain ⟨row', db', hrun, hwrites⟩ := writes_expired hrow hok hnone hversion
    have hchanged : db'.budget_reservations.get? c.reservation_id ≠
        db.budget_reservations.get? c.reservation_id := by
      rw [hrow]
      intro hsame
      have hget : db'.budget_reservations.get? c.reservation_id = some row' := hwrites.get
      cases hget.symm.trans hsame
      simp [hwrites.resolved.1] at hnone
    rw [repair_ok h.running hpending hrun] at hafter ⊢
    refine ⟨h.running, hafter.visited h.running, fun id hid => ?_⟩
    dsimp only at hid ⊢
    rw [if_neg hchanged]
    rcases List.mem_append.mp hid with hid | hid
    · exact List.mem_append_left _ (h.own id hid)
    · exact List.mem_append_right _ hid
  · have hrun := @resolve_stale _ (sweepRequest c) _ hrow hnone hversion
    have hturn : sw.repair db =
        ({ sw with pending := rest, raced := sw.raced ++ [c.reservation_id] }, db) := by
      unfold Sweep.repair
      simp only [h.running, hpending, hrun]
    rw [hturn] at hafter ⊢
    exact ⟨h.running, hafter.visited h.running, h.own⟩

/-- A candidate that another call has let expire is reported as repaired. -/
theorem SweepExact.repair_expired (h : SweepExact sw) (hpending : sw.pending = c :: rest)
    (hrow : db.budget_reservations.get? c.reservation_id = some row) (hok : SweepOk db sw)
    (hexpired : row.resolution_outcome = some .expired) : ¬ SweepExact (sw.repair db).1 := by
  intro hexact
  have hrun := @resolve_repeated _ (sweepRequest c) _ hrow hexpired
  rw [repair_ok h.running hpending hrun] at hexact
  have hown := hexact.own c.reservation_id (List.mem_append_right _ (List.mem_singleton_self _))
  dsimp only at hown
  rw [if_pos rfl] at hown
  -- what it wrote it has repaired, and the candidate was still pending
  have hnodup := (h.visited.nodup_iff).mpr hok.distinct
  rw [hpending, List.map_cons, List.append_assoc, List.nodup_append] at hnodup
  exact hnodup.2.2 _ (hok.written _ hown) _ (by simp) rfl

/-- A candidate that another call has resolved otherwise ends the sweep. -/
theorem SweepExact.repair_other (h : SweepExact sw) (hpending : sw.pending = c :: rest)
    (hrow : db.budget_reservations.get? c.reservation_id = some row) {existing : BudgetOutcome}
    (hexisting : row.resolution_outcome = some existing) (hother : existing ≠ .expired) :
    ¬ SweepExact (sw.repair db).1 := by
  intro hexact
  have hrun := @resolve_other _ (sweepRequest c) _ hrow _ hexisting hother
  have hturn : sw.repair db = ({ sw with
      pending := rest
      thrown := some (.outcomeConflict c.reservation_id existing .expired) }, db) := by
    unfold Sweep.repair
    simp only [h.running, hpending, hrun]
    rfl
  rw [hturn] at hexact
  exact absurd hexact.running (by simp)

end

/-- **A turn** of a sweep is exact exactly when the candidate is open. -/
theorem sweepExact_repair_iff (hok : SweepOk db sw)
    (hrows : ∀ id row, db.budget_reservations.get? id = some row → RowOk row) (h : SweepExact sw) :
    SweepExact (sw.repair db).1 ↔ ∀ c rest, sw.pending = c :: rest → ∀ row,
      db.budget_reservations.get? c.reservation_id = some row → row.resolution_outcome = none := by
  rcases hpending : sw.pending with _ | ⟨c, rest⟩
  · have hsame : sw.repair db = (sw, db) := by
      unfold Sweep.repair
      rw [h.running, hpending]
    rw [hsame]
    exact iff_of_true h fun c rest hcons => nomatch hcons
  obtain ⟨row, hrow⟩ := hok.known c (by simp [hpending])
  constructor
  · rintro hexact c' rest' hcons row' hrow'
    cases hcons
    cases hrow.symm.trans hrow'
    by_contra hresolved
    obtain ⟨existing, hexisting⟩ := Option.ne_none_iff_exists'.mp hresolved
    by_cases hexpired : existing = .expired
    · subst hexpired
      exact h.repair_expired hpending hrow hok hexisting hexact
    · exact h.repair_other hpending hrow hexisting hexpired hexact
  · intro hopen
    exact h.repair_open hpending hrow (hrows _ _ hrow) hok.repair (hopen c rest rfl row hrow)

/-- **The step lemma**: a step keeps the books exact exactly when it is clean. -/
theorem exact_step_iff (h : Base s) (hexact : Exact s) (a : Action) :
    Exact (step s a) ↔ Clean s a := by
  cases a with
  | resolve request =>
    rw [← split_resolve_iff request h hexact.rows]
    exact ⟨fun hafter => hafter.rows, fun hsplit => ⟨hsplit, hexact.sweeps⟩⟩
  | extend id expiresAt =>
    exact iff_of_true ⟨extend_split h.rows id expiresAt hexact.rows, hexact.sweeps⟩ trivial
  | sweep held now limit =>
    refine iff_of_true ⟨hexact.rows, fun sw hsw => ?_⟩ trivial
    rcases List.mem_append.mp hsw with hsw | hsw
    · exact hexact.sweeps sw hsw
    · rw [List.mem_singleton.mp hsw]
      exact ⟨rfl, List.Perm.refl _, fun id hid => nomatch hid⟩
  | repair i =>
    rcases hsw : s.sweeps[i]? with _ | sw
    · have hsame : step s (.repair i) = s := by
        unfold step
        simp only [hsw]
      rw [hsame]
      refine iff_of_true hexact fun sw hsome => ?_
      rw [hsw] at hsome
      cases hsome
    · have hmem := List.mem_of_getElem? hsw
      have hturn := sweepExact_repair_iff (h.sweeps sw hmem) h.rows (hexact.sweeps sw hmem)
      have hstep : step s (.repair i) =
          ⟨(sw.repair s.db).2, s.sweeps.set i (sw.repair s.db).1⟩ := by
        unfold step
        simp only [hsw]
      obtain ⟨hi, -⟩ := List.getElem?_eq_some_iff.mp hsw
      rw [hstep]
      constructor
      · intro hafter other hother hthrown
        cases hsw.symm.trans hother
        exact hturn.mp (hafter.sweeps _ (List.mem_set hi _))
      · intro hclean
        refine ⟨split_repair sw hexact.rows, fun other hother => ?_⟩
        rcases List.mem_or_eq_of_mem_set hother with hold | rfl
        · exact hexact.sweeps other hold
        · exact hturn.mpr (hclean sw hsw (hexact.sweeps sw hmem).running)

theorem Start.base (h : Start s) : Base s where
  rows id row hrow := by
    obtain ⟨hnone, hnonneg, hfits, hcolumn⟩ := h.rows id row hrow
    exact ⟨hnonneg, hfits, hcolumn, fun hne => absurd hnone hne, fun hne => absurd hnone hne⟩
  sweeps sw hsw := by
    rw [h.sweeps] at hsw
    cases hsw

theorem Start.exact (h : Start s) : Exact s where
  rows id row hrow hne := absurd (h.rows id row hrow).1 hne
  sweeps sw hsw := by
    rw [h.sweeps] at hsw
    cases hsw

/-- **The books**: the resolved reservations stay as they are and are read or refused, and they are split and
the sweeps exact in every state, exactly when every step is clean. -/
theorem run_exact_iff (h : Start s) (as : List Action) :
    ((∀ pre, pre <+: as → Exact (run step s pre)) ∧ Along step Stable s as) ↔ Along step Clean s as := by
  have hstable : Along step Stable s as :=
    along_of_invariant (p := fun _ _ => True) (I := Base) (fun s a hbase _ => base_step hbase a)
      (fun s a hbase _ => stable_step hbase a) h.base (along_of_forall (fun _ _ => trivial) as s)
  rw [and_iff_left hstable]
  exact prefixes_iff_along (J := Base) (I := Exact) (fun s a hbase => base_step hbase a)
    (fun s a hbase hexact => exact_step_iff hbase hexact a) h.base h.exact

/-- One reservation, whose lease has passed. -/
def expiredRow : ReservationRow :=
  ⟨"project-1", "phase-1", "task-1", "run-1", 2, 0, 0, 0, .active, none, 1, 100⟩

def expiredStart : System where
  db := ⟨⟨[("reservation-1", expiredRow)], by simp⟩, []⟩
  sweeps := []

theorem expiredStart_start : Start expiredStart where
  rows id row hrow := by
    have hmem := OrdMap.mem_entries.mpr hrow
    cases List.mem_singleton.mp hmem
    exact ⟨rfl, by decide +kernel, by decide +kernel, by decide +kernel⟩
  sweeps := rfl

/-- A sweep at 200 that nothing holds up. -/
def sweepAll : Action := .sweep (fun _ => false) 200 100

theorem run_exact_expired :
    ((∀ pre, pre <+: [sweepAll, .extend "reservation-1" 300, .repair 0] →
        Exact (run step expiredStart pre)) ∧
      Along step Stable expiredStart [sweepAll, .extend "reservation-1" 300, .repair 0]) := by
  refine (run_exact_iff expiredStart_start _).mpr ⟨trivial, trivial, ?_, trivial⟩
  intro sw hsw hthrown c rest hpending row hrow
  have hnone : ∀ e ∈ (run step expiredStart
      [sweepAll, .extend "reservation-1" 300]).db.budget_reservations.entries,
        e.2.resolution_outcome = none := by decide +kernel
  exact hnone _ (OrdMap.mem_entries.mpr hrow)

/-- **A race that fails a sweep**: its only candidate succeeds, and the sweep throws. -/
theorem success_race_throws : Start expiredStart ∧
    (run step expiredStart [sweepAll, .resolve ⟨"reservation-1", 1, .success, 1, "runner"⟩,
      .repair 0]).sweeps.map Sweep.thrown =
        [some (.outcomeConflict "reservation-1" .success .expired)] ∧
    ¬ Exact (run step expiredStart [sweepAll, .resolve ⟨"reservation-1", 1, .success, 1, "runner"⟩,
      .repair 0]) := by
  have hthrown : (run step expiredStart [sweepAll,
      .resolve ⟨"reservation-1", 1, .success, 1, "runner"⟩, .repair 0]).sweeps.map Sweep.thrown =
        [some (.outcomeConflict "reservation-1" .success .expired)] := by decide +kernel
  refine ⟨expiredStart_start, hthrown, fun hexact => ?_⟩
  obtain ⟨sw, hsw, hsome⟩ := List.mem_map.mp (hthrown ▸ List.mem_singleton_self _)
  rw [(hexact.sweeps sw hsw).running] at hsome
  cases hsome

end

end Norns.Persistence.Reservations
