import Norns.Coordinator.Tables

/-! # Resolving a reservation

`v2/budget.ts` and the resolutions that the event path and the dispatcher apply: the money a run
used, as far as its reservation holds it, is settled, the rest released. -/

namespace Norns.Coordinator

open Norns.Lib

inductive BudgetOutcome
  | success | partial_usage | cancelled | expired | rejected | dead_letter | ambiguous_execution
  deriving DecidableEq, Repr

def BudgetOutcome.text : BudgetOutcome → String
  | .success => "success"
  | .partial_usage => "partial_usage"
  | .cancelled => "cancelled"
  | .expired => "expired"
  | .rejected => "rejected"
  | .dead_letter => "dead_letter"
  | .ambiguous_execution => "ambiguous_execution"

structure BudgetResolution where
  status : ReservationStatus
  settled_usd : ℕ
  released_usd : ℕ
  retained_usd : ℕ
  deriving DecidableEq, Repr

def resolveV2BudgetReservation (reservedAmountUsd : ℕ) (outcome : BudgetOutcome)
    (attributable_usage_usd : ℕ) : Except Abort BudgetResolution :=
  if reservedAmountUsd < attributable_usage_usd then
    .error (.rejected "attributable usage cannot exceed the reservation")
  else
    match outcome with
    | .success | .partial_usage =>
      .ok ⟨.settled, attributable_usage_usd, reservedAmountUsd - attributable_usage_usd, 0⟩
    | .cancelled | .expired | .rejected | .dead_letter =>
      if attributable_usage_usd ≠ 0 then
        .error (.rejected (outcome.text ++ " before execution cannot settle usage"))
      else .ok ⟨.released, 0, reservedAmountUsd, 0⟩
    | .ambiguous_execution =>
      if attributable_usage_usd ≠ 0 then
        .error (.rejected
          "ambiguous execution retains the full reservation until reconciliation")
      else .ok ⟨.retained_ambiguous, 0, 0, reservedAmountUsd⟩

def reservationId (run_id : String) : String := "budget-reservation:" ++ run_id

/-- How a run ended. -/
inductive Terminal
  | succeeded | failed | rejected | expired | cancelled
  deriving DecidableEq, Repr

/-- The outcome of `settleTerminalUsage`. -/
def Terminal.outcome (terminal : Terminal) (attributableUsage : ℕ) : BudgetOutcome :=
  if terminal = .succeeded then .success
  else if 0 < attributableUsage then .partial_usage
  else match terminal with
    | .cancelled => .cancelled
    | .expired => .expired
    | _ => .rejected

namespace Database

/-- `applyResolution` -/
def applyResolution (db : Database) (id : String) (row : BudgetReservationRow)
    (resolution : BudgetResolution) : Database :=
  { db with budget_reservations := db.budget_reservations.set id { row with
      status := resolution.status
      settled_usd := resolution.settled_usd
      released_usd := resolution.released_usd
      retained_usd := resolution.retained_usd } }

/-- The active reservation of the run is resolved with what the run used. -/
def resolveActive (db : Database) (run_id : String) (outcome : ℕ → BudgetOutcome)
    (cost_usd : ℕ) : Except Abort Database :=
  match db.budget_reservations.get? (reservationId run_id) with
  | none => .ok db
  | some row =>
    if row.status ≠ .active then .ok db
    else
      let attributableUsage := min cost_usd row.amount_usd
      match resolveV2BudgetReservation row.amount_usd (outcome attributableUsage)
          attributableUsage with
      | .error abort => .error abort
      | .ok resolution => .ok (db.applyResolution (reservationId run_id) row resolution)

/-- `settleTerminalUsage`, where `cost_usd` is the reconciled cost of the run. -/
def settleTerminalUsage (db : Database) (run_id : String) (terminal : Terminal) (cost_usd : ℕ) :
    Except Abort Database :=
  db.resolveActive run_id terminal.outcome cost_usd

end Database

/-! ### What a resolution does -/

/-- One active reservation is resolved, or none. -/
def Resolves (m m' : OrdMap String BudgetReservationRow) : Prop :=
  m' = m ∨ ∃ id row outcome usage resolution, m.get? id = some row ∧ row.status = .active ∧
    resolveV2BudgetReservation row.amount_usd outcome usage = .ok resolution ∧
    m' = m.set id { row with
      status := resolution.status
      settled_usd := resolution.settled_usd
      released_usd := resolution.released_usd
      retained_usd := resolution.retained_usd }

theorem resolveActive_ok {db db' : Database} {run_id : String} {outcome : ℕ → BudgetOutcome}
    {cost : ℕ} (h : db.resolveActive run_id outcome cost = .ok db') :
    ∃ m, Resolves db.budget_reservations m ∧ db' = { db with budget_reservations := m } := by
  unfold Database.resolveActive at h
  split at h
  · cases h
    exact ⟨_, .inl rfl, rfl⟩
  · rename_i row hrow
    split at h
    · cases h
      exact ⟨_, .inl rfl, rfl⟩
    · rename_i hactive
      dsimp only at h
      split at h
      · cases h
      · rename_i resolution hres
        cases h
        exact ⟨_, .inr ⟨_, row, _, _, resolution, hrow, not_not.mp hactive, hres, rfl⟩, rfl⟩

end Norns.Coordinator
