import Mathlib.Algebra.Order.Ring.Rat
import Mathlib.Tactic.Linarith
import Norns.Lib.OrdMap

/-! # The budget ledger

`BudgetLedger` of `engine/budget.ts`: per node an approved amount, what has been settled and the
active reservations; `reserve` is a check-and-set against the node's available amount and against
the project cap. Amounts are exact rationals. A call that throws is `Except.error`, and the ledger
it is called on stays. -/

namespace Norns.Engine.Budget

open Norns.Lib

/-- Which limit a refused reservation ran into. -/
inductive BudgetScope
  | node
  | project
  deriving DecidableEq, Repr

inductive LedgerError
  | budgetExceeded (nodeId : String) (requested available : ℚ) (scope : BudgetScope)
  | noApprovedBudget (nodeId : String)
  | unknownReservation (reservationId : String)
  deriving DecidableEq

/-- The text of the error; `usd` prints a number. -/
def LedgerError.message (usd : ℚ → String) : LedgerError → String
  | .budgetExceeded nodeId requested available _ =>
    "budget exceeded for " ++ nodeId ++ ": requested $" ++ usd requested ++ ", available $" ++
      usd available
  | .noApprovedBudget nodeId => "no approved budget for node " ++ nodeId
  | .unknownReservation reservationId => "unknown reservation " ++ reservationId

structure NodeBudget where
  approvedUsd : ℚ
  settledUsd : ℚ
  /-- Reservation id ↦ maximal charge. -/
  reservations : OrdMap String ℚ
  deriving DecidableEq

structure BudgetLedger where
  projectCapUsd : ℚ
  nodes : OrdMap String NodeBudget
  reservationCounter : ℕ
  /-- A threshold callback is registered. -/
  onThreshold : Bool
  /-- The nodes the callback was called for, in order. -/
  notified : List String
  deriving DecidableEq

/-- `available = approved − settled − active reservations`. -/
def availableBudgetUsd (approvedUsd settledUsd activeReservationsUsd : ℚ) : ℚ :=
  approvedUsd - settledUsd - activeReservationsUsd

/-- The 80% threshold counts settled usage and active reservations. -/
def budgetThresholdReached (approvedUsd settledUsd activeReservationsUsd : ℚ)
    (threshold : ℚ := 4 / 5) : Bool :=
  if approvedUsd ≤ 0 then true
  else decide (threshold ≤ (settledUsd + activeReservationsUsd) / approvedUsd)

def NodeBudget.activeUsd (node : NodeBudget) : ℚ := node.reservations.sum Prod.snd

def NodeBudget.available (node : NodeBudget) : ℚ :=
  availableBudgetUsd node.approvedUsd node.settledUsd node.activeUsd

namespace BudgetLedger

def new (projectCapUsd : ℚ) : BudgetLedger := ⟨projectCapUsd, OrdMap.empty, 0, false, []⟩

def notifyThreshold (l : BudgetLedger) : BudgetLedger := { l with onThreshold := true }

/-- A fresh entry, whether or not the node has one. -/
def approve (l : BudgetLedger) (nodeId : String) (approvedUsd : ℚ) : BudgetLedger :=
  { l with nodes := l.nodes.set nodeId ⟨approvedUsd, 0, OrdMap.empty⟩ }

def require (l : BudgetLedger) (nodeId : String) : Except LedgerError NodeBudget :=
  match l.nodes.get? nodeId with
  | some node => .ok node
  | none => .error (.noApprovedBudget nodeId)

def projectActiveUsd (l : BudgetLedger) : ℚ := l.nodes.sum fun e => e.2.activeUsd

def projectSettledUsd (l : BudgetLedger) : ℚ := l.nodes.sum fun e => e.2.settledUsd

def available (l : BudgetLedger) (nodeId : String) : Except LedgerError ℚ := do
  return (← l.require nodeId).available

/-- The id of the `n`-th reservation. -/
def reservationId (n : ℕ) : String := "res_" ++ toString n

def reserve (l : BudgetLedger) (nodeId : String) (maxChargeUsd : ℚ) :
    Except LedgerError (String × BudgetLedger) := do
  let node ← l.require nodeId
  let available ← l.available nodeId
  if maxChargeUsd > available then
    throw (.budgetExceeded nodeId maxChargeUsd available .node)
  if l.projectActiveUsd + l.projectSettledUsd + maxChargeUsd > l.projectCapUsd then
    throw (.budgetExceeded "project-cap" maxChargeUsd l.projectCapUsd .project)
  let id := reservationId (l.reservationCounter + 1)
  let node' := { node with reservations := node.reservations.set id maxChargeUsd }
  let reached := budgetThresholdReached node'.approvedUsd node'.settledUsd node'.activeUsd
  return (id, { l with
    nodes := l.nodes.set nodeId node'
    reservationCounter := l.reservationCounter + 1
    notified := if reached && l.onThreshold then l.notified ++ [nodeId] else l.notified })

/-- Settle against actual usage, bounded by what was held. -/
def settle (l : BudgetLedger) (nodeId reservationId : String) (actualUsd : ℚ) :
    Except LedgerError BudgetLedger := do
  let node ← l.require nodeId
  match node.reservations.get? reservationId with
  | none => throw (.unknownReservation reservationId)
  | some held => return { l with
      nodes := l.nodes.set nodeId { node with
        reservations := node.reservations.delete reservationId
        settledUsd := node.settledUsd + min actualUsd held } }

def release (l : BudgetLedger) (nodeId reservationId : String) :
    Except LedgerError BudgetLedger := do
  let node ← l.require nodeId
  return { l with
    nodes := l.nodes.set nodeId { node with
      reservations := node.reservations.delete reservationId } }

def settledUsd (l : BudgetLedger) (nodeId : String) : Except LedgerError ℚ := do
  return (← l.require nodeId).settledUsd

def activeReservationsUsd (l : BudgetLedger) (nodeId : String) : Except LedgerError ℚ := do
  return (← l.require nodeId).activeUsd

def projectHardCapReached (l : BudgetLedger) : Bool :=
  decide (l.projectCapUsd ≤ l.projectSettledUsd + l.projectActiveUsd)

/-! ### What each call does -/

theorem reserve_ok {l l' : BudgetLedger} {nodeId id : String} {max : ℚ}
    (h : l.reserve nodeId max = .ok (id, l')) :
    ∃ node, l.nodes.get? nodeId = some node ∧ node.settledUsd + node.activeUsd + max ≤ node.approvedUsd ∧
      l.projectActiveUsd + l.projectSettledUsd + max ≤ l.projectCapUsd ∧
      id = reservationId (l.reservationCounter + 1) ∧
      l'.reservationCounter = l.reservationCounter + 1 ∧ l'.projectCapUsd = l.projectCapUsd ∧
      l'.nodes = l.nodes.set nodeId { node with reservations := node.reservations.set id max } := by
  unfold reserve available require at h
  rcases hn : l.nodes.get? nodeId with _ | node
  · simp [hn, bind, Except.bind] at h
  · simp only [hn, bind, Except.bind, pure, Except.pure] at h
    by_cases h1 : max > node.available
    · rw [if_pos h1] at h; cases h
    by_cases h2 : l.projectActiveUsd + l.projectSettledUsd + max > l.projectCapUsd
    · rw [if_neg h1, if_pos h2] at h; cases h
    rw [if_neg h1, if_neg h2] at h
    simp only [Except.ok.injEq, Prod.mk.injEq] at h
    obtain ⟨rfl, rfl⟩ := h
    unfold NodeBudget.available availableBudgetUsd at h1
    exact ⟨node, rfl, by linarith, by linarith, rfl, rfl, rfl, rfl⟩

theorem settle_ok {l l' : BudgetLedger} {nodeId id : String} {actual : ℚ}
    (h : l.settle nodeId id actual = .ok l') :
    ∃ node held, l.nodes.get? nodeId = some node ∧ node.reservations.get? id = some held ∧
      l' = { l with nodes := l.nodes.set nodeId { node with
        reservations := node.reservations.delete id
        settledUsd := node.settledUsd + min actual held } } := by
  unfold settle require at h
  rcases hn : l.nodes.get? nodeId with _ | node
  · simp [hn, bind, Except.bind] at h
  · rcases hr : node.reservations.get? id with _ | held
    · simp [hn, hr, bind, Except.bind, throw, throwThe, MonadExceptOf.throw] at h
    · simp only [hn, hr, bind, Except.bind, pure, Except.pure, Except.ok.injEq] at h
      exact ⟨node, held, rfl, hr, h.symm⟩

theorem settle_of_held {l : BudgetLedger} {nodeId id : String} {node : NodeBudget} {held : ℚ}
    (hn : l.nodes.get? nodeId = some node) (hr : node.reservations.get? id = some held)
    (actual : ℚ) : ∃ l', l.settle nodeId id actual = .ok l' := by
  unfold settle require
  simp [hn, hr, bind, Except.bind, pure, Except.pure]

theorem release_ok {l l' : BudgetLedger} {nodeId id : String}
    (h : l.release nodeId id = .ok l') :
    ∃ node, l.nodes.get? nodeId = some node ∧
      l' = { l with nodes := l.nodes.set nodeId { node with
        reservations := node.reservations.delete id } } := by
  unfold release require at h
  rcases hn : l.nodes.get? nodeId with _ | node
  · simp [hn, bind, Except.bind] at h
  · simp only [hn, bind, Except.bind, pure, Except.pure, Except.ok.injEq] at h
    exact ⟨node, rfl, h.symm⟩

end BudgetLedger

end Norns.Engine.Budget
