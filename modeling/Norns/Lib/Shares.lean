import Mathlib.Algebra.BigOperators.Group.List.Basic
import Mathlib.Algebra.Order.Group.Nat
import Mathlib.Algebra.Order.Monoid.Defs

/-! # Shares of a sum

The rows of a table that belong together, and the sum of their weights, as rows are replaced, added
and updated. -/

namespace Norns.Lib.Shares

variable {ρ M : Type*} [AddCommMonoid M] {own : ρ → Bool} {weight : ρ → M}

/-- The weight of the rows that are `own`. -/
def share (own : ρ → Bool) (weight : ρ → M) (rows : List ρ) : M := ((rows.filter own).map weight).sum

/-- What a row adds to the share. -/
def part (own : ρ → Bool) (weight : ρ → M) (row : ρ) : M := if own row then weight row else 0

@[simp] theorem share_nil : share own weight [] = 0 := rfl

theorem share_cons (row : ρ) (rows : List ρ) :
    share own weight (row :: rows) = part own weight row + share own weight rows := by
  unfold share part
  by_cases hown : own row = true
  · rw [List.filter_cons_of_pos hown, if_pos hown, List.map_cons, List.sum_cons]
  · rw [List.filter_cons_of_neg hown, if_neg hown, zero_add]

theorem share_append (rows rows' : List ρ) :
    share own weight (rows ++ rows') = share own weight rows + share own weight rows' := by
  simp [share, List.filter_append, List.map_append]

theorem share_concat (rows : List ρ) (row : ρ) :
    share own weight (rows ++ [row]) = share own weight rows + part own weight row := by
  rw [share_append, share_cons, share_nil, add_zero]

/-- All rows. -/
theorem share_true (rows : List ρ) : share (fun _ => true) weight rows = (rows.map weight).sum := by
  simp [share]

/-- **A row is replaced.** -/
theorem share_set {rows : List ρ} {row row' : ρ} : ∀ {i : ℕ}, rows[i]? = some row →
    share own weight (rows.set i row') + part own weight row =
      share own weight rows + part own weight row' := by
  induction rows with
  | nil => intro i h; cases h
  | cons first rest ih =>
    intro i h
    cases i with
    | zero =>
      obtain rfl : first = row := by simpa using h
      rw [List.set_cons_zero, share_cons, share_cons]
      rw [add_right_comm, add_comm (part own weight row'), add_right_comm]
    | succ i =>
      have hrest : rest[i]? = some row := by simpa using h
      rw [List.set_cons_succ, share_cons, share_cons, add_assoc, ih hrest, add_assoc]

section

variable [PartialOrder M] [IsOrderedAddMonoid M]

/-- **Every row is updated** to one that adds no more. -/
theorem share_map_le {f : ρ → ρ} : ∀ {rows : List ρ},
    (∀ row ∈ rows, part own weight (f row) ≤ part own weight row) →
      share own weight (rows.map f) ≤ share own weight rows := by
  intro rows
  induction rows with
  | nil => exact fun _ => le_rfl
  | cons row rows ih =>
    intro h
    have hfirst := h row List.mem_cons_self
    have hrest := ih fun other hother => h other (List.mem_cons_of_mem row hother)
    rw [List.map_cons, share_cons, share_cons]
    exact add_le_add hfirst hrest

end

end Norns.Lib.Shares
