import Mathlib.Algebra.Order.Ring.Int
import Mathlib.Algebra.Order.Group.Basic
import Mathlib.Tactic.Common

/-! # Months of the Gregorian calendar

Days are numbered from 1 January 1970. A month is numbered from March of the year 0, so that the leap
day is the last of its year: `monthStart m` is the first day of the month `m`, `monthOf d` the month
of the day `d`.

* `monthStart_strictMono`: months follow one another;
* `monthStart_monthOf_le`, `lt_monthStart_succ`: a day lies in its month;
* `monthOf_eq`: and in no other. -/

namespace Norns.Lib.Calendar

/-- The number of days before the year `y`, which begins with March. -/
def yearStart (y : ℤ) : ℤ := 365 * y + y / 4 - y / 100 + y / 400

/-- From 1 March of the year 0 to 1 January 1970. -/
def epoch : ℤ := 719468

def monthStart (m : ℤ) : ℤ := yearStart (m / 12) + (153 * (m % 12) + 2) / 5 - epoch

/-- The year of a day that is numbered from 1 March of the year 0. -/
def yearOf (d : ℤ) : ℤ :=
  let y := 400 * d / 146097
  if d < yearStart y then y - 1 else if yearStart (y + 1) ≤ d then y + 1 else y

def monthOf (d : ℤ) : ℤ :=
  let y := yearOf (d + epoch)
  12 * y + (5 * (d + epoch - yearStart y) + 2) / 153

theorem yearStart_succ (y : ℤ) :
    yearStart (y + 1) = yearStart y + 365 ∨ yearStart (y + 1) = yearStart y + 366 := by
  unfold yearStart
  omega

theorem yearOf_spec (d : ℤ) : yearStart (yearOf d) ≤ d ∧ d < yearStart (yearOf d + 1) := by
  have hlow : yearStart (400 * d / 146097 - 1) ≤ d := by
    unfold yearStart
    omega
  have hhigh : d < yearStart (400 * d / 146097 + 2) := by
    unfold yearStart
    omega
  unfold yearOf
  dsimp only
  split
  · rename_i hbefore
    exact ⟨hlow, by rwa [Int.sub_add_cancel]⟩
  · split
    · rename_i hafter
      exact ⟨hafter, by rwa [add_assoc]⟩
    · omega

theorem monthStart_lt_succ (m : ℤ) : monthStart m < monthStart (m + 1) := by
  have hnext := yearStart_succ (m / 12)
  unfold monthStart
  rcases lt_or_ge (m % 12) 11 with hm | hm
  · have hyear : (m + 1) / 12 = m / 12 := by omega
    rw [hyear]
    omega
  · have hyear : (m + 1) / 12 = m / 12 + 1 := by omega
    rw [hyear]
    omega

theorem monthStart_strictMono {m n : ℤ} (h : m < n) : monthStart m < monthStart n :=
  strictMono_int_of_lt_succ monthStart_lt_succ h

theorem monthOf_div (d : ℤ) : monthOf d / 12 = yearOf (d + epoch) := by
  have hspec := yearOf_spec (d + epoch)
  have hnext := yearStart_succ (yearOf (d + epoch))
  unfold monthOf
  dsimp only
  omega

theorem monthOf_mod (d : ℤ) :
    monthOf d % 12 = (5 * (d + epoch - yearStart (yearOf (d + epoch))) + 2) / 153 := by
  have hspec := yearOf_spec (d + epoch)
  have hnext := yearStart_succ (yearOf (d + epoch))
  unfold monthOf
  dsimp only
  omega

theorem monthStart_monthOf_le (d : ℤ) : monthStart (monthOf d) ≤ d := by
  have hspec := yearOf_spec (d + epoch)
  unfold monthStart
  rw [monthOf_div, monthOf_mod]
  omega

theorem lt_monthStart_succ (d : ℤ) : d < monthStart (monthOf d + 1) := by
  have hspec := yearOf_spec (d + epoch)
  have hnext := yearStart_succ (yearOf (d + epoch))
  have hdiv := monthOf_div d
  have hmod := monthOf_mod d
  unfold monthStart
  rcases lt_or_ge (monthOf d % 12) 11 with hm | hm
  · have hyear : (monthOf d + 1) / 12 = monthOf d / 12 := by omega
    rw [hyear, hdiv]
    omega
  · have hyear : (monthOf d + 1) / 12 = monthOf d / 12 + 1 := by omega
    have hmonth : (monthOf d + 1) % 12 = 0 := by omega
    rw [hyear, hdiv, hmonth]
    omega

theorem monthOf_eq {m d : ℤ} (hlow : monthStart m ≤ d) (hhigh : d < monthStart (m + 1)) :
    monthOf d = m := by
  have hle := (monthStart_monthOf_le d).trans_lt hhigh
  have hlt := hlow.trans_lt (lt_monthStart_succ d)
  have hmono : StrictMono monthStart := fun _ _ => monthStart_strictMono
  rw [hmono.lt_iff_lt] at hle hlt
  omega

theorem monthOf_monthStart (m : ℤ) : monthOf (monthStart m) = m :=
  monthOf_eq le_rfl (monthStart_lt_succ m)

/-- 1 March 2024 follows 29 February. -/
example : monthStart (monthOf 19783) = 19783 ∧ monthStart (monthOf 19782) = 19754 := by decide

end Norns.Lib.Calendar
