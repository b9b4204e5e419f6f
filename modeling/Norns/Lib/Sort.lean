import Mathlib.Data.List.Sort

/-! # Sorting by a comparison

A comparison that breaks ties by something else still sorts by what it looks at first.

* `pairwise_insertionSort`: no law is asked of the tie-break. -/

namespace Norns.Lib

/-- A sort by a comparison sorts by what the comparison looks at first. -/
theorem pairwise_insertionSort {α : Type} {r coarse : α → α → Prop} [DecidableRel r] (hle : ∀ a b, r a b → coarse a b)
    (hgt : ∀ a b, ¬ r a b → coarse b a) (htrans : ∀ a b c, coarse a b → coarse b c → coarse a c) (l : List α) :
    (l.insertionSort r).Pairwise coarse := by
  have hinsert : ∀ (a : α) (l : List α), l.Pairwise coarse → (l.orderedInsert r a).Pairwise coarse := by
    intro a l
    induction l with
    | nil => exact fun _ => List.pairwise_singleton _ _
    | cons b l ih =>
      intro h
      obtain ⟨hb, hl⟩ := List.pairwise_cons.mp h
      by_cases hab : r a b
      · rw [List.orderedInsert_cons_of_le r l hab]
        refine List.pairwise_cons.mpr ⟨fun c hc => ?_, h⟩
        rcases List.mem_cons.mp hc with rfl | hc
        · exact hle a c hab
        · exact htrans a b c (hle a b hab) (hb c hc)
      · rw [List.orderedInsert_of_not_le r l hab]
        refine List.pairwise_cons.mpr ⟨fun c hc => ?_, ih hl⟩
        rcases (List.mem_orderedInsert r).mp hc with rfl | hc
        · exact hgt c b hab
        · exact hb c hc
  induction l with
  | nil => exact List.Pairwise.nil
  | cons a l ih => exact hinsert a _ ih

end Norns.Lib
