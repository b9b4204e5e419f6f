import Mathlib.Algebra.Order.BigOperators.Group.List
import Mathlib.Algebra.BigOperators.Group.List.Basic
import Mathlib.Data.List.Nodup
import Mathlib.Tactic.Abel

/-! # Insertion-ordered maps

`OrdMap α β` is a finite map that remembers the order in which its keys were first set, as a
JavaScript `Map` does: setting an old key keeps its place, a new key goes to the end. The entries
are a list with pairwise different keys, so an invalid map cannot be built.

* `get?_set`, `get?_delete`: reading after writing;
* `mem_entries`: the entries are the pairs that `get?` finds;
* `sum_set`, `sum_delete`: how the sum of a function of the entries changes. -/

namespace Norns.Lib

variable {α β : Type*} [DecidableEq α]

namespace Assoc

/-- The value stored at `k`. -/
def lookup (k : α) : List (α × β) → Option β
  | [] => none
  | (k', v) :: l => if k' = k then some v else lookup k l

/-- Overwrite the value at `k`, or append it. -/
def set (k : α) (v : β) : List (α × β) → List (α × β)
  | [] => [(k, v)]
  | (k', v') :: l => if k' = k then (k', v) :: l else (k', v') :: set k v l

/-- Drop the entry of `k`. -/
def delete (k : α) (l : List (α × β)) : List (α × β) := l.filter fun e => decide (e.1 ≠ k)

theorem lookup_set (k k' : α) (v : β) (l : List (α × β)) :
    lookup k' (set k v l) = if k = k' then some v else lookup k' l := by
  induction l with
  | nil => simp [set, lookup]
  | cons e l ih =>
    obtain ⟨a, b⟩ := e
    by_cases hk : a = k
    · subst hk; simp only [set, if_true, lookup]; split_ifs <;> rfl
    · simp only [set, if_neg hk, lookup, ih]
      by_cases hak : a = k'
      · subst hak; simp [Ne.symm hk]
      · simp [hak]

theorem lookup_delete (k k' : α) (l : List (α × β)) :
    lookup k' (delete k l) = if k = k' then none else lookup k' l := by
  induction l with
  | nil => simp [delete, lookup]
  | cons e l ih =>
    obtain ⟨a, b⟩ := e
    unfold delete at ih ⊢
    by_cases hk : a = k
    · subst hk
      rw [List.filter_cons_of_neg (by simp), ih]
      by_cases h : a = k' <;> simp [lookup, h]
    · rw [List.filter_cons_of_pos (by simpa using hk)]
      simp only [lookup, ih]
      by_cases hak : a = k'
      · subst hak; simp [Ne.symm hk]
      · simp [hak]

theorem lookup_eq_none {k : α} {l : List (α × β)} :
    lookup k l = none ↔ k ∉ l.map Prod.fst := by
  induction l with
  | nil => simp [lookup]
  | cons e l ih =>
    obtain ⟨a, b⟩ := e
    by_cases h : a = k
    · simp [lookup, h]
    · simp [lookup, h, ih, Ne.symm h]

theorem lookup_eq_some {k : α} {v : β} {l : List (α × β)} (hl : (l.map Prod.fst).Nodup) :
    lookup k l = some v ↔ (k, v) ∈ l := by
  induction l with
  | nil => simp [lookup]
  | cons e l ih =>
    obtain ⟨a, b⟩ := e
    rw [List.map_cons, List.nodup_cons] at hl
    by_cases h : a = k
    · subst h
      have hnm : ∀ w, (a, w) ∉ l := fun w hw => hl.1 (List.mem_map.mpr ⟨(a, w), hw, rfl⟩)
      simp [lookup, hnm, eq_comm]
    · simp [lookup, h, ih hl.2, Ne.symm h]

theorem keys_set (k : α) (v : β) (l : List (α × β)) :
    (set k v l).map Prod.fst =
      if k ∈ l.map Prod.fst then l.map Prod.fst else l.map Prod.fst ++ [k] := by
  induction l with
  | nil => simp [set]
  | cons e l ih =>
    obtain ⟨a, b⟩ := e
    by_cases h : a = k
    · subst h; simp [set]
    · simp only [set, if_neg h, List.map_cons, ih, List.mem_cons, Ne.symm h, false_or]
      split_ifs <;> rfl

theorem set_of_notMem {k : α} {v : β} {l : List (α × β)} (h : k ∉ l.map Prod.fst) :
    set k v l = l ++ [(k, v)] := by
  induction l with
  | nil => rfl
  | cons e l ih =>
    obtain ⟨a, b⟩ := e
    simp only [List.map_cons, List.mem_cons, not_or] at h
    simp [set, Ne.symm h.1, ih h.2]

theorem set_of_lookup {k : α} {v : β} {l : List (α × β)} (h : lookup k l = some v) :
    set k v l = l := by
  induction l with
  | nil => cases h
  | cons e l ih =>
    obtain ⟨a, b⟩ := e
    by_cases hk : a = k
    · simp only [lookup, if_pos hk, Option.some.injEq] at h
      simp only [set, if_pos hk, h]
    · simp only [lookup, if_neg hk] at h
      simp only [set, if_neg hk, ih h]

theorem delete_of_notMem {k : α} {l : List (α × β)} (h : k ∉ l.map Prod.fst) :
    delete k l = l := by
  refine List.filter_eq_self.mpr fun e he => ?_
  have : e.1 ≠ k := fun hk => h (List.mem_map.mpr ⟨e, he, hk⟩)
  simpa using this

end Assoc

/-- An insertion-ordered map. -/
structure OrdMap (α β : Type*) where
  /-- The entries, oldest key first. -/
  entries : List (α × β)
  nodup : (entries.map Prod.fst).Nodup

namespace OrdMap

instance [DecidableEq β] : DecidableEq (OrdMap α β) := fun m n =>
  decidable_of_iff (m.entries = n.entries) (by cases m; cases n; simp)

omit [DecidableEq α] in
@[ext] theorem ext_entries {m n : OrdMap α β} (h : m.entries = n.entries) : m = n := by
  cases m; cases n; simpa using h

/-- The empty map. -/
def empty : OrdMap α β := ⟨[], List.nodup_nil⟩

instance : Inhabited (OrdMap α β) := ⟨empty⟩

/-- The keys, in order. -/
def keys (m : OrdMap α β) : List α := m.entries.map Prod.fst

/-- The values, in the order of their keys. -/
def values (m : OrdMap α β) : List β := m.entries.map Prod.snd

def get? (m : OrdMap α β) (k : α) : Option β := Assoc.lookup k m.entries

def has (m : OrdMap α β) (k : α) : Bool := (m.get? k).isSome

def set (m : OrdMap α β) (k : α) (v : β) : OrdMap α β where
  entries := Assoc.set k v m.entries
  nodup := by
    rw [Assoc.keys_set]
    split_ifs with h
    · exact m.nodup
    · exact List.Nodup.append m.nodup (List.nodup_singleton k) (by simpa using h)

def delete (m : OrdMap α β) (k : α) : OrdMap α β where
  entries := Assoc.delete k m.entries
  nodup := m.nodup.sublist (List.filter_sublist.map Prod.fst)

@[simp] theorem get?_empty (k : α) : (empty : OrdMap α β).get? k = none := rfl

theorem get?_set (m : OrdMap α β) (k k' : α) (v : β) :
    (m.set k v).get? k' = if k = k' then some v else m.get? k' := Assoc.lookup_set k k' v _

@[simp] theorem get?_set_self (m : OrdMap α β) (k : α) (v : β) : (m.set k v).get? k = some v := by
  simp [get?_set]

theorem get?_set_ne (m : OrdMap α β) {k k' : α} (v : β) (h : k ≠ k') :
    (m.set k v).get? k' = m.get? k' := by simp [get?_set, h]

theorem get?_delete (m : OrdMap α β) (k k' : α) :
    (m.delete k).get? k' = if k = k' then none else m.get? k' := Assoc.lookup_delete k k' _

@[simp] theorem get?_delete_self (m : OrdMap α β) (k : α) : (m.delete k).get? k = none := by
  simp [get?_delete]

theorem get?_delete_ne (m : OrdMap α β) {k k' : α} (h : k ≠ k') :
    (m.delete k).get? k' = m.get? k' := by simp [get?_delete, h]

theorem mem_entries {m : OrdMap α β} {k : α} {v : β} : (k, v) ∈ m.entries ↔ m.get? k = some v :=
  (Assoc.lookup_eq_some m.nodup).symm

theorem get?_eq_none {m : OrdMap α β} {k : α} : m.get? k = none ↔ k ∉ m.keys :=
  Assoc.lookup_eq_none

theorem mem_keys {m : OrdMap α β} {k : α} : k ∈ m.keys ↔ ∃ v, m.get? k = some v := by
  rw [← Option.isSome_iff_exists, ← Option.ne_none_iff_isSome, ne_eq, get?_eq_none, not_not]

theorem has_iff {m : OrdMap α β} {k : α} : m.has k = true ↔ k ∈ m.keys := by
  rw [has, Option.isSome_iff_exists, mem_keys]

omit [DecidableEq α] in
theorem keys_nodup (m : OrdMap α β) : m.keys.Nodup := m.nodup

theorem mem_values {m : OrdMap α β} {v : β} : v ∈ m.values ↔ ∃ k, m.get? k = some v := by
  simp only [values, List.mem_map, Prod.exists, exists_eq_right, mem_entries]

theorem keys_set (m : OrdMap α β) (k : α) (v : β) :
    (m.set k v).keys = if k ∈ m.keys then m.keys else m.keys ++ [k] := Assoc.keys_set k v _

theorem mem_keys_set {m : OrdMap α β} {k k' : α} {v : β} :
    k' ∈ (m.set k v).keys ↔ k' = k ∨ k' ∈ m.keys := by
  rw [keys_set]
  split_ifs with h
  · exact ⟨Or.inr, fun h' => h'.elim (fun he => he ▸ h) id⟩
  · simp [or_comm]

theorem mem_keys_delete {m : OrdMap α β} {k k' : α} :
    k' ∈ (m.delete k).keys ↔ k' ≠ k ∧ k' ∈ m.keys := by
  simp only [mem_keys, get?_delete]
  by_cases h : k = k' <;> simp [h, Ne.symm, eq_comm]

theorem delete_of_get?_none {m : OrdMap α β} {k : α} (h : m.get? k = none) : m.delete k = m :=
  ext_entries (Assoc.delete_of_notMem (get?_eq_none.mp h))

theorem set_of_get? {m : OrdMap α β} {k : α} {v : β} (h : m.get? k = some v) : m.set k v = m :=
  ext_entries (Assoc.set_of_lookup h)

theorem set_set (m : OrdMap α β) (k : α) (v w : β) : (m.set k v).set k w = m.set k w := by
  refine ext_entries ?_
  show Assoc.set k w (Assoc.set k v m.entries) = Assoc.set k w m.entries
  induction m.entries with
  | nil => simp [Assoc.set]
  | cons e l ih =>
    obtain ⟨a, b⟩ := e
    by_cases h : a = k
    · subst h; simp [Assoc.set]
    · simp [Assoc.set, h, ih]

theorem entries_set_of_none {m : OrdMap α β} {k : α} (v : β) (h : m.get? k = none) :
    (m.set k v).entries = m.entries ++ [(k, v)] := Assoc.set_of_notMem (get?_eq_none.mp h)

theorem entries_delete (m : OrdMap α β) (k : α) :
    (m.delete k).entries = m.entries.filter fun e => decide (e.1 ≠ k) := rfl

/-- A new entry that is dropped again. -/
theorem delete_set_of_none {m : OrdMap α β} {k : α} (v : β) (h : m.get? k = none) : (m.set k v).delete k = m := by
  refine ext_entries ?_
  have hkeys : Assoc.delete k m.entries = m.entries := Assoc.delete_of_notMem (get?_eq_none.mp h)
  rw [entries_delete, entries_set_of_none v h, List.filter_append]
  simpa [Assoc.delete] using hkeys

theorem values_set_of_none {m : OrdMap α β} {k : α} (v : β) (h : m.get? k = none) :
    (m.set k v).values = m.values ++ [v] := by
  unfold values
  rw [entries_set_of_none v h, List.map_append]
  rfl

/-- Every value is replaced, in place. -/
def mapValues (f : β → β) (m : OrdMap α β) : OrdMap α β where
  entries := m.entries.map fun e => (e.1, f e.2)
  nodup := by
    rw [List.map_map]
    exact m.nodup

omit [DecidableEq α] in
theorem keys_mapValues (f : β → β) (m : OrdMap α β) : (m.mapValues f).keys = m.keys := by
  unfold keys mapValues
  rw [List.map_map]
  rfl

theorem get?_mapValues (f : β → β) (m : OrdMap α β) (k : α) :
    (m.mapValues f).get? k = (m.get? k).map f := by
  show Assoc.lookup k (m.entries.map fun e => (e.1, f e.2)) = (Assoc.lookup k m.entries).map f
  induction m.entries with
  | nil => rfl
  | cons e l ih =>
    unfold Assoc.lookup
    rw [List.map_cons]
    dsimp only
    split
    · rfl
    · exact ih

/-- The map of a list of entries, set one after the other. -/
def ofList (l : List (α × β)) : OrdMap α β := l.foldl (fun m e => m.set e.1 e.2) empty

theorem entries_ofList {l : List (α × β)} (h : (l.map Prod.fst).Nodup) :
    (ofList l).entries = l := by
  have main : ∀ (l : List (α × β)) (m : OrdMap α β), ((m.entries ++ l).map Prod.fst).Nodup →
      (l.foldl (fun m e => m.set e.1 e.2) m).entries = m.entries ++ l := by
    intro l
    induction l with
    | nil => intro m _; simp
    | cons e l ih =>
      intro m hm
      have hnone : m.get? e.1 = none := by
        rw [get?_eq_none]
        intro hk
        rw [List.map_append, List.map_cons] at hm
        exact List.disjoint_of_nodup_append hm hk (by simp)
      have hset := entries_set_of_none e.2 hnone
      rw [List.foldl_cons, ih _ (by rw [hset, List.append_assoc]; exact hm), hset,
        List.append_assoc]
      rfl
  exact main l empty (by simpa [empty] using h)

theorem keys_ofList {l : List (α × β)} (h : (l.map Prod.fst).Nodup) :
    (ofList l).keys = l.map Prod.fst := by rw [keys, entries_ofList h]

theorem get?_ofList {l : List (α × β)} (h : (l.map Prod.fst).Nodup) {k : α} {v : β} :
    (ofList l).get? k = some v ↔ (k, v) ∈ l := by
  rw [← mem_entries, entries_ofList h]

/-- What is read was in the list. -/
theorem mem_of_get?_ofList {l : List (α × β)} {k : α} {v : β} (h : (ofList l).get? k = some v) :
    (k, v) ∈ l := by
  have main : ∀ (l : List (α × β)) (m : OrdMap α β),
      (l.foldl (fun m e => m.set e.1 e.2) m).get? k = some v → (k, v) ∈ l ∨ m.get? k = some v := by
    intro l
    induction l with
    | nil => intro m hm; exact .inr hm
    | cons e l ih =>
      intro m hm
      rcases ih _ hm with hl | hset
      · exact .inl (List.mem_cons_of_mem _ hl)
      · rw [get?_set] at hset
        split at hset
        · rename_i hk
          rw [← Option.some.inj hset, ← hk]
          exact .inl List.mem_cons_self
        · exact .inr hset
  exact (main l empty h).resolve_right (by simp)

section Sum

variable {M : Type*} [AddCommGroup M] (f : α × β → M)

/-- The sum of `f` over the entries. -/
def sum (m : OrdMap α β) : M := (m.entries.map f).sum

theorem sum_set (m : OrdMap α β) (k : α) (v : β) :
    (m.set k v).sum f = m.sum f - (match m.get? k with | some w => f (k, w) | none => 0) + f (k, v) := by
  unfold sum set get?
  simp only
  induction m.entries with
  | nil => simp [Assoc.set, Assoc.lookup]
  | cons e l ih =>
    obtain ⟨a, b⟩ := e
    by_cases h : a = k
    · subst h; simp [Assoc.set, Assoc.lookup]; abel
    · simp only [Assoc.set, if_neg h, Assoc.lookup, List.map_cons, List.sum_cons, ih]
      abel

theorem sum_delete (m : OrdMap α β) (k : α) :
    (m.delete k).sum f = m.sum f - (match m.get? k with | some w => f (k, w) | none => 0) := by
  rcases hg : m.get? k with _ | w
  · simp [delete_of_get?_none hg]
  · obtain ⟨l, hl⟩ := m
    unfold sum delete
    unfold get? at hg
    simp only at hg ⊢
    induction l with
    | nil => simp [Assoc.lookup] at hg
    | cons e l ih =>
      obtain ⟨a, b⟩ := e
      rw [List.map_cons, List.nodup_cons] at hl
      by_cases h : a = k
      · subst h
        have hb : b = w := by simpa [Assoc.lookup] using hg
        have hd : Assoc.delete a ((a, b) :: l) = Assoc.delete a l := by
          unfold Assoc.delete; rw [List.filter_cons_of_neg (by simp)]
        rw [hd, Assoc.delete_of_notMem hl.1, hb]
        simp
      · have hd : Assoc.delete k ((a, b) :: l) = (a, b) :: Assoc.delete k l := by
          unfold Assoc.delete; rw [List.filter_cons_of_pos (by simpa using h)]
        simp only [Assoc.lookup, if_neg h] at hg
        rw [hd, List.map_cons, List.sum_cons, ih hl.2 hg, List.map_cons, List.sum_cons]
        abel

omit [DecidableEq α] in
theorem sum_filter_values (m : OrdMap α β) (p : β → Prop) [DecidablePred p] (g : β → M) :
    ((m.values.filter fun v => p v).map g).sum = m.sum fun e => if p e.2 then g e.2 else 0 := by
  unfold sum values
  induction m.entries with
  | nil => simp
  | cons e l ih =>
    rw [List.map_cons, List.filter_cons]
    by_cases h : p e.2
    · rw [if_pos (decide_eq_true h), List.map_cons, List.sum_cons, ih, List.map_cons, List.sum_cons,
        if_pos h]
    · rw [if_neg (by simpa using h), ih, List.map_cons, List.sum_cons, if_neg h, zero_add]

end Sum

section Order

variable {M : Type*} [AddCommGroup M] [PartialOrder M] [IsOrderedAddMonoid M] {f g : α × β → M}

theorem sum_le_sum {m : OrdMap α β} (h : ∀ k v, m.get? k = some v → f (k, v) ≤ g (k, v)) :
    m.sum f ≤ m.sum g :=
  List.sum_le_sum fun e he => h e.1 e.2 (mem_entries.mp he)

/-- Maps with the same keys are compared key by key. -/
theorem sum_le_sum_of_keys {m m' : OrdMap α β} (hkeys : m'.keys = m.keys)
    (h : ∀ k v v', m.get? k = some v → m'.get? k = some v' → f (k, v') ≤ g (k, v)) :
    m'.sum f ≤ m.sum g := by
  have hsum : ∀ (m : OrdMap α β) (f : α × β → M), m.sum f =
      (m.keys.map fun k => match m.get? k with | some v => f (k, v) | none => 0).sum := by
    intro m f
    unfold sum keys
    rw [List.map_map]
    refine congrArg List.sum (List.map_congr_left fun e he => ?_)
    show f e = match m.get? e.1 with | some v => f (e.1, v) | none => 0
    rw [mem_entries.mp he]
  rw [hsum m' f, hsum m g, hkeys]
  refine List.sum_le_sum fun k hk => ?_
  obtain ⟨v, hv⟩ := mem_keys.mp hk
  obtain ⟨v', hv'⟩ := mem_keys.mp (hkeys ▸ hk)
  rw [hv, hv']
  exact h k v v' hv hv'

/-- One entry is taken out of the sum. -/
theorem sum_le_sum_sub {m : OrdMap α β} {k : α} {v : β} (hk : m.get? k = some v)
    (h : ∀ k v, m.get? k = some v → f (k, v) ≤ g (k, v)) (hzero : f (k, v) ≤ 0) :
    m.sum f ≤ m.sum g - g (k, v) := by
  have hdelete : (m.delete k).sum f ≤ (m.delete k).sum g := by
    refine sum_le_sum fun k' v' hv' => h k' v' ?_
    rw [get?_delete] at hv'
    split at hv'
    · cases hv'
    · exact hv'
  rw [sum_delete, sum_delete, hk] at hdelete
  dsimp only at hdelete
  calc m.sum f = m.sum f - f (k, v) + f (k, v) := (sub_add_cancel _ _).symm
    _ ≤ m.sum g - g (k, v) + 0 := add_le_add hdelete hzero
    _ = m.sum g - g (k, v) := add_zero _

end Order

end OrdMap

/-- A `Set` that is made of a list has no element twice. -/
theorem nodup_eraseDups : ∀ l : List α, l.eraseDups.Nodup
  | [] => List.nodup_nil
  | a :: l => by
    rw [List.eraseDups_cons, List.nodup_cons]
    refine ⟨fun h => ?_, nodup_eraseDups _⟩
    simpa using List.mem_eraseDups.mp h
termination_by l => l.length
decreasing_by exact Nat.lt_succ_of_le (List.length_filter_le _ _)

end Norns.Lib
