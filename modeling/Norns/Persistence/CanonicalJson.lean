import Norns.Lib.JsonText
import Mathlib.Data.List.Perm.Subperm
import Mathlib.Data.List.Nodup

/-! # Canonical JSON

`canonicalJson` (`canonicalJson.ts`): the fields of every object in the order of their keys, no blanks, `-0` as `0`, and
an error for what is no JSON value. A value is a tree, so that a cycle is a reference to an enclosing object.

* `canonicalize`: the text of any value, or its error;
* `Same`: when two JSON values are equal;
* `canon`: the JSON value that the text stands for, `canonicalize_ofJson`;
* `canon_eq_iff`: it is the same for equal values only;
* `canonicalJson_faithful`: texts and values. -/

namespace Norns.Persistence.CanonicalJson

open Norns.Lib.JsonText

/-! ### The source -/

/-- Any value, as far as `canonicalize` looks at it. -/
inductive Value (ν : Type)
  | null
  | bool (b : Bool)
  | num (x : ν)
  /-- `NaN`, `Infinity` and `-Infinity` -/
  | nonFinite
  | str (s : Text)
  | arr (items : List (Value ν))
  /-- An object with its symbol keys and string keys; a plain one has the prototype of an object or none. -/
  | obj (plain : Bool) (symbols : ℕ) (fields : List (Text × Value ν))
  /-- A place of a sparse array. -/
  | hole
  /-- An object that the value lies in. -/
  | ancestor
  | other (typeof : String)

structure TypeError where
  message : String
  deriving DecidableEq, Repr

/-- The order of `Array.prototype.sort` on strings. -/
def keyLe : Text → Text → Bool
  | [], _ => true
  | _ :: _, [] => false
  | c :: s, d :: t => if c.val < d.val then true else if d.val < c.val then false else keyLe s t

/-- The entries in the order of their keys. -/
def sortByKey {α : Type} (entries : List (Text × α)) : List (Text × α) :=
  entries.mergeSort fun a b => keyLe a.1 b.1

/-- `entries.join(",")` -/
def join (entries : List Text) : Text := List.intercalate [unit ','] entries

variable {ν : Type}

section

variable (f : NumberFormat ν) (isNegZero : ν → Bool)

mutual

def canonicalize : Value ν → Except TypeError Text
  | .null => .ok [unit 'n', unit 'u', unit 'l', unit 'l']
  | .bool true => .ok [unit 't', unit 'r', unit 'u', unit 'e']
  | .bool false => .ok [unit 'f', unit 'a', unit 'l', unit 's', unit 'e']
  | .str s => .ok (quote s)
  | .num x => .ok (if isNegZero x then [unit '0'] else f.print x)
  | .nonFinite => .error ⟨"canonical JSON does not support non-finite numbers"⟩
  | .other typeof => .error ⟨"canonical JSON does not support " ++ typeof ++ " values"⟩
  | .hole => .error ⟨"canonical JSON does not support undefined values"⟩
  | .ancestor => .error ⟨"canonical JSON does not support cyclic values"⟩
  | .arr items => do
    let entries ← canonicalizeItems items
    return unit '[' :: join entries ++ [unit ']']
  | .obj plain symbols fields =>
    if plain = false then .error ⟨"canonical JSON supports only plain objects"⟩
    else if 0 < symbols then .error ⟨"canonical JSON does not support symbol keys"⟩
    else do
      let entries ← (sortByKey (canonicalizeFields fields)).mapM fun entry => do
        return quote entry.1 ++ unit ':' :: (← entry.2)
      return unit '\x7b' :: join entries ++ [unit '\x7d']

def canonicalizeItems : List (Value ν) → Except TypeError (List Text)
  | [] => .ok []
  | .hole :: _ => .error ⟨"canonical JSON does not support sparse arrays"⟩
  | item :: items => do
    let entry ← canonicalize item
    let entries ← canonicalizeItems items
    return entry :: entries

/-- The keys with the texts of their values. -/
def canonicalizeFields : List (Text × Value ν) → List (Text × Except TypeError Text)
  | [] => []
  | (key, value) :: fields => (key, canonicalize value) :: canonicalizeFields fields

end

def canonicalJson (value : Value ν) : Except TypeError Text := canonicalize f isNegZero value

end

/-! ### JSON values -/

mutual

/-- A JSON value as a value of the language. -/
def ofJson : Json ν → Value ν
  | .null => .null
  | .bool b => .bool b
  | .num x => .num x
  | .str s => .str s
  | .arr xs => .arr (ofItems xs)
  | .obj fs => .obj true 0 (ofFields fs)

def ofItems : List (Json ν) → List (Value ν)
  | [] => []
  | x :: xs => ofJson x :: ofItems xs

def ofFields : List (Text × Json ν) → List (Text × Value ν)
  | [] => []
  | (k, v) :: fs => (k, ofJson v) :: ofFields fs

end

section

variable (norm : ν → ν)

mutual

/-- **Equality of JSON values**: numbers up to `norm`, arrays in their order, objects in any order. -/
def Same : Json ν → Json ν → Prop
  | .null, .null => True
  | .bool a, .bool b => a = b
  | .num x, .num y => norm x = norm y
  | .str s, .str t => s = t
  | .arr xs, .arr ys => SameItems xs ys
  | .obj fs, .obj gs => fs.length = gs.length ∧ SameFields fs gs
  | _, _ => False

def SameItems : List (Json ν) → List (Json ν) → Prop
  | [], [] => True
  | x :: xs, y :: ys => Same x y ∧ SameItems xs ys
  | _, _ => False

/-- Every field has its key in `gs`, with the same value. -/
def SameFields : List (Text × Json ν) → List (Text × Json ν) → Prop
  | [], _ => True
  | (k, v) :: fs, gs => (∃ w, (k, w) ∈ gs ∧ Same v w) ∧ SameFields fs gs

end

mutual

/-- The value that the canonical text stands for. -/
def canon : Json ν → Json ν
  | .num x => .num (norm x)
  | .arr xs => .arr (canonItems xs)
  | .obj fs => .obj (sortByKey (canonFields fs))
  | j => j

def canonItems : List (Json ν) → List (Json ν)
  | [] => []
  | x :: xs => canon x :: canonItems xs

def canonFields : List (Text × Json ν) → List (Text × Json ν)
  | [] => []
  | (k, v) :: fs => (k, canon v) :: canonFields fs

end

end

/-! ### The order of the keys -/

theorem keyLe_total (s t : Text) : keyLe s t || keyLe t s := by
  induction s, t using keyLe.induct with
  | case1 t => simp [keyLe]
  | case2 c s => simp [keyLe]
  | case3 c s d t h => simp [keyLe, h]
  | case4 c s d t h h' => simp [keyLe, h, h']
  | case5 c s d t h h' ih =>
    rw [keyLe, keyLe, if_neg h, if_neg h', if_neg h', if_neg h]
    exact ih

theorem keyLe_antisymm {s t : Text} (h : keyLe s t = true) (h' : keyLe t s = true) : s = t := by
  induction s, t using keyLe.induct with
  | case1 t =>
    cases t with
    | nil => rfl
    | cons d t => cases h'
  | case2 c s => cases h
  | case3 c s d t hlt =>
    rw [keyLe, if_neg (by omega), if_pos hlt] at h'
    cases h'
  | case4 c s d t hnlt hlt =>
    rw [keyLe, if_neg hnlt, if_pos hlt] at h
    cases h
  | case5 c s d t hnlt hngt ih =>
    rw [keyLe, if_neg hnlt, if_neg hngt] at h
    rw [keyLe, if_neg hngt, if_neg hnlt] at h'
    rw [ih h h', show c = d from Fin.ext (by omega)]

theorem keyLe_trans : ∀ {s t u : Text}, keyLe s t = true → keyLe t u = true → keyLe s u = true
  | [], _, _, _, _ => by rw [keyLe]
  | _ :: _, [], _, h, _ => by cases h
  | _ :: _, _ :: _, [], _, h => by cases h
  | c :: s, d :: t, e :: u, h, h' => by
    rw [keyLe] at h h' ⊢
    by_cases hcd : c.val < d.val
    · by_cases hde : d.val < e.val
      · rw [if_pos (by omega)]
      · rw [if_neg hde] at h'
        by_cases hed : e.val < d.val
        · rw [if_pos hed] at h'
          cases h'
        · rw [if_pos (by omega)]
    · rw [if_neg hcd] at h
      by_cases hdc : d.val < c.val
      · rw [if_pos hdc] at h
        cases h
      · rw [if_neg hdc] at h
        by_cases hde : d.val < e.val
        · rw [if_pos (by omega)]
        · rw [if_neg hde] at h'
          by_cases hed : e.val < d.val
          · rw [if_pos hed] at h'
            cases h'
          · rw [if_neg hed] at h'
            rw [if_neg (by omega), if_neg (by omega)]
            exact keyLe_trans h h'

section

variable {α : Type}

theorem sortByKey_perm (entries : List (Text × α)) : (sortByKey entries).Perm entries := List.mergeSort_perm _ _

theorem sortByKey_pairwise (entries : List (Text × α)) :
    (sortByKey entries).Pairwise fun a b => keyLe a.1 b.1 = true :=
  @List.pairwise_mergeSort (Text × α) (fun a b => keyLe a.1 b.1) (fun _ _ _ h h' => keyLe_trans h h')
    (fun a b => keyLe_total a.1 b.1) entries

theorem sortByKey_sortByKey (entries : List (Text × α)) : sortByKey (sortByKey entries) = sortByKey entries :=
  List.mergeSort_of_pairwise (sortByKey_pairwise entries)

/-- Sorting looks at the keys only. -/
theorem sortByKey_map {β : Type} (g : α → β) (entries : List (Text × α)) :
    sortByKey (entries.map fun e => (e.1, g e.2)) = (sortByKey entries).map fun e => (e.1, g e.2) := by
  unfold sortByKey
  rw [List.map_mergeSort]
  exact fun _ _ _ _ => rfl

theorem keys_sortByKey {entries : List (Text × α)} (h : (entries.map Prod.fst).Nodup) :
    ((sortByKey entries).map Prod.fst).Nodup := ((sortByKey_perm entries).map Prod.fst).nodup_iff.mpr h

/-- **With distinct keys**, the entries in the order of their keys are the same exactly for permutations. -/
theorem sortByKey_eq_iff {xs ys : List (Text × α)} (hxs : (xs.map Prod.fst).Nodup) :
    sortByKey xs = sortByKey ys ↔ xs.Perm ys := by
  constructor
  · intro h
    exact (sortByKey_perm xs).symm.trans (h ▸ sortByKey_perm ys)
  · intro h
    have hperm : (sortByKey xs).Perm (sortByKey ys) :=
      (sortByKey_perm xs).trans (h.trans (sortByKey_perm ys).symm)
    refine hperm.eq_of_pairwise (fun a b ha hb hab hba => ?_) (sortByKey_pairwise xs) (sortByKey_pairwise ys)
    have hb : b ∈ sortByKey xs := hperm.mem_iff.mpr hb
    exact List.inj_on_of_nodup_map (keys_sortByKey hxs) ha hb (keyLe_antisymm hab hba)

end

/-! ### The text of a JSON value -/

/-- `norm`, where `-0` is told by `isNegZero`. -/
def unsign (isNegZero : ν → Bool) (zero x : ν) : ν := if isNegZero x then zero else x

/-- `JSON.stringify` and `JSON.parse` on finite numbers: a number is its text, but for `-0`, which is printed as `0`. -/
structure Finite (f : NumberFormat ν) (isNegZero : ν → Bool) (zero : ν) : Prop where
  not_neg : isNegZero zero = false
  print_zero : f.print zero = [unit '0']
  lawful : f.Lawful (unsign isNegZero zero)

theorem ofJson_ne_hole (j : Json ν) : ofJson j ≠ .hole := by
  cases j <;> simp [ofJson]

theorem join_items (f : NumberFormat ν) (x : Json ν) (xs : List (Json ν)) :
    join ((x :: xs).map (write f)) ++ [unit ']'] = write f x ++ writeItems f xs := by
  induction xs generalizing x with
  | nil => simp [join, writeItems, List.intercalate]
  | cons y ys ih =>
    have hjoin : join ((x :: y :: ys).map (write f)) = write f x ++ unit ',' :: join ((y :: ys).map (write f)) := by
      simp [join, List.intercalate]
    rw [hjoin, List.append_assoc, List.cons_append, ih, writeItems]
    simp

/-- One field of an object. -/
def writeField (f : NumberFormat ν) (e : Text × Json ν) : Text := quote e.1 ++ unit ':' :: write f e.2

theorem join_fields (f : NumberFormat ν) (e : Text × Json ν) (fs : List (Text × Json ν)) :
    join ((e :: fs).map (writeField f)) ++ [unit '\x7d'] = writeField f e ++ writeFields f fs := by
  induction fs generalizing e with
  | nil => simp [join, writeFields, List.intercalate]
  | cons g gs ih =>
    have hjoin : join ((e :: g :: gs).map (writeField f)) =
        writeField f e ++ unit ',' :: join ((g :: gs).map (writeField f)) := by
      simp [join, List.intercalate]
    obtain ⟨k, v⟩ := g
    rw [hjoin, List.append_assoc, List.cons_append, ih, writeFields]
    simp [writeField]

theorem write_arr (f : NumberFormat ν) (xs : List (Json ν)) :
    write f (.arr xs) = unit '[' :: join (xs.map (write f)) ++ [unit ']'] := by
  cases xs with
  | nil => rw [write]; rfl
  | cons x xs => rw [write, List.cons_append, List.cons_append, join_items]

theorem write_obj (f : NumberFormat ν) (fs : List (Text × Json ν)) :
    write f (.obj fs) = unit '\x7b' :: join (fs.map (writeField f)) ++ [unit '\x7d'] := by
  rcases fs with _ | ⟨⟨k, v⟩, fs⟩
  · rw [write]; rfl
  · have hjoin := join_fields f (k, v) fs
    rw [write]
    simp only [List.cons_append, writeField] at hjoin ⊢
    rw [hjoin]

theorem canonFields_eq_map (norm : ν → ν) (fs : List (Text × Json ν)) :
    canonFields norm fs = fs.map fun e => (e.1, canon norm e.2) := by
  induction fs with
  | nil => rw [canonFields]; rfl
  | cons e fs ih =>
    obtain ⟨k, v⟩ := e
    rw [canonFields, ih]
    rfl

theorem keys_canonFields (norm : ν → ν) (fs : List (Text × Json ν)) :
    (canonFields norm fs).map Prod.fst = fs.map Prod.fst := by
  rw [canonFields_eq_map, List.map_map]
  rfl

theorem mapM_ok {α β : Type} {g : α → Except TypeError β} {h : α → β} (l : List α) (hg : ∀ a ∈ l, g a = .ok (h a)) :
    l.mapM g = .ok (l.map h) := by
  induction l with
  | nil => rfl
  | cons a l ih =>
    rw [List.mapM_cons, hg a List.mem_cons_self, ih fun b hb => hg b (List.mem_cons_of_mem _ hb)]
    rfl

variable {f : NumberFormat ν} {isNegZero : ν → Bool} {zero : ν}

mutual

/-- **The text** of a JSON value is the text of `canon`. -/
theorem canonicalize_ofJson (hf : Finite f isNegZero zero) : ∀ j : Json ν,
    canonicalize f isNegZero (ofJson j) = .ok (write f (canon (unsign isNegZero zero) j))
  | .null => by simp [ofJson, canonicalize, canon, write]
  | .bool true => by simp [ofJson, canonicalize, canon, write]
  | .bool false => by simp [ofJson, canonicalize, canon, write]
  | .str s => by simp [ofJson, canonicalize, canon, write]
  | .num x => by
    rw [ofJson, canonicalize, canon, write]
    unfold unsign
    split_ifs
    · rw [hf.print_zero]
    · rfl
  | .arr xs => by
    rw [ofJson, canonicalize, canonicalize_ofItems hf xs, canon, write_arr]
    rfl
  | .obj fs => by
    rw [ofJson, canonicalize, if_neg (by decide), if_neg (by decide), canonicalize_ofFields hf fs, canon, write_obj]
    rw [sortByKey_map fun v => (.ok (write f v) : Except TypeError Text)]
    have hentries : ((sortByKey (canonFields (unsign isNegZero zero) fs)).map fun e =>
          (e.1, (.ok (write f e.2) : Except TypeError Text))).mapM (fun entry => do
            return quote entry.1 ++ unit ':' :: (← entry.2)) =
        .ok ((sortByKey (canonFields (unsign isNegZero zero) fs)).map (writeField f)) := by
      rw [List.mapM_map]
      exact mapM_ok _ fun e _ => rfl
    rw [hentries]
    rfl

theorem canonicalize_ofItems (hf : Finite f isNegZero zero) : ∀ xs : List (Json ν),
    canonicalizeItems f isNegZero (ofItems xs) = .ok ((canonItems (unsign isNegZero zero) xs).map (write f))
  | [] => by rw [ofItems, canonicalizeItems, canonItems]; rfl
  | x :: xs => by
    rw [ofItems, canonicalizeItems, canonicalize_ofJson hf x, canonicalize_ofItems hf xs, canonItems]
    · rfl
    · exact ofJson_ne_hole x

theorem canonicalize_ofFields (hf : Finite f isNegZero zero) : ∀ fs : List (Text × Json ν),
    canonicalizeFields f isNegZero (ofFields fs) =
      (canonFields (unsign isNegZero zero) fs).map fun e => (e.1, .ok (write f e.2))
  | [] => by rw [ofFields, canonicalizeFields, canonFields]; rfl
  | (k, v) :: fs => by
    rw [ofFields, canonicalizeFields, canonicalize_ofJson hf v, canonicalize_ofFields hf fs, canonFields]
    rfl

end

/-! ### The value of the text -/

theorem distinctFields_iff {fs : List (Text × Json ν)} : DistinctFields fs ↔ ∀ e ∈ fs, e.2.Distinct := by
  induction fs with
  | nil => simp [DistinctFields]
  | cons e fs ih =>
    obtain ⟨k, v⟩ := e
    rw [DistinctFields, ih, List.forall_mem_cons]

theorem mapNumFields_eq_map (norm : ν → ν) (fs : List (Text × Json ν)) :
    mapNumFields norm fs = fs.map fun e => (e.1, e.2.mapNum norm) := by
  induction fs with
  | nil => rw [mapNumFields]; rfl
  | cons e fs ih =>
    obtain ⟨k, v⟩ := e
    rw [mapNumFields, ih]
    rfl

/-- A map over the values that leaves each of them as it is. -/
theorem map_fields_eq_self {α : Type} {g : α → α} {fs : List (Text × α)} (h : ∀ e ∈ fs, g e.2 = e.2) :
    (fs.map fun e => (e.1, g e.2)) = fs := by
  conv_rhs => rw [← List.map_id fs]
  exact List.map_congr_left fun e he => by rw [h e he]; rfl

section

variable {norm : ν → ν}

mutual

theorem distinct_canon : ∀ {j : Json ν}, j.Distinct → (canon norm j).Distinct
  | .null, _ => by simp [canon, Json.Distinct]
  | .bool _, _ => by simp [canon, Json.Distinct]
  | .str _, _ => by simp [canon, Json.Distinct]
  | .num _, _ => by simp [canon, Json.Distinct]
  | .arr xs, h => by
    rw [canon, Json.Distinct]
    exact distinct_canonItems h
  | .obj fs, h => by
    rw [canon, Json.Distinct, distinctFields_iff]
    refine ⟨keys_sortByKey (by rw [keys_canonFields]; exact h.1), fun e he => ?_⟩
    exact distinct_canonFields h.2 e ((sortByKey_perm _).mem_iff.mp he)

theorem distinct_canonItems : ∀ {xs : List (Json ν)}, DistinctItems xs → DistinctItems (canonItems norm xs)
  | [], _ => by simp [canonItems, DistinctItems]
  | x :: xs, h => by
    rw [canonItems, DistinctItems]
    exact ⟨distinct_canon h.1, distinct_canonItems h.2⟩

theorem distinct_canonFields : ∀ {fs : List (Text × Json ν)}, DistinctFields fs →
    ∀ e ∈ canonFields norm fs, e.2.Distinct
  | [], _, e, he => by simp [canonFields] at he
  | (k, v) :: fs, h, e, he => by
    rw [canonFields, List.mem_cons] at he
    rcases he with rfl | he
    · exact distinct_canon h.1
    · exact distinct_canonFields h.2 e he

end

variable (hnorm : ∀ x, norm (norm x) = norm x)

include hnorm

set_option linter.unusedSectionVars false in
mutual

/-- The numbers of the text are read as they are. -/
theorem mapNum_canon : ∀ j : Json ν, (canon norm j).mapNum norm = canon norm j
  | .null => by simp [canon, Json.mapNum]
  | .bool _ => by simp [canon, Json.mapNum]
  | .str _ => by simp [canon, Json.mapNum]
  | .num x => by rw [canon, Json.mapNum, hnorm]
  | .arr xs => by rw [canon, Json.mapNum, mapNum_canonItems xs]
  | .obj fs => by
    rw [canon, Json.mapNum, mapNumFields_eq_map]
    rw [map_fields_eq_self fun e he => mapNum_canonFields fs e ((sortByKey_perm _).mem_iff.mp he)]

theorem mapNum_canonItems : ∀ xs : List (Json ν), mapNumItems norm (canonItems norm xs) = canonItems norm xs
  | [] => by simp [canonItems, mapNumItems]
  | x :: xs => by rw [canonItems, mapNumItems, mapNum_canon x, mapNum_canonItems xs]

theorem mapNum_canonFields : ∀ (fs : List (Text × Json ν)), ∀ e ∈ canonFields norm fs, e.2.mapNum norm = e.2
  | [], e, he => by simp [canonFields] at he
  | (k, v) :: fs, e, he => by
    rw [canonFields, List.mem_cons] at he
    rcases he with rfl | he
    · exact mapNum_canon v
    · exact mapNum_canonFields fs e he

end

set_option linter.unusedSectionVars false in
mutual

theorem canon_canon : ∀ j : Json ν, canon norm (canon norm j) = canon norm j
  | .null => by simp [canon]
  | .bool _ => by simp [canon]
  | .str _ => by simp [canon]
  | .num x => by rw [canon, canon, hnorm]
  | .arr xs => by rw [canon, canon, canonItems_canonItems xs]
  | .obj fs => by
    rw [canon, canon, canonFields_eq_map norm (sortByKey _)]
    rw [map_fields_eq_self fun e he => canonFields_canonFields fs e ((sortByKey_perm _).mem_iff.mp he),
      sortByKey_sortByKey]

theorem canonItems_canonItems : ∀ xs : List (Json ν), canonItems norm (canonItems norm xs) = canonItems norm xs
  | [] => by simp [canonItems]
  | x :: xs => by rw [canonItems, canonItems, canon_canon x, canonItems_canonItems xs]

theorem canonFields_canonFields : ∀ (fs : List (Text × Json ν)), ∀ e ∈ canonFields norm fs, canon norm e.2 = e.2
  | [], e, he => by simp [canonFields] at he
  | (k, v) :: fs, e, he => by
    rw [canonFields, List.mem_cons] at he
    rcases he with rfl | he
    · exact canon_canon v
    · exact canonFields_canonFields fs e he

end

omit hnorm

/-- **Fields in any order**: with distinct keys, as many fields of which each is found among the others. -/
theorem perm_iff {α : Type} {xs ys : List (Text × α)} (hxs : (xs.map Prod.fst).Nodup) :
    xs.Perm ys ↔ xs.length = ys.length ∧ ∀ e ∈ xs, e ∈ ys := by
  constructor
  · exact fun h => ⟨h.length_eq, fun e he => h.mem_iff.mp he⟩
  · rintro ⟨hlen, hsub⟩
    exact (hxs.of_map.subperm hsub).perm_of_length_le hlen.ge

mutual

/-- **The same canonical value** means equal values. -/
theorem canon_eq_iff : ∀ {a b : Json ν}, a.Distinct → b.Distinct → (canon norm a = canon norm b ↔ Same norm a b)
  | .null, b, _, _ => by cases b <;> simp [canon, Same]
  | .bool _, b, _, _ => by cases b <;> simp [canon, Same]
  | .str _, b, _, _ => by cases b <;> simp [canon, Same]
  | .num _, b, _, _ => by cases b <;> simp [canon, Same]
  | .arr xs, b, ha, hb => by
    cases b with
    | arr ys =>
      rw [canon, canon, Same, Json.arr.injEq]
      exact canonItems_eq_iff ha hb
    | _ => simp [canon, Same]
  | .obj fs, b, ha, hb => by
    cases b with
    | obj gs =>
      have hkeys : ((canonFields norm fs).map Prod.fst).Nodup := by
        rw [keys_canonFields]
        exact ha.1
      have hfields := canonFields_mem_iff ha.2 (distinctFields_iff.mp hb.2)
      have hlength : (canonFields norm fs).length = (canonFields norm gs).length ↔ fs.length = gs.length := by
        rw [canonFields_eq_map, canonFields_eq_map, List.length_map, List.length_map]
      rw [canon, canon, Same, Json.obj.injEq, sortByKey_eq_iff hkeys, perm_iff hkeys, hlength, hfields]
    | _ => simp [canon, Same]

theorem canonItems_eq_iff : ∀ {xs ys : List (Json ν)}, DistinctItems xs → DistinctItems ys →
    (canonItems norm xs = canonItems norm ys ↔ SameItems norm xs ys)
  | [], [], _, _ => by simp [SameItems]
  | [], _ :: _, _, _ => by simp [canonItems, SameItems]
  | _ :: _, [], _, _ => by simp [canonItems, SameItems]
  | x :: xs, y :: ys, hx, hy => by
    rw [canonItems, canonItems, SameItems, List.cons.injEq, canon_eq_iff hx.1 hy.1, canonItems_eq_iff hx.2 hy.2]

theorem canonFields_mem_iff : ∀ {fs gs : List (Text × Json ν)}, DistinctFields fs → (∀ e ∈ gs, e.2.Distinct) →
    ((∀ e ∈ canonFields norm fs, e ∈ canonFields norm gs) ↔ SameFields norm fs gs)
  | [], gs, _, _ => by simp [canonFields, SameFields]
  | (k, v) :: fs, gs, hf, hg => by
    have hmem : (k, canon norm v) ∈ canonFields norm gs ↔ ∃ w, (k, w) ∈ gs ∧ Same norm v w := by
      rw [canonFields_eq_map, List.mem_map]
      constructor
      · rintro ⟨⟨l, w⟩, hw, heq⟩
        obtain ⟨rfl, hvalue⟩ := Prod.mk.inj heq
        exact ⟨w, hw, (canon_eq_iff hf.1 (hg _ hw)).mp hvalue.symm⟩
      · rintro ⟨w, hw, hsame⟩
        exact ⟨(k, w), hw, Prod.ext rfl ((canon_eq_iff hf.1 (hg _ hw)).mpr hsame).symm⟩
    rw [canonFields, SameFields, List.forall_mem_cons, hmem, canonFields_mem_iff hf.2 hg]

end

end

/-! ### Texts and values -/

theorem unsign_unsign {isNegZero : ν → Bool} {zero : ν} (h : isNegZero zero = false) (x : ν) :
    unsign isNegZero zero (unsign isNegZero zero x) = unsign isNegZero zero x := by
  unfold unsign
  by_cases hx : isNegZero x = true
  · rw [if_pos hx, if_neg (by simp [h])]
  · rw [if_neg hx, if_neg hx]

/-- The canonical text is read back as the canonical value. -/
theorem parse_canon (hf : Finite f isNegZero zero) {j : Json ν} (h : j.Distinct) :
    parse f (write f (canon (unsign isNegZero zero) j)) = some (canon (unsign isNegZero zero) j) := by
  rw [parse_write hf.lawful (distinct_canon h), mapNum_canon (unsign_unsign hf.not_neg)]

/-- **Canonical texts** are equal exactly for equal JSON values, and what is read back from one has the same text. -/
theorem canonicalJson_faithful (hf : Finite f isNegZero zero) {a b : Json ν} (ha : a.Distinct) (hb : b.Distinct) :
    ∃ s t, canonicalJson f isNegZero (ofJson a) = .ok s ∧ canonicalJson f isNegZero (ofJson b) = .ok t ∧
      (s = t ↔ Same (unsign isNegZero zero) a b) ∧
      ∃ v, parse f s = some v ∧ canonicalJson f isNegZero (ofJson v) = .ok s := by
  refine ⟨_, _, canonicalize_ofJson hf a, canonicalize_ofJson hf b, ?_, _, parse_canon hf ha, ?_⟩
  · rw [← canon_eq_iff ha hb]
    constructor
    · intro h
      have hparse := parse_canon hf ha
      rw [h, parse_canon hf hb] at hparse
      exact (Option.some.inj hparse).symm
    · exact fun h => by rw [h]
  · unfold canonicalJson
    rw [canonicalize_ofJson hf, canon_canon (unsign_unsign hf.not_neg)]

/-- Numbers of one digit, and `-0`. -/
def digits : NumberFormat (Option (Fin 10)) where
  print x := [Fin.ofNat 65536 (48 + (x.getD 0).val)]
  read t := (readDigit t).map some

theorem digits_finite : Finite digits Option.isNone (some 0) where
  not_neg := rfl
  print_zero := rfl
  lawful :=
    { nonempty := fun x => by simp [digits]
      units := fun x c hc => by
        obtain rfl := List.mem_singleton.mp hc
        rcases x with _ | d
        · decide
        · revert d
          decide
      read_print := fun x => by
        rcases x with _ | d
        · rfl
        · revert d
          decide }

/-- `{"b": [1, -0], "a": "x"}` -/
def sample : Json (Option (Fin 10)) :=
  .obj [([unit 'b'], .arr [.num (some 1), .num none]), ([unit 'a'], .str [unit 'x'])]

/-- `{"a": "x", "b": [1, 0]}` -/
def sample' : Json (Option (Fin 10)) :=
  .obj [([unit 'a'], .str [unit 'x']), ([unit 'b'], .arr [.num (some 1), .num (some 0)])]

theorem canonicalJson_sample :
    ∃ s t, canonicalJson digits Option.isNone (ofJson sample) = .ok s ∧
      canonicalJson digits Option.isNone (ofJson sample') = .ok t ∧
      (s = t ↔ Same (unsign Option.isNone (some 0)) sample sample') ∧
      ∃ v, parse digits s = some v ∧ canonicalJson digits Option.isNone (ofJson v) = .ok s :=
  canonicalJson_faithful digits_finite
    (by simp only [sample, Json.Distinct, DistinctFields, DistinctItems]; decide)
    (by simp only [sample', Json.Distinct, DistinctFields, DistinctItems]; decide)

end Norns.Persistence.CanonicalJson
