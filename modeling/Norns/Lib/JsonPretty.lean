import Norns.Lib.Utf8
import Mathlib.Data.Nat.Digits.Defs

/-! # Indented JSON, and how many bytes it has

`JSON.stringify(value, null, 2)` for JSON values whose numbers are integers, and the size of its UTF-8 encoding. A
string is cut between characters: `characters` are its pairs of surrogates and its other code units.

* `byteLength_arr`, `byteLength_obj`: the size of an array or an object is a sum over its parts;
* `byteLength_start`: the size of a start of a text is the sum over its characters;
* `byteLength_quote_mono`: a longer start is no shorter when it is quoted. -/

namespace Norns.Lib.JsonPretty

open Norns.Lib.JsonText Norns.Lib.Utf8

/-- The decimal digits of a natural number. -/
def printNat (n : ℕ) : Text :=
  if n = 0 then [unit '0'] else (Nat.digits 10 n).reverse.map fun d => Fin.ofNat 65536 (48 + d % 10)

def printInt : ℤ → Text
  | .ofNat n => printNat n
  | .negSucc n => unit '-' :: printNat (n + 1)

/-- A line feed and the indentation of a depth. -/
def newline (depth : ℕ) : Text := unit '\n' :: List.replicate (2 * depth) (unit ' ')

mutual

/-- `JSON.stringify(value, null, 2)` at a depth. -/
def pretty (depth : ℕ) : JsonText.Json ℤ → Text
  | .null => units "null"
  | .bool true => units "true"
  | .bool false => units "false"
  | .num n => printInt n
  | .str s => quote s
  | .arr [] => units "[]"
  | .arr (x :: xs) => unit '[' :: (newline (depth + 1) ++ (pretty (depth + 1) x ++ prettyItems depth xs))
  | .obj [] => units "\x7b\x7d"
  | .obj ((k, v) :: fs) =>
    unit '\x7b' :: (newline (depth + 1) ++ (quote k ++ (units ": " ++ (pretty (depth + 1) v ++ prettyFields depth fs))))

/-- The items after the first, and the bracket. -/
def prettyItems (depth : ℕ) : List (JsonText.Json ℤ) → Text
  | [] => newline depth ++ [unit ']']
  | x :: xs => unit ',' :: (newline (depth + 1) ++ (pretty (depth + 1) x ++ prettyItems depth xs))

/-- The fields after the first, and the brace. -/
def prettyFields (depth : ℕ) : List (Text × JsonText.Json ℤ) → Text
  | [] => newline depth ++ [unit '\x7d']
  | (k, v) :: fs =>
    unit ',' :: (newline (depth + 1) ++ (quote k ++ (units ": " ++ (pretty (depth + 1) v ++ prettyFields depth fs))))

end

/-! ### Where texts meet -/

/-- A text that can follow another one without making a pair with it. -/
def Apart (t : Text) : Prop := ∀ c ∈ t.head?, isLow c = false

theorem apart_nil : Apart [] := fun c hc => by cases hc

theorem apart_cons {c : CodeUnit} (h : isLow c = false) (t : Text) : Apart (c :: t) := by
  intro d hd
  obtain rfl := Option.some.inj hd
  exact h

theorem apart_append {x : Text} (hx : Apart x) (hne : x ≠ []) (y : Text) : Apart (x ++ y) := by
  obtain ⟨c, t, rfl⟩ := List.exists_cons_of_ne_nil hne
  exact apart_cons (hx c rfl) _

theorem size_append (x : Text) {y : Text} (hy : Apart y) : byteLength (x ++ y) = byteLength x + byteLength y :=
  byteLength_append hy

/-- A unit of ASCII in front. -/
theorem size_cons {c : CodeUnit} (h : c.val < 128) (t : Text) : byteLength (c :: t) = 1 + byteLength t := by
  have hhigh : isHigh c = false := by simp [isHigh]; omega
  unfold byteLength
  rw [encode_cons fun d _ => by rw [hhigh, Bool.false_and], List.length_append]
  unfold encodeUnit
  rw [if_pos h]
  rfl

theorem apart_quote (s t : Text) : Apart (quote s ++ t) := apart_cons (by decide) _

theorem apart_printNat (n : ℕ) (t : Text) : Apart (printNat n ++ t) := by
  unfold printNat
  split_ifs with hzero
  · exact apart_cons (by decide) _
  · have hne : (Nat.digits 10 n).reverse ≠ [] := by
      simpa using Nat.digits_ne_nil_iff_ne_zero.mpr hzero
    obtain ⟨d, ds, hd⟩ := List.exists_cons_of_ne_nil hne
    rw [hd]
    refine apart_cons ?_ _
    have hmod := Nat.mod_lt d (show 0 < 10 by omega)
    simp only [isLow, Fin.ofNat, Bool.and_eq_false_iff, decide_eq_false_iff_not]
    omega

theorem apart_pretty (depth : ℕ) (j : JsonText.Json ℤ) (t : Text) : Apart (pretty depth j ++ t) := by
  cases j with
  | null => exact apart_cons (by decide) _
  | bool b => cases b <;> exact apart_cons (by decide) _
  | num n =>
    cases n with
    | ofNat n => exact apart_printNat n t
    | negSucc n => exact apart_cons (by decide) _
  | str s => exact apart_quote s t
  | arr xs => cases xs <;> exact apart_cons (by decide) _
  | obj fs => rcases fs with _ | ⟨⟨k, v⟩, fs⟩ <;> exact apart_cons (by decide) _

theorem apart_items (depth : ℕ) (xs : List (JsonText.Json ℤ)) : Apart (prettyItems depth xs) := by
  cases xs <;> exact apart_cons (by decide) _

theorem apart_fields (depth : ℕ) (fs : List (Text × JsonText.Json ℤ)) : Apart (prettyFields depth fs) := by
  rcases fs with _ | ⟨⟨k, v⟩, fs⟩ <;> exact apart_cons (by decide) _

/-! ### Sizes -/

/-- The bytes of an item of an array, with the mark in front of it. -/
def itemSize (depth : ℕ) (x : JsonText.Json ℤ) : ℕ := 1 + byteLength (newline (depth + 1)) + byteLength (pretty (depth + 1) x)

/-- The bytes of a field of an object, with the mark in front of it. -/
def fieldSize (depth : ℕ) (f : Text × JsonText.Json ℤ) : ℕ :=
  1 + byteLength (newline (depth + 1)) + byteLength (quote f.1) + 2 + byteLength (pretty (depth + 1) f.2)

theorem size_item (depth : ℕ) {c : CodeUnit} (h : c.val < 128) (x : JsonText.Json ℤ) {rest : Text} (hrest : Apart rest) :
    byteLength (c :: (newline (depth + 1) ++ (pretty (depth + 1) x ++ rest))) = itemSize depth x + byteLength rest := by
  rw [size_cons h, size_append _ (apart_pretty _ _ _), size_append _ hrest]
  unfold itemSize
  omega

theorem size_field (depth : ℕ) {c : CodeUnit} (h : c.val < 128) (k : Text) (v : JsonText.Json ℤ) {rest : Text} (hrest : Apart rest) :
    byteLength (c :: (newline (depth + 1) ++ (quote k ++ (units ": " ++ (pretty (depth + 1) v ++ rest))))) =
      fieldSize depth (k, v) + byteLength rest := by
  have hcolon : byteLength (units ": " ++ (pretty (depth + 1) v ++ rest)) = 2 + byteLength (pretty (depth + 1) v ++ rest) :=
    byteLength_append (apart_pretty _ _ _)
  have hapart : Apart (units ": " ++ (pretty (depth + 1) v ++ rest)) := apart_cons (by decide) _
  rw [size_cons h, size_append _ (apart_quote _ _), size_append _ hapart, hcolon, size_append _ hrest]
  unfold fieldSize
  dsimp only
  omega

theorem byteLength_items (depth : ℕ) (xs : List (JsonText.Json ℤ)) : byteLength (prettyItems depth xs) =
    (xs.map (itemSize depth)).sum + byteLength (newline depth) + 1 := by
  induction xs with
  | nil =>
    rw [prettyItems, size_append _ (apart_cons (by decide) _)]
    have hbracket : byteLength [unit ']'] = 1 := by decide
    rw [hbracket, List.map_nil, List.sum_nil]
    omega
  | cons x xs ih =>
    rw [prettyItems, size_item depth (by decide) x (apart_items depth xs), ih, List.map_cons, List.sum_cons]
    omega

theorem byteLength_fields (depth : ℕ) (fs : List (Text × JsonText.Json ℤ)) : byteLength (prettyFields depth fs) =
    (fs.map (fieldSize depth)).sum + byteLength (newline depth) + 1 := by
  induction fs with
  | nil =>
    rw [prettyFields, size_append _ (apart_cons (by decide) _)]
    have hbrace : byteLength [unit '\x7d'] = 1 := by decide
    rw [hbrace, List.map_nil, List.sum_nil]
    omega
  | cons f fs ih =>
    obtain ⟨k, v⟩ := f
    rw [prettyFields, size_field depth (by decide) k v (apart_fields depth fs), ih, List.map_cons, List.sum_cons]
    omega

/-- **An array** has the bytes of its items and of its end. -/
theorem byteLength_arr (depth : ℕ) {xs : List (JsonText.Json ℤ)} (h : xs ≠ []) : byteLength (pretty depth (.arr xs)) =
    (xs.map (itemSize depth)).sum + byteLength (newline depth) + 1 := by
  obtain ⟨x, xs, rfl⟩ := List.exists_cons_of_ne_nil h
  rw [pretty, size_item depth (by decide) x (apart_items depth xs), byteLength_items, List.map_cons, List.sum_cons]
  omega

/-- **An object** has the bytes of its fields and of its end. -/
theorem byteLength_obj (depth : ℕ) {fs : List (Text × JsonText.Json ℤ)} (h : fs ≠ []) : byteLength (pretty depth (.obj fs)) =
    (fs.map (fieldSize depth)).sum + byteLength (newline depth) + 1 := by
  obtain ⟨⟨k, v⟩, fs, rfl⟩ := List.exists_cons_of_ne_nil h
  rw [pretty, size_field depth (by decide) k v (apart_fields depth fs), byteLength_fields, List.map_cons, List.sum_cons]
  omega

/-! ### Characters -/

/-- The characters of a text, as an iteration over it goes. -/
def characters : Text → List Text
  | [] => []
  | [c] => [[c]]
  | c :: d :: t => if isHigh c && isLow d then [c, d] :: characters t else [c] :: characters (d :: t)

theorem flatten_characters (t : Text) : (characters t).flatten = t := by
  induction t using characters.induct with
  | case1 => rfl
  | case2 c => rfl
  | case3 c d t h ih =>
    rw [characters, if_pos h, List.flatten_cons, ih]
    rfl
  | case4 c d t h ih =>
    rw [characters, if_neg h, List.flatten_cons, ih]
    rfl

/-- The first `k` characters. -/
def start (k : ℕ) (t : Text) : Text := ((characters t).take k).flatten

theorem start_prefix (k : ℕ) (t : Text) : start k t <+: t := by
  refine ⟨((characters t).drop k).flatten, ?_⟩
  unfold start
  rw [← List.flatten_append, List.take_append_drop, flatten_characters]

/-- A character in front. -/
theorem start_succ_pair {c d : CodeUnit} (h : (isHigh c && isLow d) = true) (k : ℕ) (t : Text) :
    start (k + 1) (c :: d :: t) = c :: d :: start k t := by
  unfold start
  rw [characters, if_pos h]
  rfl

theorem start_succ_lone {c d : CodeUnit} (h : ¬ (isHigh c && isLow d) = true) (k : ℕ) (t : Text) :
    start (k + 1) (c :: d :: t) = c :: start k (d :: t) := by
  unfold start
  rw [characters, if_neg h]
  rfl

/-- A lone unit makes no pair with what is left of the text after it. -/
theorem head_start {c d : CodeUnit} (h : ¬ (isHigh c && isLow d) = true) (k : ℕ) (t : Text) :
    ∀ e ∈ (start k (d :: t)).head?, (isHigh c && isLow e) = false := by
  intro e he
  obtain ⟨rest, hrest⟩ := start_prefix k (d :: t)
  rcases hstart : start k (d :: t) with _ | ⟨b, s⟩
  · rw [hstart] at he
    cases he
  · rw [hstart] at he hrest
    obtain rfl := Option.some.inj he
    obtain rfl := (List.cons.inj hrest).1
    exact Bool.eq_false_iff.mpr h

/-- **The size of a start** is the sum over its characters. -/
theorem byteLength_start (t : Text) : ∀ k, byteLength (start k t) = (((characters t).take k).map byteLength).sum := by
  induction t using characters.induct with
  | case1 =>
    intro k
    simp [start, characters, byteLength, encode]
  | case2 c =>
    intro k
    cases k with
    | zero => rfl
    | succ k => simp [start, characters]
  | case3 c d t h ih =>
    intro k
    cases k with
    | zero => rfl
    | succ k =>
      have hpair : byteLength [c, d] = (encodePair c d).length := by
        unfold byteLength
        rw [encode_pair h, encode, List.append_nil]
      rw [start_succ_pair h, characters, if_pos h, List.take_succ_cons, List.map_cons, List.sum_cons, ← ih k, hpair]
      unfold byteLength
      rw [encode_pair h, List.length_append]
  | case4 c d t h ih =>
    intro k
    cases k with
    | zero => rfl
    | succ k =>
      rw [start_succ_lone h, characters, if_neg h, List.take_succ_cons, List.map_cons, List.sum_cons, ← ih k]
      unfold byteLength
      rw [encode_cons (head_start h k t), List.length_append]
      rfl

/-! ### Quoted starts -/

/-- What a text becomes between its quotes. -/
def body (s : Text) : Text := (markLone s).flatMap escapeUnit

theorem markLone_cons {c : CodeUnit} {t : Text} (h : ∀ d ∈ t.head?, (isHigh c && isLow d) = false) :
    markLone (c :: t) = (isSurrogate c, c) :: markLone t := by
  cases t with
  | nil => rfl
  | cons d t => rw [markLone, h d rfl, if_neg Bool.false_ne_true]

theorem markLone_pair {c d : CodeUnit} (h : (isHigh c && isLow d) = true) (t : Text) :
    markLone (c :: d :: t) = (false, c) :: (false, d) :: markLone t := by
  rw [markLone, if_pos h]

/-- Two texts that make no pair are marked one after the other. -/
theorem markLone_append {x y : Text} (hy : Apart y) : markLone (x ++ y) = markLone x ++ markLone y := by
  induction x using markLone.induct with
  | case1 => rfl
  | case2 c =>
    rw [List.singleton_append, markLone_cons fun d hd => by rw [hy d hd, Bool.and_false]]
    rfl
  | case3 c d t h ih =>
    rw [List.cons_append, List.cons_append, markLone_pair h, markLone_pair h, ih]
    rfl
  | case4 c d t h ih =>
    rw [List.cons_append] at ih
    have hlone : ∀ t, markLone (c :: d :: t) = (isSurrogate c, c) :: markLone (d :: t) := by
      intro t
      rw [markLone, if_neg h]
    rw [List.cons_append, List.cons_append, hlone, hlone, ih]
    rfl

theorem body_append {x y : Text} (hy : Apart y) : body (x ++ y) = body x ++ body y := by
  unfold body
  rw [markLone_append hy, List.flatMap_append]

/-- A longer start has a longer body. -/
theorem body_prefix_mono (t : Text) : ∀ {k l : ℕ}, k ≤ l → body (start k t) <+: body (start l t) := by
  unfold body
  induction t using characters.induct with
  | case1 =>
    intro k l _
    simp [start, characters, markLone]
  | case2 c =>
    intro k l hkl
    cases k with
    | zero => exact List.nil_prefix
    | succ k =>
      obtain ⟨l, rfl⟩ : ∃ n, l = n + 1 := ⟨l - 1, by omega⟩
      simp [start, characters]
  | case3 c d t h ih =>
    intro k l hkl
    cases k with
    | zero => exact List.nil_prefix
    | succ k =>
      obtain ⟨l, rfl⟩ : ∃ n, l = n + 1 := ⟨l - 1, by omega⟩
      rw [start_succ_pair h, start_succ_pair h, markLone_pair h, markLone_pair h]
      simp only [List.flatMap_cons, List.prefix_append_right_inj]
      exact ih (by omega)
  | case4 c d t h ih =>
    intro k l hkl
    cases k with
    | zero => exact List.nil_prefix
    | succ k =>
      obtain ⟨l, rfl⟩ : ∃ n, l = n + 1 := ⟨l - 1, by omega⟩
      rw [start_succ_lone h, start_succ_lone h, markLone_cons (head_start h k t), markLone_cons (head_start h l t)]
      simp only [List.flatMap_cons, List.prefix_append_right_inj]
      exact ih (by omega)

theorem apart_escapeUnit (m : Bool × CodeUnit) (h : isLow m.2 = false) : Apart (escapeUnit m) := by
  obtain ⟨lone, c⟩ := m
  unfold escapeUnit
  dsimp only
  split_ifs
  all_goals exact apart_cons (by first | exact h | decide) _

/-- The body of a text that stands apart does so. -/
theorem apart_body {t : Text} (h : Apart t) : Apart (body t) := by
  unfold body
  rcases hmarks : markLone t with _ | ⟨m, ms⟩
  · exact apart_nil
  · have hm : m.2 ∈ t.head? := by
      have hmap := map_markLone t
      rw [hmarks, List.map_cons] at hmap
      rw [← hmap]
      rfl
    rw [List.flatMap_cons]
    exact apart_append (apart_escapeUnit m (h m.2 hm)) (List.ne_nil_of_length_pos (length_escapeUnit_pos m)) _

theorem byteLength_quote (s : Text) : byteLength (quote s) = byteLength (body s) + 2 := by
  have hquote : quote s = unit '"' :: (body s ++ [unit '"']) := rfl
  have hend : byteLength [unit '"'] = 1 := by decide
  rw [hquote, size_cons (by decide), size_append _ (apart_cons (by decide) _), hend]
  omega

/-- **A quoted start** with something after it: a longer one has no fewer bytes. -/
theorem byteLength_quote_mono (t : Text) {k l : ℕ} (h : k ≤ l) {y : Text} (hy : Apart y) :
    byteLength (quote (start k t ++ y)) ≤ byteLength (quote (start l t ++ y)) := by
  have hle := byteLength_prefix (body_prefix_mono t h)
  rw [byteLength_quote, byteLength_quote, body_append hy, body_append hy, size_append _ (apart_body hy),
    size_append _ (apart_body hy)]
  omega

end Norns.Lib.JsonPretty
