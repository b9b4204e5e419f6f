import Mathlib.Data.List.Basic
import Mathlib.Data.Fin.Basic
import Mathlib.Tactic.Common
import Norns.Lib.OrdMap

/-! # JSON texts over code units

A JavaScript string is a list of 16-bit code units, lone surrogates included. `write` is `JSON.stringify` without blanks
on a value whose object fields are in their order, `parse` is `JSON.parse`; how a number is printed and read is the
parameter `f`.

* `quote`, `parseString`: strings, with the escapes of `JSON.stringify`;
* `write`, `parse`: values;
* `parseString_quote`, `parseValue_write`: what was written is read back, whatever follows it;
* `parse_write`: hence a value is its text. -/

namespace Norns.Lib.JsonText

instance neZeroUnits : NeZero 65536 := ⟨by decide⟩

instance neZeroDigits : NeZero 10 := ⟨by decide⟩

abbrev CodeUnit := Fin 65536

abbrev Text := List CodeUnit

instance lawfulUnits : LawfulBEq CodeUnit := inferInstance

instance lawfulTexts : LawfulBEq Text := inferInstance

def unit (c : Char) : CodeUnit := Fin.ofNat 65536 c.toNat

inductive Json (ν : Type)
  | null
  | bool (b : Bool)
  | num (x : ν)
  | str (s : Text)
  | arr (items : List (Json ν))
  | obj (fields : List (Text × Json ν))

/-! ### Strings -/

def isHigh (c : CodeUnit) : Bool := 0xd800 ≤ c.val && c.val < 0xdc00

def isLow (c : CodeUnit) : Bool := 0xdc00 ≤ c.val && c.val < 0xe000

def isSurrogate (c : CodeUnit) : Bool := isHigh c || isLow c

/-- The code units, each with whether it is a lone surrogate. -/
def markLone : Text → List (Bool × CodeUnit)
  | [] => []
  | [c] => [(isSurrogate c, c)]
  | c :: d :: rest =>
    if isHigh c && isLow d then (false, c) :: (false, d) :: markLone rest
    else (isSurrogate c, c) :: markLone (d :: rest)

/-- No surrogate stands alone. -/
def isWellFormed (t : Text) : Bool := (markLone t).all fun m => !m.1

/-- A string that the `jsonb` of the database takes: U+0000 and a lone surrogate are refused. -/
def isJsonbText (t : Text) : Bool := isWellFormed t && t.all fun c => 0 < c.val

/-- A lower-case hexadecimal digit. -/
def hexDigit (n : ℕ) : CodeUnit := Fin.ofNat 65536 (if n < 10 then 48 + n else 87 + n)

def unicodeEscape (c : CodeUnit) : Text :=
  [unit '\\', unit 'u', hexDigit (c.val / 4096), hexDigit (c.val / 256 % 16), hexDigit (c.val / 16 % 16),
    hexDigit (c.val % 16)]

/-- One code unit inside a quoted string. -/
def escapeUnit : Bool × CodeUnit → Text
  | (lone, c) =>
    if c = unit '"' then [unit '\\', unit '"']
    else if c = unit '\\' then [unit '\\', unit '\\']
    else if c = unit '\x08' then [unit '\\', unit 'b']
    else if c = unit '\t' then [unit '\\', unit 't']
    else if c = unit '\n' then [unit '\\', unit 'n']
    else if c = unit '\x0c' then [unit '\\', unit 'f']
    else if c = unit '\r' then [unit '\\', unit 'r']
    else if c.val < 32 || lone then unicodeEscape c
    else [c]

def quote (s : Text) : Text := unit '"' :: (markLone s).flatMap escapeUnit ++ [unit '"']

def hexValue (c : CodeUnit) : Option ℕ :=
  if 48 ≤ c.val ∧ c.val < 58 then some (c.val - 48)
  else if 97 ≤ c.val ∧ c.val < 103 then some (c.val - 87)
  else if 65 ≤ c.val ∧ c.val < 71 then some (c.val - 55)
  else none

/-- What follows a backslash. -/
def simpleEscape (c : CodeUnit) : Option CodeUnit :=
  if c = unit '"' ∨ c = unit '\\' ∨ c = unit '/' then some c
  else if c = unit 'b' then some (unit '\x08')
  else if c = unit 't' then some (unit '\t')
  else if c = unit 'n' then some (unit '\n')
  else if c = unit 'f' then some (unit '\x0c')
  else if c = unit 'r' then some (unit '\r')
  else none

/-- Read one code unit of a quoted string. -/
def readUnit : Text → Option (CodeUnit × Text)
  | [] => none
  | c :: r =>
    if c = unit '\\' then
      match r with
      | [] => none
      | e :: r =>
        if e = unit 'u' then
          match r with
          | h1 :: h2 :: h3 :: h4 :: r => do
            let value := (← hexValue h1) * 4096 + (← hexValue h2) * 256 + (← hexValue h3) * 16 + (← hexValue h4)
            return (Fin.ofNat 65536 value, r)
          | _ => none
        else (simpleEscape e).map fun c => (c, r)
    else if c.val < 32 then none
    else some (c, r)

/-- Read up to the closing quote; the first argument bounds the length. -/
def parseString : ℕ → Text → Option (Text × Text)
  | 0, _ => none
  | fuel + 1, t =>
    if t.head? = some (unit '"') then some ([], t.tail)
    else do
      let (c, r) ← readUnit t
      let (s, r) ← parseString fuel r
      return (c :: s, r)

theorem map_markLone (s : Text) : (markLone s).map Prod.snd = s := by
  induction s using markLone.induct with
  | case1 => rfl
  | case2 c => rfl
  | case3 c d rest h ih =>
    rw [markLone, if_pos h]
    simp [ih]
  | case4 c d rest h ih =>
    rw [markLone, if_neg h]
    simp only [List.map_cons, ih]

theorem hexValue_hexDigit : ∀ n < 16, hexValue (hexDigit n) = some n := by decide

/-- An escaped code unit is read back, whatever follows it. -/
theorem readUnit_escapeUnit (m : Bool × CodeUnit) (r : Text) : readUnit (escapeUnit m ++ r) = some (m.2, r) := by
  obtain ⟨lone, c⟩ := m
  unfold escapeUnit
  dsimp only
  split_ifs with h1 h2 h3 h4 h5 h6 h7 h8
  · subst h1; rfl
  · subst h2; rfl
  · subst h3; rfl
  · subst h4; rfl
  · subst h5; rfl
  · subst h6; rfl
  · subst h7; rfl
  · have hval : c.val / 4096 * 4096 + c.val / 256 % 16 * 256 + c.val / 16 % 16 * 16 + c.val % 16 = c.val := by omega
    have hc : Fin.ofNat 65536 c.val = c := by ext; simp
    show (do
      let value := (← hexValue (hexDigit (c.val / 4096))) * 4096 + (← hexValue (hexDigit (c.val / 256 % 16))) * 256 +
        (← hexValue (hexDigit (c.val / 16 % 16))) * 16 + (← hexValue (hexDigit (c.val % 16)))
      return (Fin.ofNat 65536 value, r) : Option (CodeUnit × Text)) = some (c, r)
    rw [hexValue_hexDigit _ (by omega), hexValue_hexDigit _ (by omega), hexValue_hexDigit _ (by omega),
      hexValue_hexDigit _ (by omega)]
    show some (Fin.ofNat 65536 (c.val / 4096 * 4096 + c.val / 256 % 16 * 256 + c.val / 16 % 16 * 16 + c.val % 16), r) = _
    rw [hval, hc]
  · have h32 : ¬ c.val < 32 := fun h => h8 (by simp [h])
    show readUnit (c :: r) = _
    rw [readUnit.eq_def]
    simp only [if_neg h2, if_neg h32]

/-- A code unit is never written as a bare quote. -/
theorem head_escapeUnit (m : Bool × CodeUnit) (r : Text) : (escapeUnit m ++ r).head? ≠ some (unit '"') := by
  obtain ⟨lone, c⟩ := m
  unfold escapeUnit
  dsimp only
  split_ifs with h1
  all_goals simp [unicodeEscape, unit]
  simpa [unit] using h1

theorem length_escapeUnit_pos (m : Bool × CodeUnit) : 0 < (escapeUnit m).length := by
  have h := readUnit_escapeUnit m []
  rcases hm : escapeUnit m with _ | ⟨c, t⟩
  · rw [hm] at h
    cases h
  · exact Nat.succ_pos _

/-- **A string is read back.** -/
theorem parseString_marked (ms : List (Bool × CodeUnit)) (r : Text) : ∀ {fuel : ℕ}, (ms.flatMap escapeUnit).length < fuel →
    parseString fuel (ms.flatMap escapeUnit ++ unit '"' :: r) = some (ms.map Prod.snd, r) := by
  induction ms with
  | nil =>
    intro fuel h
    obtain ⟨fuel, rfl⟩ := Nat.exists_eq_add_of_lt h
    rfl
  | cons m ms ih =>
    intro fuel h
    rw [List.flatMap_cons, List.length_append] at h
    have hpos := length_escapeUnit_pos m
    obtain ⟨fuel, rfl⟩ : ∃ n, fuel = n + 1 := ⟨fuel - 1, by omega⟩
    rw [List.flatMap_cons, List.append_assoc, parseString, if_neg (head_escapeUnit m _), readUnit_escapeUnit]
    show (do
      let (s, r) ← parseString fuel (ms.flatMap escapeUnit ++ unit '"' :: r)
      return (m.2 :: s, r) : Option (Text × Text)) = _
    rw [ih (by omega)]
    rfl

theorem parseString_quote (s r : Text) {fuel : ℕ} (h : (quote s).length ≤ fuel + 1) :
    parseString fuel ((quote s).tail ++ r) = some (s, r) := by
  have hlen : (quote s).length = ((markLone s).flatMap escapeUnit).length + 2 := by
    simp [quote]
  have hread := parseString_marked (markLone s) r (show ((markLone s).flatMap escapeUnit).length < fuel by omega)
  rw [map_markLone] at hread
  rw [← hread]
  simp [quote]

/-! ### Numbers -/

/-- How numbers are printed and read. -/
structure NumberFormat (ν : Type) where
  print : ν → Text
  read : Text → Option ν

/-- The code units that a number is written with. -/
def isNumberUnit (c : CodeUnit) : Bool :=
  48 ≤ c.val && c.val < 58 || c = unit '+' || c = unit '-' || c = unit '.' || c = unit 'e' || c = unit 'E'

/-- A number of one digit. -/
def readDigit : Text → Option (Fin 10)
  | [c] => if h : 48 ≤ c.val ∧ c.val < 58 then some ⟨c.val - 48, by omega⟩ else none
  | _ => none

/-- A printed number is made of number units, and is read back as `norm` of the number. -/
structure NumberFormat.Lawful {ν : Type} (f : NumberFormat ν) (norm : ν → ν) : Prop where
  nonempty : ∀ x, f.print x ≠ []
  units : ∀ x, ∀ c ∈ f.print x, isNumberUnit c = true
  read_print : ∀ x, f.read (f.print x) = some (norm x)

/-- The text does not go on with a number unit. -/
def Delimited (r : Text) : Prop := ∀ c ∈ r.head?, isNumberUnit c = false

theorem delimited_nil : Delimited [] := fun c hc => by cases hc

theorem delimited_cons {c : CodeUnit} {r : Text} (h : isNumberUnit c = false) : Delimited (c :: r) := by
  intro d hd
  rw [List.head?_cons, Option.mem_some_iff] at hd
  exact hd ▸ h

/-! ### Values -/

section

variable {ν : Type} (f : NumberFormat ν)

mutual

def write : Json ν → Text
  | .null => [unit 'n', unit 'u', unit 'l', unit 'l']
  | .bool true => [unit 't', unit 'r', unit 'u', unit 'e']
  | .bool false => [unit 'f', unit 'a', unit 'l', unit 's', unit 'e']
  | .num x => f.print x
  | .str s => quote s
  | .arr [] => [unit '[', unit ']']
  | .arr (x :: xs) => unit '[' :: write x ++ writeItems xs
  | .obj [] => [unit '\x7b', unit '\x7d']
  | .obj ((k, v) :: fs) => unit '\x7b' :: quote k ++ unit ':' :: write v ++ writeFields fs

/-- The items after the first, and the bracket. -/
def writeItems : List (Json ν) → Text
  | [] => [unit ']']
  | x :: xs => unit ',' :: write x ++ writeItems xs

/-- The fields after the first, and the brace. -/
def writeFields : List (Text × Json ν) → Text
  | [] => [unit '\x7d']
  | (k, v) :: fs => unit ',' :: quote k ++ unit ':' :: write v ++ writeFields fs

end

def isBlank (c : CodeUnit) : Bool := c = unit ' ' || c = unit '\t' || c = unit '\n' || c = unit '\r'

def skip (t : Text) : Text := t.dropWhile isBlank

/-- The rest of the text after a word. -/
def strip (word t : Text) : Option Text := if word.isPrefixOf t then some (t.drop word.length) else none

/-- An object from its members: of equal keys the last one counts, at the place of the first. -/
def ofMembers (fs : List (Text × Json ν)) : List (Text × Json ν) :=
  fs.foldl (fun acc e => Assoc.set e.1 e.2 acc) []

mutual

/-- The first argument bounds the length of the text. -/
def parseValue : ℕ → Text → Option (Json ν × Text)
  | 0, _ => none
  | fuel + 1, t =>
    match skip t with
    | [] => none
    | c :: r =>
      if c = unit 'n' then (strip [unit 'u', unit 'l', unit 'l'] r).map fun r => (.null, r)
      else if c = unit 't' then (strip [unit 'r', unit 'u', unit 'e'] r).map fun r => (.bool true, r)
      else if c = unit 'f' then (strip [unit 'a', unit 'l', unit 's', unit 'e'] r).map fun r => (.bool false, r)
      else if c = unit '"' then (parseString fuel r).map fun p => (.str p.1, p.2)
      else if c = unit '[' then
        if (skip r).head? = some (unit ']') then some (.arr [], (skip r).tail)
        else (parseItems fuel r).map fun p => (.arr p.1, p.2)
      else if c = unit '\x7b' then
        if (skip r).head? = some (unit '\x7d') then some (.obj [], (skip r).tail)
        else (parseFields fuel r).map fun p => (.obj (ofMembers p.1), p.2)
      else if isNumberUnit c then
        (f.read ((c :: r).takeWhile isNumberUnit)).map fun x => (.num x, (c :: r).dropWhile isNumberUnit)
      else none

def parseItems : ℕ → Text → Option (List (Json ν) × Text)
  | 0, _ => none
  | fuel + 1, t => do
    let (x, r) ← parseValue fuel t
    if (skip r).head? = some (unit ',') then
      let (xs, r) ← parseItems fuel (skip r).tail
      return (x :: xs, r)
    else if (skip r).head? = some (unit ']') then return ([x], (skip r).tail)
    else none

def parseFields : ℕ → Text → Option (List (Text × Json ν) × Text)
  | 0, _ => none
  | fuel + 1, t => do
    if (skip t).head? ≠ some (unit '"') then none
    else
      let (k, r) ← parseString fuel (skip t).tail
      if (skip r).head? ≠ some (unit ':') then none
      else
        let (v, r) ← parseValue fuel (skip r).tail
        if (skip r).head? = some (unit ',') then
          let (fs, r) ← parseFields fuel (skip r).tail
          return ((k, v) :: fs, r)
        else if (skip r).head? = some (unit '\x7d') then return ([(k, v)], (skip r).tail)
        else none

end

def parse (t : Text) : Option (Json ν) := do
  let (j, r) ← parseValue f (t.length + 1) t
  if skip r = [] then return j else none

/-! ### Values that can be read back -/

variable {f}

mutual

/-- No object has two fields of one key. -/
def Json.Distinct : Json ν → Prop
  | .arr xs => DistinctItems xs
  | .obj fs => (fs.map Prod.fst).Nodup ∧ DistinctFields fs
  | _ => True

def DistinctItems : List (Json ν) → Prop
  | [] => True
  | x :: xs => x.Distinct ∧ DistinctItems xs

def DistinctFields : List (Text × Json ν) → Prop
  | [] => True
  | (_, v) :: fs => v.Distinct ∧ DistinctFields fs

end

mutual

/-- The value with its numbers changed. -/
def Json.mapNum (g : ν → ν) : Json ν → Json ν
  | .num x => .num (g x)
  | .arr xs => .arr (mapNumItems g xs)
  | .obj fs => .obj (mapNumFields g fs)
  | j => j

def mapNumItems (g : ν → ν) : List (Json ν) → List (Json ν)
  | [] => []
  | x :: xs => x.mapNum g :: mapNumItems g xs

def mapNumFields (g : ν → ν) : List (Text × Json ν) → List (Text × Json ν)
  | [] => []
  | (k, v) :: fs => (k, v.mapNum g) :: mapNumFields g fs

end

theorem keys_mapNumFields (g : ν → ν) (fs : List (Text × Json ν)) :
    (mapNumFields g fs).map Prod.fst = fs.map Prod.fst := by
  induction fs with
  | nil => rfl
  | cons e fs ih =>
    obtain ⟨k, v⟩ := e
    rw [mapNumFields, List.map_cons, List.map_cons, ih]

/-- Members with distinct keys are the fields. -/
theorem ofMembers_of_nodup {fs : List (Text × Json ν)} (h : (fs.map Prod.fst).Nodup) : ofMembers fs = fs := by
  have main : ∀ (fs acc : List (Text × Json ν)), ((acc ++ fs).map Prod.fst).Nodup →
      fs.foldl (fun acc e => Assoc.set e.1 e.2 acc) acc = acc ++ fs := by
    intro fs
    induction fs with
    | nil => exact fun acc _ => (List.append_nil acc).symm
    | cons e fs ih =>
      intro acc hnodup
      have hnew : e.1 ∉ acc.map Prod.fst := by
        rw [List.map_append, List.nodup_append] at hnodup
        intro hmem
        exact hnodup.2.2 _ hmem e.1 List.mem_cons_self rfl
      rw [List.foldl_cons, Assoc.set_of_notMem hnew, ih (acc ++ [e]) (by simpa using hnodup), List.append_assoc]
      rfl
  exact main fs [] h

/-! ### The first code unit -/

/-- What every written value starts with. -/
def Starts (c : CodeUnit) : Prop := isBlank c = false ∧ c ≠ unit ']' ∧ c ≠ unit '\x7d'

instance (c : CodeUnit) : Decidable (Starts c) := by unfold Starts; infer_instance

theorem starts_number {c : CodeUnit} (h : isNumberUnit c = true) : Starts c ∧ c ≠ unit 'n' ∧ c ≠ unit 't' ∧
    c ≠ unit 'f' ∧ c ≠ unit '"' ∧ c ≠ unit '[' ∧ c ≠ unit '\x7b' := by
  unfold Starts
  simp only [isNumberUnit, isBlank, unit, Bool.or_eq_true, Bool.and_eq_true, decide_eq_true_eq, Fin.ext_iff,
    Fin.val_ofNat, Bool.or_eq_false_iff, decide_eq_false_iff_not, ne_eq, Char.reduceToNat] at h ⊢
  omega

variable {norm : ν → ν} (hf : f.Lawful norm)

include hf

theorem write_head (j : Json ν) : ∃ c t, write f j = c :: t ∧ Starts c := by
  cases j with
  | null => exact ⟨unit 'n', _, by rw [write], by decide⟩
  | bool b =>
    cases b with
    | false => exact ⟨unit 'f', _, by rw [write], by decide⟩
    | true => exact ⟨unit 't', _, by rw [write], by decide⟩
  | num x =>
    rcases hx : f.print x with _ | ⟨c, t⟩
    · exact absurd hx (hf.nonempty x)
    · exact ⟨c, t, by rw [write, hx], (starts_number (hf.units x c (by rw [hx]; exact List.mem_cons_self))).1⟩
  | str s => exact ⟨unit '"', _, by rw [write, quote]; rfl, by decide⟩
  | arr xs =>
    cases xs with
    | nil => exact ⟨unit '[', _, by rw [write], by decide⟩
    | cons x xs => exact ⟨unit '[', _, by rw [write]; rfl, by decide⟩
  | obj fs =>
    rcases fs with _ | ⟨⟨k, v⟩, fs⟩
    · exact ⟨unit '\x7b', _, by rw [write], by decide⟩
    · exact ⟨unit '\x7b', _, by rw [write]; rfl, by decide⟩

omit hf in
theorem skip_cons {c : CodeUnit} {t : Text} (h : isBlank c = false) : skip (c :: t) = c :: t := by
  unfold skip
  rw [List.dropWhile_cons_of_neg (by simp [h])]

theorem skip_write (j : Json ν) (r : Text) : skip (write f j ++ r) = write f j ++ r := by
  obtain ⟨c, t, hj, hc⟩ := write_head hf j
  rw [hj, List.cons_append, skip_cons hc.1]

omit hf in
theorem delimited_items (xs : List (Json ν)) (r : Text) : Delimited (writeItems f xs ++ r) := by
  cases xs with
  | nil => rw [writeItems]; exact delimited_cons (by decide)
  | cons x xs => rw [writeItems]; exact delimited_cons (by decide)

omit hf in
theorem delimited_fields (fs : List (Text × Json ν)) (r : Text) : Delimited (writeFields f fs ++ r) := by
  rcases fs with _ | ⟨⟨k, v⟩, fs⟩
  · rw [writeFields]; exact delimited_cons (by decide)
  · rw [writeFields]; exact delimited_cons (by decide)

/-- A number ends where the number units end. -/
theorem read_number (x : ν) {r : Text} (hr : Delimited r) :
    (f.print x ++ r).takeWhile isNumberUnit = f.print x ∧ (f.print x ++ r).dropWhile isNumberUnit = r := by
  rw [List.takeWhile_append_of_pos (hf.units x), List.dropWhile_append_of_pos (hf.units x)]
  cases r with
  | nil => exact ⟨List.append_nil _, rfl⟩
  | cons c r =>
    have hc : isNumberUnit c = false := hr c rfl
    exact ⟨by simp [hc], by simp [hc]⟩

theorem parseValue_num (x : ν) {r : Text} (hr : Delimited r) (fuel : ℕ) :
    parseValue f (fuel + 1) (f.print x ++ r) = some (.num (norm x), r) := by
  rcases hx : f.print x with _ | ⟨c, t⟩
  · exact absurd hx (hf.nonempty x)
  obtain ⟨htake, hdrop⟩ := read_number hf x hr
  rw [hx, List.cons_append] at htake hdrop
  have hunit : isNumberUnit c = true := hf.units x c (by rw [hx]; exact List.mem_cons_self)
  obtain ⟨hstart, hn, ht, hfalse, hquote, harr, hobj⟩ := starts_number hunit
  have hread := hf.read_print x
  rw [hx] at hread
  rw [List.cons_append, parseValue, skip_cons hstart.1]
  simp only [if_neg hn, if_neg ht, if_neg hfalse, if_neg hquote, if_neg harr, if_neg hobj, if_pos hunit, htake,
    hdrop, hread, Option.map_some]

omit hf in
theorem parseValue_word {word : Text} {c : CodeUnit} {j : Json ν} (r : Text) (fuel : ℕ)
    (hc : (c = unit 'n' ∧ word = [unit 'u', unit 'l', unit 'l'] ∧ j = .null) ∨
      (c = unit 't' ∧ word = [unit 'r', unit 'u', unit 'e'] ∧ j = .bool true) ∨
      (c = unit 'f' ∧ word = [unit 'a', unit 'l', unit 's', unit 'e'] ∧ j = .bool false)) :
    parseValue f (fuel + 1) (c :: (word ++ r)) = some (j, r) := by
  have hstrip : strip word (word ++ r) = some r := by
    unfold strip
    rw [if_pos (by simp), List.drop_left]
  rcases hc with ⟨rfl, rfl, rfl⟩ | ⟨rfl, rfl, rfl⟩ | ⟨rfl, rfl, rfl⟩
  · rw [parseValue, skip_cons (by decide)]
    simp only [if_true, hstrip, Option.map_some]
  · rw [parseValue, skip_cons (by decide)]
    simp only [if_neg (by decide : unit 't' ≠ unit 'n'), if_true, hstrip, Option.map_some]
  · rw [parseValue, skip_cons (by decide)]
    simp only [if_neg (by decide : unit 'f' ≠ unit 'n'), if_neg (by decide : unit 'f' ≠ unit 't'), if_true, hstrip,
      Option.map_some]

omit hf in
theorem parseValue_str (s r : Text) {fuel : ℕ} (h : (quote s).length ≤ fuel + 1) :
    parseValue f (fuel + 1) (quote s ++ r) = some (.str s, r) := by
  have hquote : quote s ++ r = unit '"' :: ((quote s).tail ++ r) := by simp [quote]
  rw [hquote, parseValue, skip_cons (by decide)]
  simp only [if_neg (by decide : unit '"' ≠ unit 'n'), if_neg (by decide : unit '"' ≠ unit 't'),
    if_neg (by decide : unit '"' ≠ unit 'f'), if_true, parseString_quote s r h, Option.map_some]

omit hf in
/-- The bracket of an array. -/
theorem parseValue_bracket (r : Text) (fuel : ℕ) : parseValue f (fuel + 1) (unit '[' :: r) =
    if (skip r).head? = some (unit ']') then some (.arr [], (skip r).tail)
    else (parseItems f fuel r).map fun p => (.arr p.1, p.2) := by
  rw [parseValue, skip_cons (by decide)]
  simp only [if_neg (by decide : unit '[' ≠ unit 'n'), if_neg (by decide : unit '[' ≠ unit 't'),
    if_neg (by decide : unit '[' ≠ unit 'f'), if_neg (by decide : unit '[' ≠ unit '"'), if_true]

omit hf in
/-- The brace of an object. -/
theorem parseValue_brace (r : Text) (fuel : ℕ) : parseValue f (fuel + 1) (unit '\x7b' :: r) =
    if (skip r).head? = some (unit '\x7d') then some (.obj [], (skip r).tail)
    else (parseFields f fuel r).map fun p => (.obj (ofMembers p.1), p.2) := by
  rw [parseValue, skip_cons (by decide)]
  simp only [if_neg (by decide : unit '\x7b' ≠ unit 'n'), if_neg (by decide : unit '\x7b' ≠ unit 't'),
    if_neg (by decide : unit '\x7b' ≠ unit 'f'), if_neg (by decide : unit '\x7b' ≠ unit '"'),
    if_neg (by decide : unit '\x7b' ≠ unit '['), if_true]

omit hf in
/-- What follows an item. -/
theorem parseItems_step {x : Json ν} {t r : Text} {fuel : ℕ} (h : parseValue f fuel t = some (x, r)) :
    parseItems f (fuel + 1) t =
      if (skip r).head? = some (unit ',') then (parseItems f fuel (skip r).tail).map fun p => (x :: p.1, p.2)
      else if (skip r).head? = some (unit ']') then some ([x], (skip r).tail)
      else none := by
  rw [parseItems, h]
  show (if (skip r).head? = some (unit ',') then (do
      let (xs, r) ← parseItems f fuel (skip r).tail
      return (x :: xs, r))
    else if (skip r).head? = some (unit ']') then some ([x], (skip r).tail) else none) = _
  congr 1
  cases parseItems f fuel (skip r).tail <;> rfl

omit hf in
/-- What follows a field. -/
theorem parseFields_step {k : Text} {v : Json ν} {t r : Text} {fuel : ℕ} (hk : (quote k).length ≤ fuel + 1)
    (h : parseValue f fuel t = some (v, r)) : parseFields f (fuel + 1) (quote k ++ unit ':' :: t) =
      if (skip r).head? = some (unit ',') then (parseFields f fuel (skip r).tail).map fun p => ((k, v) :: p.1, p.2)
      else if (skip r).head? = some (unit '\x7d') then some ([(k, v)], (skip r).tail)
      else none := by
  have hquote : quote k ++ unit ':' :: t = unit '"' :: ((quote k).tail ++ unit ':' :: t) := by simp [quote]
  rw [hquote, parseFields, skip_cons (by decide)]
  simp only [List.head?_cons, ne_eq, not_true, if_false, List.tail_cons]
  rw [parseString_quote k _ hk]
  show (if ¬ (skip (unit ':' :: t)).head? = some (unit ':') then none else (do
      let (v, r) ← parseValue f fuel (skip (unit ':' :: t)).tail
      if (skip r).head? = some (unit ',') then
        let (fs, r) ← parseFields f fuel (skip r).tail
        return ((k, v) :: fs, r)
      else if (skip r).head? = some (unit '\x7d') then return ([(k, v)], (skip r).tail)
      else none : Option (List (Text × Json ν) × Text))) = _
  rw [skip_cons (by decide), if_neg (by simp), List.tail_cons, h]
  show (if (skip r).head? = some (unit ',') then (do
      let (fs, r) ← parseFields f fuel (skip r).tail
      return ((k, v) :: fs, r))
    else if (skip r).head? = some (unit '\x7d') then some ([(k, v)], (skip r).tail) else none) = _
  congr 1
  cases parseFields f fuel (skip r).tail <;> rfl

set_option linter.unusedSectionVars false in
mutual

/-- **A written value is read back**, whatever follows it. -/
theorem parseValue_write : ∀ (j : Json ν) (r : Text) (fuel : ℕ), j.Distinct → Delimited r →
    (write f j).length ≤ fuel → parseValue f fuel (write f j ++ r) = some (j.mapNum norm, r)
  | .null, r, fuel, _, _, h => by
    rw [write] at h ⊢
    obtain ⟨fuel, rfl⟩ : ∃ n, fuel = n + 1 := ⟨fuel - 1, by simp at h; omega⟩
    rw [Json.mapNum]
    · exact parseValue_word r fuel (.inl ⟨rfl, rfl, rfl⟩)
    all_goals simp
  | .bool true, r, fuel, _, _, h => by
    rw [write] at h ⊢
    obtain ⟨fuel, rfl⟩ : ∃ n, fuel = n + 1 := ⟨fuel - 1, by simp at h; omega⟩
    rw [Json.mapNum]
    · exact parseValue_word r fuel (.inr (.inl ⟨rfl, rfl, rfl⟩))
    all_goals simp
  | .bool false, r, fuel, _, _, h => by
    rw [write] at h ⊢
    obtain ⟨fuel, rfl⟩ : ∃ n, fuel = n + 1 := ⟨fuel - 1, by simp at h; omega⟩
    rw [Json.mapNum]
    · exact parseValue_word r fuel (.inr (.inr ⟨rfl, rfl, rfl⟩))
    all_goals simp
  | .num x, r, fuel, _, hr, h => by
    rw [write] at h ⊢
    have hpos := List.length_pos_of_ne_nil (hf.nonempty x)
    obtain ⟨fuel, rfl⟩ : ∃ n, fuel = n + 1 := ⟨fuel - 1, by omega⟩
    rw [Json.mapNum]
    exact parseValue_num hf x hr fuel
  | .str s, r, fuel, _, _, h => by
    rw [write] at h ⊢
    have hpos : 0 < (quote s).length := by simp [quote]
    obtain ⟨fuel, rfl⟩ : ∃ n, fuel = n + 1 := ⟨fuel - 1, by omega⟩
    rw [Json.mapNum]
    · exact parseValue_str s r h
    all_goals simp
  | .arr [], r, fuel, _, _, h => by
    rw [write] at h ⊢
    obtain ⟨fuel, rfl⟩ : ∃ n, fuel = n + 1 := ⟨fuel - 1, by simp at h; omega⟩
    rw [Json.mapNum, mapNumItems, List.cons_append, parseValue_bracket, List.cons_append, List.nil_append,
      skip_cons (by decide), List.head?_cons, if_pos rfl]
    rfl
  | .arr (x :: xs), r, fuel, hd, _, h => by
    rw [write] at h ⊢
    rw [List.length_append, List.length_cons] at h
    obtain ⟨fuel, rfl⟩ : ∃ n, fuel = n + 1 := ⟨fuel - 1, by omega⟩
    obtain ⟨c, t, hx, hc⟩ := write_head hf x
    have hread := parseItems_write x xs r fuel hd (by omega)
    rw [List.cons_append, List.cons_append, parseValue_bracket, List.append_assoc, skip_write hf,
      if_neg (by rw [hx]; exact fun hhead => hc.2.1 (Option.some.inj hhead)), hread, Json.mapNum]
    rfl
  | .obj [], r, fuel, _, _, h => by
    rw [write] at h ⊢
    obtain ⟨fuel, rfl⟩ : ∃ n, fuel = n + 1 := ⟨fuel - 1, by simp at h; omega⟩
    rw [Json.mapNum, mapNumFields, List.cons_append, parseValue_brace, List.cons_append, List.nil_append,
      skip_cons (by decide), List.head?_cons, if_pos rfl]
    rfl
  | .obj ((k, v) :: fs), r, fuel, hd, _, h => by
    rw [write] at h ⊢
    obtain ⟨fuel, rfl⟩ : ∃ n, fuel = n + 1 := ⟨fuel - 1, by simp at h; omega⟩
    have hread := parseFields_write k v fs r fuel hd.2 (by simp at h ⊢; omega)
    have hhead : (skip (quote k ++ unit ':' :: (write f v ++ (writeFields f fs ++ r)))).head? ≠ some (unit '\x7d') := by
      rw [quote, List.cons_append, List.cons_append, skip_cons (by decide), List.head?_cons]
      decide
    have hkeys : (((k, v.mapNum norm) :: mapNumFields norm fs).map Prod.fst).Nodup := by
      rw [List.map_cons, keys_mapNumFields]
      exact hd.1
    have htext : unit '\x7b' :: quote k ++ unit ':' :: write f v ++ writeFields f fs ++ r =
        unit '\x7b' :: (quote k ++ unit ':' :: (write f v ++ (writeFields f fs ++ r))) := by simp
    rw [htext, parseValue_brace, if_neg hhead, hread, Json.mapNum, mapNumFields, Option.map_some,
      ofMembers_of_nodup hkeys]
termination_by j => sizeOf j
decreasing_by all_goals (simp; try omega)

theorem parseItems_write : ∀ (x : Json ν) (xs : List (Json ν)) (r : Text) (fuel : ℕ), DistinctItems (x :: xs) →
    (write f x).length + (writeItems f xs).length ≤ fuel →
    parseItems f fuel (write f x ++ (writeItems f xs ++ r)) = some (x.mapNum norm :: mapNumItems norm xs, r)
  | x, [], r, fuel, hd, h => by
    rw [writeItems] at h ⊢
    rw [List.length_singleton] at h
    obtain ⟨fuel, rfl⟩ : ∃ n, fuel = n + 1 := ⟨fuel - 1, by omega⟩
    have hvalue := parseValue_write x (unit ']' :: r) fuel hd.1 (delimited_cons (by decide)) (by omega)
    rw [List.singleton_append, parseItems_step hvalue, skip_cons (by decide), List.head?_cons, if_neg (by decide),
      if_pos rfl, mapNumItems]
    rfl
  | x, y :: ys, r, fuel, hd, h => by
    rw [writeItems] at h ⊢
    rw [List.length_append, List.length_cons] at h
    obtain ⟨fuel, rfl⟩ : ∃ n, fuel = n + 1 := ⟨fuel - 1, by omega⟩
    have hvalue := parseValue_write x (unit ',' :: (write f y ++ (writeItems f ys ++ r))) fuel hd.1
      (delimited_cons (by decide)) (by omega)
    have hrest := parseItems_write y ys r fuel hd.2 (by omega)
    rw [List.cons_append, List.cons_append, List.append_assoc, parseItems_step hvalue, skip_cons (by decide), List.head?_cons,
      if_pos rfl, List.tail_cons, hrest, mapNumItems]
    rfl
termination_by x xs => sizeOf (x :: xs)
decreasing_by all_goals (simp; try omega)

theorem parseFields_write : ∀ (k : Text) (v : Json ν) (fs : List (Text × Json ν)) (r : Text) (fuel : ℕ),
    DistinctFields ((k, v) :: fs) → (quote k).length + 1 + (write f v).length + (writeFields f fs).length ≤ fuel →
    parseFields f fuel (quote k ++ unit ':' :: (write f v ++ (writeFields f fs ++ r))) =
      some ((k, v.mapNum norm) :: mapNumFields norm fs, r)
  | k, v, [], r, fuel, hd, h => by
    rw [writeFields] at h ⊢
    rw [List.length_singleton] at h
    obtain ⟨fuel, rfl⟩ : ∃ n, fuel = n + 1 := ⟨fuel - 1, by omega⟩
    have hvalue := parseValue_write v (unit '\x7d' :: r) fuel hd.1 (delimited_cons (by decide)) (by omega)
    rw [List.singleton_append, parseFields_step (by omega) hvalue, skip_cons (by decide), List.head?_cons,
      if_neg (by decide), if_pos rfl, mapNumFields]
    rfl
  | k, v, (l, w) :: fs, r, fuel, hd, h => by
    rw [writeFields] at h ⊢
    rw [List.length_append, List.length_append, List.length_cons, List.length_cons] at h
    obtain ⟨fuel, rfl⟩ : ∃ n, fuel = n + 1 := ⟨fuel - 1, by omega⟩
    have hvalue := parseValue_write v
      (unit ',' :: (quote l ++ unit ':' :: (write f w ++ (writeFields f fs ++ r)))) fuel hd.1
      (delimited_cons (by decide)) (by omega)
    have hrest := parseFields_write l w fs r fuel hd.2 (by omega)
    have htext : unit ',' :: quote l ++ unit ':' :: write f w ++ writeFields f fs ++ r =
        unit ',' :: (quote l ++ unit ':' :: (write f w ++ (writeFields f fs ++ r))) := by simp
    rw [htext, parseFields_step (by omega) hvalue, skip_cons (by decide), List.head?_cons, if_pos rfl, List.tail_cons,
      hrest, mapNumFields]
    rfl
termination_by k v fs => sizeOf ((k, v) :: fs)
decreasing_by all_goals (simp; try omega)

end

/-- **A value is its text**, up to how its numbers are read. -/
theorem parse_write {j : Json ν} (h : j.Distinct) : parse f (write f j) = some (j.mapNum norm) := by
  have hread := parseValue_write hf j [] ((write f j).length + 1) h delimited_nil (by omega)
  rw [List.append_nil] at hread
  unfold parse
  rw [hread]
  rfl

end

end Norns.Lib.JsonText
