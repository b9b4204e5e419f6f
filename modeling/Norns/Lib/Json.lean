import Mathlib.Tactic.Common
import Mathlib.Tactic.IntervalCases
import Mathlib.Data.List.Basic

/-! # JSON texts

`Json ν` is a JSON value with numbers in `ν`, its object fields in their order; `stringify` writes it
without blanks, strings escaped, as JavaScript's `JSON.stringify` does. How a number is printed is
the parameter `num`.

* `unescape_escapeChar`: an escaped character can be read back whatever follows it;
* `write_cancel`: a written value is self-delimiting;
* `stringify_injective`: hence different values have different texts. -/

namespace Norns.Lib

inductive Json (ν : Type)
  | null
  | bool (b : Bool)
  | num (x : ν)
  | str (s : String)
  | arr (items : List (Json ν))
  | obj (fields : List (String × Json ν))

namespace Json

/-- A lower-case hexadecimal digit. -/
def hexDigit (n : ℕ) : Char := Nat.digitChar n

/-- One character inside a quoted string. -/
def escapeChar (c : Char) : List Char :=
  if c = '"' then ['\\', '"']
  else if c = '\\' then ['\\', '\\']
  else if c = '\x08' then ['\\', 'b']
  else if c = '\t' then ['\\', 't']
  else if c = '\n' then ['\\', 'n']
  else if c = '\x0c' then ['\\', 'f']
  else if c = '\r' then ['\\', 'r']
  else if c.toNat < 32 then ['\\', 'u', '0', '0', hexDigit (c.toNat / 16), hexDigit (c.toNat % 16)]
  else [c]

def writeString (s : String) : List Char := '"' :: s.toList.flatMap escapeChar ++ ['"']

section

variable {ν : Type} (num : ν → String)

mutual

def write : Json ν → List Char
  | .null => ['n', 'u', 'l', 'l']
  | .bool true => ['t', 'r', 'u', 'e']
  | .bool false => ['f', 'a', 'l', 's', 'e']
  | .num x => (num x).toList
  | .str s => writeString s
  | .arr [] => ['[', ']']
  | .arr (x :: xs) => '[' :: write x ++ writeItems xs ++ [']']
  | .obj [] => ['\x7b', '\x7d']
  | .obj ((k, v) :: fs) => '\x7b' :: writeString k ++ ':' :: write v ++ writeFields fs ++ ['\x7d']

/-- The items after the first. -/
def writeItems : List (Json ν) → List Char
  | [] => []
  | x :: xs => ',' :: write x ++ writeItems xs

/-- The fields after the first. -/
def writeFields : List (String × Json ν) → List Char
  | [] => []
  | (k, v) :: fs => ',' :: writeString k ++ ':' :: write v ++ writeFields fs

end

def stringify (j : Json ν) : String := String.ofList (write num j)

end

/-! ### Strings -/

def hexValue (c : Char) : ℕ :=
  if c.toNat < 58 then c.toNat - 48 else c.toNat - 87

/-- Read one escaped character. -/
def unescape : List Char → Option (Char × List Char)
  | '\\' :: 'b' :: r => some ('\x08', r)
  | '\\' :: 't' :: r => some ('\t', r)
  | '\\' :: 'n' :: r => some ('\n', r)
  | '\\' :: 'f' :: r => some ('\x0c', r)
  | '\\' :: 'r' :: r => some ('\r', r)
  | '\\' :: 'u' :: _ :: _ :: a :: b :: r => some (Char.ofNat (16 * hexValue a + hexValue b), r)
  | '\\' :: c :: r => some (c, r)
  | c :: r => some (c, r)
  | [] => none

theorem hexValue_hexDigit : ∀ n < 16, hexValue (hexDigit n) = n := by decide

theorem unescape_escapeChar (c : Char) (r : List Char) :
    unescape (escapeChar c ++ r) = some (c, r) := by
  unfold escapeChar
  split_ifs with h1 h2 h3 h4 h5 h6 h7 h8
  · subst h1; rfl
  · subst h2; rfl
  · subst h3; rfl
  · subst h4; rfl
  · subst h5; rfl
  · subst h6; rfl
  · subst h7; rfl
  · show some (Char.ofNat _, r) = _
    rw [hexValue_hexDigit _ (by omega), hexValue_hexDigit _ (by omega), Nat.div_add_mod]
    simp
  · show unescape (c :: r) = _
    unfold unescape
    split <;> simp_all

theorem escapeChar_cancel {c d : Char} {r s : List Char}
    (h : escapeChar c ++ r = escapeChar d ++ s) : c = d ∧ r = s := by
  have := congrArg unescape h
  rw [unescape_escapeChar, unescape_escapeChar] at this
  simpa using this

/-- A character is never written as a bare quote. -/
theorem escapeChar_ne_quote (c : Char) (r s : List Char) : escapeChar c ++ r ≠ '"' :: s := by
  unfold escapeChar
  split_ifs with h1 <;> simp_all

theorem escaped_cancel {cs : List Char} : ∀ {ds r s : List Char},
    cs.flatMap escapeChar ++ '"' :: r = ds.flatMap escapeChar ++ '"' :: s → cs = ds ∧ r = s := by
  induction cs with
  | nil =>
    intro ds r s h
    cases ds with
    | nil => simpa using h
    | cons d ds =>
      rw [List.flatMap_cons, List.append_assoc] at h
      exact absurd h.symm (escapeChar_ne_quote d _ _)
  | cons c cs ih =>
    intro ds r s h
    rw [List.flatMap_cons, List.append_assoc] at h
    cases ds with
    | nil => exact absurd h (escapeChar_ne_quote c _ _)
    | cons d ds =>
      rw [List.flatMap_cons, List.append_assoc] at h
      obtain ⟨rfl, htail⟩ := escapeChar_cancel h
      obtain ⟨rfl, hrest⟩ := ih htail
      exact ⟨rfl, hrest⟩

theorem writeString_cancel {s t : String} {r r' : List Char}
    (h : writeString s ++ r = writeString t ++ r') : s = t ∧ r = r' := by
  simp only [writeString, List.cons_append, List.append_assoc, List.cons.injEq, true_and,
    List.nil_append] at h
  obtain ⟨h, h'⟩ := escaped_cancel h
  exact ⟨String.toList_injective h, h'⟩

/-! ### Numbers -/

/-- The characters a number is written with. -/
def numberChar (c : Char) : Bool := c.isDigit || c ∈ ['+', '-', '.', 'e', 'E']

/-- Different numbers have different texts, and a text is not empty and made of number characters. -/
structure Prints {ν : Type} (num : ν → String) : Prop where
  injective : Function.Injective num
  nonempty : ∀ x, (num x).toList ≠ []
  chars : ∀ x, ∀ c ∈ (num x).toList, numberChar c = true

/-- The text does not go on with a number character. -/
def Delimited (r : List Char) : Prop := ∀ c ∈ r.head?, numberChar c = false

section

variable {ν : Type} {num : ν → String} (hnum : Prints num)

include hnum

theorem num_cancel {x y : ν} {r s : List Char} (hr : Delimited r) (hs : Delimited s)
    (h : (num x).toList ++ r = (num y).toList ++ s) : x = y ∧ r = s := by
  have htake : ∀ (l t : List Char), (∀ c ∈ l, numberChar c = true) → Delimited t →
      (l ++ t).takeWhile numberChar = l := by
    intro l t hl ht
    rw [List.takeWhile_append_of_pos hl]
    cases t with
    | nil => simp
    | cons c t => simp [ht c (by simp)]
  have h1 := congrArg (List.takeWhile numberChar) h
  rw [htake _ _ (hnum.chars x) hr, htake _ _ (hnum.chars y) hs] at h1
  rw [h1] at h
  exact ⟨hnum.injective (String.toList_injective h1), List.append_cancel_left h⟩

theorem num_head (x : ν) : ∃ c t, (num x).toList = c :: t ∧ numberChar c = true := by
  rcases h : (num x).toList with _ | ⟨c, t⟩
  · exact absurd h (hnum.nonempty x)
  · exact ⟨c, t, rfl, hnum.chars x c (by rw [h]; simp)⟩

/-! ### Values -/

omit hnum in
theorem delimited_cons {c : Char} {r : List Char} (h : numberChar c = false) :
    Delimited (c :: r) := by
  intro d hd
  rw [List.head?_cons, Option.mem_some_iff] at hd
  exact hd ▸ h

/-- What the first character of a text tells. -/
inductive Kind
  | null | true | false | num | str | arr | obj | other
  deriving DecidableEq

def kind : Json ν → Kind
  | .null => .null
  | .bool .true => .true
  | .bool .false => .false
  | .num _ => .num
  | .str _ => .str
  | .arr _ => .arr
  | .obj _ => .obj

def Kind.ofHead (c : Char) : Kind :=
  if numberChar c then .num
  else if c = 'n' then .null
  else if c = 't' then .true
  else if c = 'f' then .false
  else if c = '"' then .str
  else if c = '[' then .arr
  else if c = '\x7b' then .obj
  else .other

theorem write_head (j : Json ν) : ∃ c t, write num j = c :: t ∧ Kind.ofHead c = kind j := by
  cases j with
  | null => exact ⟨'n', _, by rw [write], rfl⟩
  | bool b =>
    cases b
    · exact ⟨'f', _, by rw [write], rfl⟩
    · exact ⟨'t', _, by rw [write], rfl⟩
  | num x =>
    obtain ⟨c, t, hx, hc⟩ := num_head hnum x
    exact ⟨c, t, by rw [write, hx], by simp [Kind.ofHead, hc, kind]⟩
  | str s => exact ⟨'"', _, by rw [write, writeString]; rfl, rfl⟩
  | arr items =>
    cases items
    · exact ⟨'[', _, by rw [write], rfl⟩
    · exact ⟨'[', _, by rw [write]; rfl, rfl⟩
  | obj fields =>
    rcases fields with _ | ⟨⟨k, v⟩, fs⟩
    · exact ⟨'\x7b', _, by rw [write], rfl⟩
    · exact ⟨'\x7b', _, by rw [write]; rfl, rfl⟩

theorem kind_eq {a b : Json ν} {r s : List Char} (h : write num a ++ r = write num b ++ s) :
    kind a = kind b := by
  obtain ⟨c, t, ha, hc⟩ := write_head hnum a
  obtain ⟨d, u, hb, hd⟩ := write_head hnum b
  rw [ha, hb, List.cons_append, List.cons_append, List.cons.injEq] at h
  rw [← hc, ← hd, h.1]

theorem write_ne_of_other {j : Json ν} {c : Char} {r s : List Char} (hc : Kind.ofHead c = .other) :
    write num j ++ r ≠ c :: s := by
  intro h
  obtain ⟨d, t, hd, hk⟩ := write_head hnum j
  rw [hd, List.cons_append, List.cons.injEq] at h
  rw [h.1, hc] at hk
  rcases j with _ | ⟨_ | _⟩ | _ | _ | _ | _ <;> cases hk

omit hnum in
theorem delimited_items (xs : List (Json ν)) (r : List Char) :
    Delimited (writeItems num xs ++ ']' :: r) := by
  cases xs
  · exact delimited_cons (by decide)
  · rw [writeItems]; exact delimited_cons (by decide)

omit hnum in
theorem delimited_fields (fs : List (String × Json ν)) (r : List Char) :
    Delimited (writeFields num fs ++ '\x7d' :: r) := by
  rcases fs with _ | ⟨⟨k, v⟩, fs⟩
  · exact delimited_cons (by decide)
  · rw [writeFields]; exact delimited_cons (by decide)

omit hnum

mutual

/-- **A written value is self-delimiting.** -/
theorem write_cancel (hnum : Prints num) : ∀ (a b : Json ν) {r s : List Char}, Delimited r → Delimited s →
    write num a ++ r = write num b ++ s → a = b ∧ r = s
  | .null, b, r, s, _, _, h => by
    have hk := kind_eq hnum h
    cases b with
    | null => simpa [write] using h
    | bool c => cases c <;> simp [kind] at hk
    | _ => simp [kind] at hk
  | .bool c, b, r, s, _, _, h => by
    have hk := kind_eq hnum h
    cases b with
    | bool d => cases c <;> cases d <;> simp_all [kind, write]
    | _ => cases c <;> simp [kind] at hk
  | .num x, b, r, s, hr, hs, h => by
    have hk := kind_eq hnum h
    cases b with
    | num y =>
      rw [write, write] at h
      obtain ⟨rfl, hrs⟩ := num_cancel hnum hr hs h
      exact ⟨rfl, hrs⟩
    | bool c => cases c <;> simp [kind] at hk
    | _ => simp [kind] at hk
  | .str x, b, r, s, _, _, h => by
    have hk := kind_eq hnum h
    cases b with
    | str y =>
      rw [write, write] at h
      obtain ⟨rfl, hrs⟩ := writeString_cancel h
      exact ⟨rfl, hrs⟩
    | bool c => cases c <;> simp [kind] at hk
    | _ => simp [kind] at hk
  | .arr xs, b, r, s, _, _, h => by
    have hk := kind_eq hnum h
    cases b with
    | arr ys =>
      cases xs with
      | nil =>
        cases ys with
        | nil => simpa [write] using h
        | cons y ys =>
          simp only [write, List.cons_append, List.append_assoc, List.cons.injEq, true_and,
            List.nil_append] at h
          exact absurd h.symm (write_ne_of_other hnum rfl)
      | cons x xs =>
        cases ys with
        | nil =>
          simp only [write, List.cons_append, List.append_assoc, List.cons.injEq, true_and,
            List.nil_append] at h
          exact absurd h (write_ne_of_other hnum rfl)
        | cons y ys =>
          simp only [write, List.cons_append, List.append_assoc, List.cons.injEq, true_and,
            List.nil_append] at h
          obtain ⟨rfl, htail⟩ :=
            write_cancel hnum x y (delimited_items xs r) (delimited_items ys s) h
          obtain ⟨rfl, hrs⟩ := writeItems_cancel hnum xs ys htail
          exact ⟨rfl, hrs⟩
    | bool c => cases c <;> simp [kind] at hk
    | _ => simp [kind] at hk
  | .obj xs, b, r, s, _, _, h => by
    have hk := kind_eq hnum h
    cases b with
    | obj ys =>
      rcases xs with _ | ⟨⟨k, v⟩, xs⟩
      · rcases ys with _ | ⟨⟨l, w⟩, ys⟩
        · simpa [write] using h
        · simp [write, writeString] at h
      · rcases ys with _ | ⟨⟨l, w⟩, ys⟩
        · simp [write, writeString] at h
        · simp only [write, List.cons_append, List.append_assoc, List.cons.injEq, true_and,
            List.nil_append] at h
          obtain ⟨rfl, hv⟩ := writeString_cancel h
          rw [List.cons.injEq] at hv
          obtain ⟨rfl, htail⟩ :=
            write_cancel hnum v w (delimited_fields xs r) (delimited_fields ys s) hv.2
          obtain ⟨rfl, hrs⟩ := writeFields_cancel hnum xs ys htail
          exact ⟨rfl, hrs⟩
    | bool c => cases c <;> simp [kind] at hk
    | _ => simp [kind] at hk

theorem writeItems_cancel (hnum : Prints num) : ∀ (xs ys : List (Json ν)) {r s : List Char},
    writeItems num xs ++ ']' :: r = writeItems num ys ++ ']' :: s → xs = ys ∧ r = s
  | [], [], r, s, h => by simpa [writeItems] using h
  | [], _ :: _, r, s, h => by simp [writeItems] at h
  | _ :: _, [], r, s, h => by simp [writeItems] at h
  | x :: xs, y :: ys, r, s, h => by
    simp only [writeItems, List.cons_append, List.append_assoc, List.cons.injEq, true_and] at h
    obtain ⟨rfl, htail⟩ := write_cancel hnum x y (delimited_items xs r) (delimited_items ys s) h
    obtain ⟨rfl, hrs⟩ := writeItems_cancel hnum xs ys htail
    exact ⟨rfl, hrs⟩

theorem writeFields_cancel (hnum : Prints num) : ∀ (xs ys : List (String × Json ν)) {r s : List Char},
    writeFields num xs ++ '\x7d' :: r = writeFields num ys ++ '\x7d' :: s → xs = ys ∧ r = s
  | [], [], r, s, h => by simpa [writeFields] using h
  | [], (_, _) :: _, r, s, h => by simp [writeFields] at h
  | (_, _) :: _, [], r, s, h => by simp [writeFields] at h
  | (k, v) :: xs, (l, w) :: ys, r, s, h => by
    simp only [writeFields, List.cons_append, List.append_assoc, List.cons.injEq, true_and] at h
    obtain ⟨rfl, hv⟩ := writeString_cancel h
    rw [List.cons.injEq] at hv
    obtain ⟨rfl, htail⟩ := write_cancel hnum v w (delimited_fields xs r) (delimited_fields ys s) hv.2
    obtain ⟨rfl, hrs⟩ := writeFields_cancel hnum xs ys htail
    exact ⟨rfl, hrs⟩

end

include hnum in
/-- **Different values have different texts.** -/
theorem stringify_injective : Function.Injective (stringify num) := fun a b h => by
  have hw : write num a ++ [] = write num b ++ [] := by
    simpa [stringify] using congrArg String.toList h
  exact (write_cancel hnum a b (fun c hc => by cases hc) (fun c hc => by cases hc) hw).1

end

end Json

end Norns.Lib
