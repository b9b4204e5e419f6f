import Norns.Lib.JsonText
import Mathlib.Algebra.BigOperators.Group.List.Basic
import Mathlib.Data.List.Induction

/-! # Texts and their bytes

A text is a list of code units, as JavaScript has it. `units` are the code units of a string, `trim` drops white space
at the ends, and `encode` is the UTF-8 encoding: a surrogate that stands alone becomes the replacement character.
`decode` reads bytes.

* `encode_append`: texts are encoded one after the other, where no pair is joined;
* `byteLength_lines`: the size of some lines;
* `byteLength_concat`, `byteLength_prefix`: a longer text has no fewer bytes. -/

namespace Norns.Lib.Utf8

open Norns.Lib.JsonText

/-- The code units of a character. -/
def charUnits (c : Char) : Text :=
  if c.toNat < 0x10000 then [unit c]
  else [Fin.ofNat 65536 (0xd800 + (c.toNat - 0x10000) / 0x400), Fin.ofNat 65536 (0xdc00 + (c.toNat - 0x10000) % 0x400)]

def units (s : String) : Text := s.toList.flatMap charUnits

/-- White space and line ends of the language. -/
def isSpace (c : CodeUnit) : Bool :=
  c.val ∈ [9, 10, 11, 12, 13, 32, 160, 0x1680, 0x2028, 0x2029, 0x202f, 0x205f, 0x3000, 0xfeff] ||
    0x2000 ≤ c.val && c.val ≤ 0x200a

def trimStart (t : Text) : Text := t.dropWhile isSpace

def trimEnd (t : Text) : Text := (t.reverse.dropWhile isSpace).reverse

def trim (t : Text) : Text := trimEnd (trimStart t)

/-- `ts.join(separator)` -/
def join (separator : Text) (ts : List Text) : Text := List.intercalate separator ts

/-! ### Encoding -/

def byte (n : ℕ) : UInt8 := UInt8.ofNat n

/-- The bytes of a code unit that is in no pair. -/
def encodeUnit (c : CodeUnit) : List UInt8 :=
  if c.val < 0x80 then [byte c.val]
  else if c.val < 0x800 then [byte (0xc0 + c.val / 0x40), byte (0x80 + c.val % 0x40)]
  else if isSurrogate c then [0xef, 0xbf, 0xbd]
  else [byte (0xe0 + c.val / 0x1000), byte (0x80 + c.val / 0x40 % 0x40), byte (0x80 + c.val % 0x40)]

/-- The bytes of a pair. -/
def encodePair (high low : CodeUnit) : List UInt8 :=
  let n := 0x10000 + (high.val - 0xd800) * 0x400 + (low.val - 0xdc00)
  [byte (0xf0 + n / 0x40000), byte (0x80 + n / 0x1000 % 0x40), byte (0x80 + n / 0x40 % 0x40), byte (0x80 + n % 0x40)]

def encode : Text → List UInt8
  | [] => []
  | [c] => encodeUnit c
  | c :: d :: t => if isHigh c && isLow d then encodePair c d ++ encode t else encodeUnit c ++ encode (d :: t)

def byteLength (t : Text) : ℕ := (encode t).length

/-- A first unit that makes no pair with the next one. -/
theorem encode_cons {c : CodeUnit} {t : Text} (h : ∀ d ∈ t.head?, (isHigh c && isLow d) = false) :
    encode (c :: t) = encodeUnit c ++ encode t := by
  cases t with
  | nil => simp [encode]
  | cons d t => rw [encode, h d rfl, if_neg Bool.false_ne_true]

theorem encode_pair {c d : CodeUnit} (h : (isHigh c && isLow d) = true) (t : Text) :
    encode (c :: d :: t) = encodePair c d ++ encode t := by
  rw [encode, if_pos h]

theorem encode_lone {c d : CodeUnit} (h : ¬ (isHigh c && isLow d) = true) (t : Text) :
    encode (c :: d :: t) = encodeUnit c ++ encode (d :: t) := by
  rw [encode, if_neg h]

/-- **Two texts**, the second of which does not begin with the second half of a pair. -/
theorem encode_append {x y : Text} (h : ∀ c ∈ y.head?, isLow c = false) : encode (x ++ y) = encode x ++ encode y := by
  induction x using encode.induct with
  | case1 => rfl
  | case2 c =>
    rw [List.singleton_append, encode_cons fun d hd => by rw [h d hd, Bool.and_false]]
    simp [encode]
  | case3 c d t hpair ih =>
    rw [List.cons_append, List.cons_append, encode_pair hpair, encode_pair hpair, ih, List.append_assoc]
  | case4 c d t hpair ih =>
    rw [List.cons_append] at ih
    rw [List.cons_append, List.cons_append, encode_lone hpair, encode_lone hpair, ih, List.append_assoc]

theorem byteLength_append {x y : Text} (h : ∀ c ∈ y.head?, isLow c = false) :
    byteLength (x ++ y) = byteLength x + byteLength y := by
  unfold byteLength
  rw [encode_append h, List.length_append]

theorem byteLength_newline (t : Text) : byteLength (unit '\n' :: t) = 1 + byteLength t := by
  unfold byteLength
  rw [encode_cons fun d _ => rfl, List.length_append]
  rfl

/-- A line and what comes after it. -/
theorem byteLength_line (x y : Text) : byteLength (x ++ unit '\n' :: y) = byteLength x + 1 + byteLength y := by
  rw [byteLength_append fun c hc => by obtain rfl := Option.some.inj hc; rfl, byteLength_newline]
  omega

/-- **The size of some lines**, each with its line feed but the last. -/
theorem byteLength_lines (lines : List Text) (h : lines ≠ []) :
    byteLength (join [unit '\n'] lines) + 1 = (lines.map fun line => byteLength line + 1).sum := by
  unfold join
  induction lines with
  | nil => exact absurd rfl h
  | cons line lines ih =>
    cases lines with
    | nil => simp [List.intercalate]
    | cons next lines =>
      have hjoin : List.intercalate [unit '\n'] (line :: next :: lines) =
          line ++ unit '\n' :: List.intercalate [unit '\n'] (next :: lines) := by
        simp [List.intercalate]
      rw [hjoin, byteLength_line, List.map_cons, List.sum_cons, ← ih (List.cons_ne_nil _ _)]
      omega

/-! ### Decoding -/

/-- The character for bytes that are no text. -/
def replacement : CodeUnit := Fin.ofNat 65536 0xfffd

/-- A character of which some bytes are missing, and where the next one lies. -/
structure Pending where
  codePoint : ℕ
  needed : ℕ
  lower : ℕ
  upper : ℕ

/-- What the first byte of a character says. -/
def lead (b : UInt8) : Text × Option Pending :=
  let n := b.toNat
  if n < 0x80 then ([Fin.ofNat 65536 n], none)
  else if 0xc2 ≤ n ∧ n ≤ 0xdf then ([], some ⟨n % 0x20, 1, 0x80, 0xbf⟩)
  else if 0xe0 ≤ n ∧ n ≤ 0xef then
    ([], some ⟨n % 0x10, 2, if n = 0xe0 then 0xa0 else 0x80, if n = 0xed then 0x9f else 0xbf⟩)
  else if 0xf0 ≤ n ∧ n ≤ 0xf4 then
    ([], some ⟨n % 0x08, 3, if n = 0xf0 then 0x90 else 0x80, if n = 0xf4 then 0x8f else 0xbf⟩)
  else ([replacement], none)

def codePointUnits (n : ℕ) : Text :=
  if n < 0x10000 then [Fin.ofNat 65536 n]
  else [Fin.ofNat 65536 (0xd800 + (n - 0x10000) / 0x400), Fin.ofNat 65536 (0xdc00 + (n - 0x10000) % 0x400)]

/-- The decoder: a character that is cut off becomes the replacement character, and the byte that cut it is read anew. -/
def decodeFrom : Option Pending → List UInt8 → Text
  | none, [] => []
  | some _, [] => [replacement]
  | none, b :: bs => (lead b).1 ++ decodeFrom (lead b).2 bs
  | some pending, b :: bs =>
    if pending.lower ≤ b.toNat ∧ b.toNat ≤ pending.upper then
      let codePoint := pending.codePoint * 0x40 + b.toNat % 0x40
      if pending.needed = 1 then codePointUnits codePoint ++ decodeFrom none bs
      else decodeFrom (some ⟨codePoint, pending.needed - 1, 0x80, 0xbf⟩) bs
    else replacement :: ((lead b).1 ++ decodeFrom (lead b).2 bs)

/-- `bytes.toString("utf8")` -/
def decode (bytes : List UInt8) : Text := decodeFrom none bytes

/-- Bytes of ASCII. -/
theorem decode_ascii (bytes : List UInt8) (h : ∀ b ∈ bytes, b.toNat < 0x80) :
    decode bytes = bytes.map fun b => Fin.ofNat 65536 b.toNat := by
  unfold decode
  induction bytes with
  | nil => rfl
  | cons b bs ih =>
    have hb : b.toNat < 0x80 := h b List.mem_cons_self
    have hlead : lead b = ([Fin.ofNat 65536 b.toNat], none) := if_pos hb
    rw [decodeFrom, hlead, ih fun c hc => h c (List.mem_cons_of_mem _ hc)]
    rfl

/-! ### Longer texts -/

theorem length_encodeUnit_pos (c : CodeUnit) : 0 < (encodeUnit c).length := by
  unfold encodeUnit
  split_ifs <;> simp

theorem length_encodeUnit_le (c : CodeUnit) : (encodeUnit c).length ≤ 3 := by
  unfold encodeUnit
  split_ifs <;> simp

/-- One more unit is more bytes. -/
theorem byteLength_concat (x : Text) (c : CodeUnit) : byteLength x < byteLength (x ++ [c]) := by
  unfold byteLength
  induction x using encode.induct with
  | case1 =>
    simp only [List.nil_append, encode, List.length_nil]
    exact length_encodeUnit_pos c
  | case2 b =>
    rw [List.singleton_append]
    by_cases hpair : (isHigh b && isLow c) = true
    · have hle := length_encodeUnit_le b
      rw [encode_pair hpair]
      simp only [encode, encodePair, List.length_append, List.length_cons, List.length_nil]
      omega
    · have hpos := length_encodeUnit_pos c
      rw [encode_lone hpair]
      simp only [encode, List.length_append]
      omega
  | case3 b d t hpair ih =>
    rw [List.cons_append, List.cons_append, encode_pair hpair, encode_pair hpair, List.length_append, List.length_append]
    omega
  | case4 b d t hpair ih =>
    rw [List.cons_append] at ih
    rw [List.cons_append, List.cons_append, encode_lone hpair, encode_lone hpair, List.length_append, List.length_append]
    omega

theorem byteLength_prefix {x y : Text} (h : x <+: y) : byteLength x ≤ byteLength y := by
  obtain ⟨t, rfl⟩ := h
  induction t using List.reverseRecOn with
  | nil => rw [List.append_nil]
  | append_singleton t c ih =>
    rw [← List.append_assoc]
    exact ih.trans (byteLength_concat _ c).le

end Norns.Lib.Utf8
