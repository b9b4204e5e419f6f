import Mathlib.Data.List.Basic
import Mathlib.Tactic.Common

/-! # Percent encoding

`encodeURIComponent` on texts of Unicode scalar values: unreserved characters stay, the bytes of the others
are written in hexadecimal.

* `percentDecode_encode`: the bytes can be read back;
* `encodeURIComponent_injective`: hence different texts have different encodings;
* `joined_cancel`: encoded texts that are joined by a reserved character can be told apart. -/

namespace Norns.Lib

def hexDigit (n : ℕ) : Char := "0123456789ABCDEF".toList.getD n '0'

/-- The characters that `encodeURIComponent` keeps. -/
def isUnreserved (c : Char) : Bool :=
  ('A' ≤ c && c ≤ 'Z') || ('a' ≤ c && c ≤ 'z') || ('0' ≤ c && c ≤ '9') ||
    "-_.!~*'()".toList.contains c

def encodeURIComponent (s : String) : String :=
  .ofList (s.toList.flatMap fun c =>
    if isUnreserved c then [c]
    else (String.utf8EncodeChar c).flatMap fun b =>
      ['%', hexDigit (b.toNat / 16), hexDigit (b.toNat % 16)])

/-! ### Reading back -/

def percentValue (c : Char) : ℕ := if c.toNat < 58 then c.toNat - 48 else c.toNat - 55

/-- The bytes of an encoded text. -/
def percentDecode : List Char → List UInt8
  | [] => []
  | '%' :: a :: b :: r => UInt8.ofNat (16 * percentValue a + percentValue b) :: percentDecode r
  | c :: r => UInt8.ofNat c.toNat :: percentDecode r

theorem percentValue_hexDigit : ∀ n < 16, percentValue (hexDigit n) = n := by decide

theorem isUnreserved_lt {c : Char} (h : isUnreserved c = true) : c.toNat < 128 ∧ c ≠ '%' := by
  have hchar : ∀ d : Char, c ≤ d → c.toNat ≤ d.toNat := fun d hd => hd
  simp only [isUnreserved, Bool.or_eq_true, Bool.and_eq_true, decide_eq_true_eq,
    List.contains_iff_mem] at h
  refine ⟨?_, fun heq => by subst heq; revert h; decide⟩
  rcases h with ((⟨-, h⟩ | ⟨-, h⟩) | ⟨-, h⟩) | h
  · exact Nat.lt_of_le_of_lt (hchar _ h) (by decide)
  · exact Nat.lt_of_le_of_lt (hchar _ h) (by decide)
  · exact Nat.lt_of_le_of_lt (hchar _ h) (by decide)
  · simp at h
    rcases h with rfl | rfl | rfl | rfl | rfl | rfl | rfl | rfl | rfl <;> decide

theorem percentDecode_cons {c : Char} (h : c ≠ '%') (r : List Char) :
    percentDecode (c :: r) = UInt8.ofNat c.toNat :: percentDecode r := by
  rw [percentDecode]
  intro a b r hc _
  exact absurd hc h

theorem percentDecode_bytes (bytes : List UInt8) (r : List Char) :
    percentDecode ((bytes.flatMap fun b =>
      ['%', hexDigit (b.toNat / 16), hexDigit (b.toNat % 16)]) ++ r) = bytes ++ percentDecode r := by
  induction bytes with
  | nil => rfl
  | cons b bytes ih =>
    have hb : b.toNat < 256 := b.toNat_lt
    rw [List.flatMap_cons, List.append_assoc, List.cons_append, List.cons_append, List.cons_append,
      List.nil_append, percentDecode, ih, percentValue_hexDigit _ (by omega),
      percentValue_hexDigit _ (by omega), Nat.div_add_mod]
    simp

/-- The bytes of the text are the bytes of its encoding. -/
theorem percentDecode_encode (s : String) :
    percentDecode (encodeURIComponent s).toList = s.toList.flatMap String.utf8EncodeChar := by
  unfold encodeURIComponent
  rw [String.toList_ofList]
  induction s.toList with
  | nil => rfl
  | cons c cs ih =>
    rw [List.flatMap_cons, List.flatMap_cons, ← ih]
    by_cases hc : isUnreserved c = true
    · obtain ⟨hlt, hne⟩ := isUnreserved_lt hc
      have hbytes : String.utf8EncodeChar c = [UInt8.ofNat c.toNat] := by
        unfold String.utf8EncodeChar
        exact if_pos (show c.val.toNat ≤ 0x7f from Nat.le_of_lt_succ hlt)
      rw [if_pos hc, List.singleton_append, percentDecode_cons hne, hbytes, List.singleton_append]
    · rw [if_neg hc, percentDecode_bytes]

theorem encodeURIComponent_injective : Function.Injective encodeURIComponent := by
  intro s t h
  have hbytes : s.toList.flatMap String.utf8EncodeChar = t.toList.flatMap String.utf8EncodeChar := by
    rw [← percentDecode_encode, ← percentDecode_encode, h]
  have hencode : s.toList.utf8Encode = t.toList.utf8Encode := by
    unfold List.utf8Encode
    rw [hbytes]
  have hdecode := congrArg ByteArray.utf8Decode? hencode
  rw [List.utf8Decode?_utf8Encode, List.utf8Decode?_utf8Encode] at hdecode
  exact String.toList_injective (by simpa using hdecode)

/-! ### Joining -/

theorem hexDigit_ne_colon : ∀ n < 16, hexDigit n ≠ ':' := by decide

/-- A colon is never in an encoded text. -/
theorem colon_notMem_encode (s : String) : ':' ∉ (encodeURIComponent s).toList := by
  unfold encodeURIComponent
  rw [String.toList_ofList]
  intro h
  obtain ⟨c, -, hc⟩ := List.mem_flatMap.mp h
  split at hc
  case isTrue hunreserved =>
    rw [← List.mem_singleton.mp hc] at hunreserved
    revert hunreserved
    decide
  case isFalse =>
    obtain ⟨b, -, hb⟩ := List.mem_flatMap.mp hc
    have hlt : b.toNat < 256 := b.toNat_lt
    simp only [List.mem_cons, List.not_mem_nil, or_false] at hb
    rcases hb with hb | hb | hb
    · revert hb
      decide
    · exact hexDigit_ne_colon _ (by omega) hb.symm
    · exact hexDigit_ne_colon _ (by omega) hb.symm

/-- Texts that a separator ends can be told apart. -/
theorem cancel_before {α : Type} {a : α} {l l' r r' : List α} (hl : a ∉ l) (hl' : a ∉ l')
    (h : l ++ a :: r = l' ++ a :: r') : l = l' ∧ r = r' := by
  induction l generalizing l' with
  | nil =>
    cases l' with
    | nil => exact ⟨rfl, (List.cons.inj h).2⟩
    | cons b l' => exact absurd (List.mem_cons.mpr (.inl (List.cons.inj h).1)) hl'
  | cons b l ih =>
    cases l' with
    | nil => exact absurd (List.mem_cons.mpr (.inl (List.cons.inj h).1.symm)) hl
    | cons c l' =>
      obtain ⟨hbc, htail⟩ := List.cons.inj h
      obtain ⟨hll, hrr⟩ := ih (fun hm => hl (List.mem_cons_of_mem _ hm))
        (fun hm => hl' (List.mem_cons_of_mem _ hm)) htail
      exact ⟨by rw [hbc, hll], hrr⟩

theorem joined_cancel {s t s' t' : String}
    (h : encodeURIComponent s ++ ":" ++ encodeURIComponent t =
      encodeURIComponent s' ++ ":" ++ encodeURIComponent t') : s = s' ∧ t = t' := by
  have hlist := congrArg String.toList h
  simp only [String.toList_append, List.append_assoc,
    show ":".toList = [':'] from rfl, List.singleton_append] at hlist
  obtain ⟨hs, ht⟩ := cancel_before (colon_notMem_encode s) (colon_notMem_encode s') hlist
  exact ⟨encodeURIComponent_injective (String.toList_injective hs),
    encodeURIComponent_injective (String.toList_injective ht)⟩

end Norns.Lib
