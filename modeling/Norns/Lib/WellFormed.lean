import Norns.Lib.JsonPretty

/-! # Well-formed texts

No surrogate stands alone in a well-formed text. Its starts are well-formed too, unless they end inside a pair.

* `isWellFormed_append`: a text after a well-formed one;
* `isWellFormed_start`: the starts of a well-formed text;
* `blanks`, `isWellFormed_blanks`, `isWellFormed_trim`: white space is in no pair;
* `isJsonbText_iff`: what the database takes. -/

namespace Norns.Lib.WellFormed

open Norns.Lib.JsonText Norns.Lib.JsonPretty Norns.Lib.Utf8

variable {c d : CodeUnit} {x y : Text}

theorem isWellFormed_pair (h : (isHigh c && isLow d) = true) (t : Text) :
    isWellFormed (c :: d :: t) = isWellFormed t := by
  unfold isWellFormed
  rw [markLone_pair h]
  rfl

theorem isWellFormed_lone (h : ∀ d ∈ x.head?, (isHigh c && isLow d) = false) :
    isWellFormed (c :: x) = (!isSurrogate c && isWellFormed x) := by
  unfold isWellFormed
  rw [markLone_cons h]
  rfl

theorem isHigh_of_not_surrogate (h : isSurrogate c = false) : isHigh c = false := (Bool.or_eq_false_iff.mp h).1

theorem isLow_of_not_surrogate (h : isSurrogate c = false) : isLow c = false := (Bool.or_eq_false_iff.mp h).2

/-- A high surrogate is no low one. -/
theorem isHigh_of_isLow (h : isLow c = true) : isHigh c = false := by
  unfold isLow at h
  unfold isHigh
  simp only [Bool.and_eq_true, decide_eq_true_eq] at h
  simp only [Bool.and_eq_false_iff, decide_eq_false_iff_not]
  omega

theorem isWellFormed_cons (h : isSurrogate c = false) (t : Text) : isWellFormed (c :: t) = isWellFormed t := by
  rw [isWellFormed_lone fun d _ => by rw [isHigh_of_not_surrogate h, Bool.false_and], h]
  rfl

/-- The first unit of a well-formed text, where it begins no pair. -/
theorem isWellFormed_head (hx : isWellFormed (c :: x) = true) (h : ∀ d ∈ x.head?, (isHigh c && isLow d) = false) :
    isSurrogate c = false ∧ isWellFormed x = true := by
  rw [isWellFormed_lone h, Bool.and_eq_true, Bool.not_eq_true'] at hx
  exact hx

/-- **A text after a well-formed one.** -/
theorem isWellFormed_append (h : isWellFormed x = true) (y : Text) : isWellFormed (x ++ y) = isWellFormed y := by
  induction x using markLone.induct with
  | case1 => rfl
  | case2 c =>
    have hc := (isWellFormed_head h fun d hd => by cases hd).1
    rw [List.singleton_append, isWellFormed_cons hc]
  | case3 c d t hpair ih =>
    rw [isWellFormed_pair hpair] at h
    rw [List.cons_append, List.cons_append, isWellFormed_pair hpair, ih h]
  | case4 c d t hpair ih =>
    obtain ⟨hc, ht⟩ := isWellFormed_head h fun e he => by
      obtain rfl := Option.some.inj he
      simpa using hpair
    rw [List.cons_append, isWellFormed_cons hc, ih ht]

/-- **A start of a well-formed text** is well-formed, unless it ends inside a pair. -/
theorem isWellFormed_start (h : isWellFormed (x ++ y) = true) :
    isWellFormed x = true ↔ ∀ c ∈ x.getLast?, ∀ d ∈ y.head?, (isHigh c && isLow d) = false := by
  induction x using markLone.induct with
  | case1 => exact iff_of_true rfl fun c hc => by cases hc
  | case2 c =>
    constructor
    · intro hx e he d _
      obtain rfl : c = e := by simpa using he
      have hc := (isWellFormed_head hx fun d hd => by cases hd).1
      rw [isHigh_of_not_surrogate hc, Bool.false_and]
    · intro hcut
      have hc := (isWellFormed_head h (hcut c rfl)).1
      rw [isWellFormed_cons hc]
      rfl
  | case3 c d t hpair ih =>
    rw [List.cons_append, List.cons_append, isWellFormed_pair hpair] at h
    rw [isWellFormed_pair hpair, ih h]
    cases t with
    | nil =>
      refine iff_of_true (fun e he => by cases he) fun e he f _ => ?_
      obtain rfl : d = e := by simpa using he
      rw [isHigh_of_isLow (Bool.and_eq_true_iff.mp hpair).2, Bool.false_and]
    | cons e t => rw [List.getLast?_cons_cons, List.getLast?_cons_cons]
  | case4 c d t hpair ih =>
    have hhead : ∀ e ∈ (d :: t ++ y).head?, (isHigh c && isLow e) = false := by
      intro e he
      obtain rfl := Option.some.inj he
      simpa using hpair
    obtain ⟨hc, ht⟩ := isWellFormed_head h hhead
    rw [isWellFormed_cons hc, ih ht, List.getLast?_cons_cons]

/-- What follows is in no pair with it. -/
theorem isWellFormed_of_append (h : isWellFormed (x ++ y) = true) (hy : Apart y) : isWellFormed x = true :=
  (isWellFormed_start h).mpr fun c _ d hd => by rw [hy d hd, Bool.and_false]

theorem isWellFormed_concat (h : isSurrogate c = false) (x : Text) : isWellFormed (x ++ [c]) = isWellFormed x := by
  rw [Bool.eq_iff_iff]
  constructor
  · intro hx
    exact isWellFormed_of_append hx (apart_cons (isLow_of_not_surrogate h) [])
  · intro hx
    rw [isWellFormed_append hx, isWellFormed_cons h]
    rfl

theorem isWellFormed_of_forall (h : ∀ c ∈ x, isSurrogate c = false) : isWellFormed x = true := by
  induction x with
  | nil => rfl
  | cons c x ih =>
    rw [isWellFormed_cons (h c List.mem_cons_self)]
    exact ih fun d hd => h d (List.mem_cons_of_mem c hd)

/-! ### The code units of a string -/

theorem isWellFormed_charUnits (c : Char) : isWellFormed (charUnits c) = true := by
  have hvalid := c.valid
  unfold charUnits
  split
  case isTrue hsmall =>
    have hc : isSurrogate (unit c) = false := by
      have hval : (unit c).val = c.toNat := Nat.mod_eq_of_lt hsmall
      unfold isSurrogate isHigh isLow
      simp only [hval, Bool.or_eq_false_iff, Bool.and_eq_false_iff, decide_eq_false_iff_not]
      rcases hvalid with hlow | ⟨hlow, hhigh⟩
      · have hlow' : c.toNat < 0xd800 := hlow
        omega
      · have hlow' : 0xdfff < c.toNat := hlow
        omega
    rw [isWellFormed_cons hc]
    rfl
  case isFalse hlarge =>
    have hmax : c.toNat < 0x110000 := by
      rcases hvalid with hlow | ⟨-, hhigh⟩
      · have hlow' : c.toNat < 0xd800 := hlow
        omega
      · exact hhigh
    rw [isWellFormed_pair ?_]
    · rfl
    unfold isHigh isLow
    simp only [Fin.val_ofNat, Bool.and_eq_true, decide_eq_true_eq]
    omega

theorem isWellFormed_units (s : String) : isWellFormed (units s) = true := by
  unfold units
  induction s.toList with
  | nil => rfl
  | cons c cs ih => rw [List.flatMap_cons, isWellFormed_append (isWellFormed_charUnits c), ih]

/-! ### White space -/

theorem isSurrogate_of_isSpace (h : isSpace c = true) : isSurrogate c = false := by
  unfold isSpace at h
  unfold isSurrogate isHigh isLow
  simp only [List.mem_cons, List.not_mem_nil, or_false, Bool.or_eq_true, Bool.and_eq_true, decide_eq_true_eq] at h
  simp only [Bool.or_eq_false_iff, Bool.and_eq_false_iff, decide_eq_false_iff_not]
  omega

/-- `text.replace(/\s+/gu, " ")` -/
def blanks : Text → Text
  | [] => []
  | [c] => [if isSpace c then unit ' ' else c]
  | c :: d :: t =>
    if isSpace c && isSpace d then blanks (d :: t) else (if isSpace c then unit ' ' else c) :: blanks (d :: t)

theorem blanks_cons (h : isSpace c = false) (t : Text) : blanks (c :: t) = c :: blanks t := by
  cases t with
  | nil => simp [blanks, h]
  | cons d t => simp [blanks, h]

theorem isSpace_of_isSurrogate (h : isSurrogate c = true) : isSpace c = false := by
  by_contra hspace
  rw [isSurrogate_of_isSpace (by simpa using hspace)] at h
  cases h

theorem isWellFormed_blanks (h : isWellFormed x = true) : isWellFormed (blanks x) = true := by
  induction x using markLone.induct with
  | case1 => rfl
  | case2 c =>
    unfold blanks
    split
    · decide
    · exact h
  | case3 c d t hpair ih =>
    obtain ⟨hc, hd⟩ := Bool.and_eq_true_iff.mp hpair
    rw [isWellFormed_pair hpair] at h
    rw [blanks_cons (isSpace_of_isSurrogate (by unfold isSurrogate; rw [hc, Bool.true_or])),
      blanks_cons (isSpace_of_isSurrogate (by unfold isSurrogate; rw [hd, Bool.or_true])), isWellFormed_pair hpair]
    exact ih h
  | case4 c d t hpair ih =>
    obtain ⟨hc, ht⟩ := isWellFormed_head h fun e he => by
      obtain rfl := Option.some.inj he
      simpa using hpair
    rw [blanks]
    split
    · exact ih ht
    · rw [isWellFormed_cons, ih ht]
      split
      · decide
      · exact hc

theorem isWellFormed_trimStart (x : Text) : isWellFormed (trimStart x) = isWellFormed x := by
  unfold trimStart
  induction x with
  | nil => rfl
  | cons c x ih =>
    rw [List.dropWhile_cons]
    split
    case isTrue hspace => rw [ih, isWellFormed_cons (isSurrogate_of_isSpace hspace)]
    case isFalse => rfl

theorem isWellFormed_trim (h : isWellFormed x = true) : isWellFormed (trim x) = true := by
  rw [← isWellFormed_trimStart] at h
  unfold trim trimEnd
  generalize trimStart x = t at h ⊢
  have hsplit : (t.reverse.dropWhile isSpace).reverse ++ (t.reverse.takeWhile isSpace).reverse = t := by
    rw [← List.reverse_append, List.takeWhile_append_dropWhile, List.reverse_reverse]
  rw [← hsplit] at h
  refine isWellFormed_of_append h fun c hc => isLow_of_not_surrogate (isSurrogate_of_isSpace ?_)
  exact List.all_eq_true.mp List.all_takeWhile c (List.mem_reverse.mp (List.mem_of_mem_head? hc))

/-! ### What the database takes -/

theorem isJsonbText_iff : isJsonbText x = true ↔ isWellFormed x = true ∧ ∀ c ∈ x, 0 < c.val := by
  unfold isJsonbText
  rw [Bool.and_eq_true, List.all_eq_true]
  simp only [decide_eq_true_eq]

theorem units_pos {s : String} (h : '\x00' ∉ s.toList) : ∀ c ∈ units s, 0 < c.val := by
  intro u hu
  obtain ⟨c, hc, hmem⟩ := List.mem_flatMap.mp hu
  have hpos : 0 < c.toNat := by
    rcases Nat.eq_zero_or_pos c.toNat with hzero | hpos
    · have hnul : c = '\x00' := Char.toNat_inj.mp hzero
      exact absurd (hnul ▸ hc) h
    · exact hpos
  unfold charUnits at hmem
  split at hmem
  case isTrue hsmall =>
    rw [List.mem_singleton.mp hmem]
    exact hpos.trans_eq (Nat.mod_eq_of_lt hsmall).symm
  case isFalse hlarge =>
    have hmax : c.toNat < 0x110000 := by
      rcases c.valid with hlow | ⟨-, hhigh⟩
      · have hlow' : c.toNat < 0xd800 := hlow
        omega
      · exact hhigh
    simp only [List.mem_cons, List.not_mem_nil, or_false] at hmem
    rcases hmem with rfl | rfl
    · simp only [Fin.val_ofNat]
      omega
    · simp only [Fin.val_ofNat]
      omega

theorem isJsonbText_append (hx : isJsonbText x = true) (y : Text) : isJsonbText (x ++ y) = isJsonbText y := by
  obtain ⟨hwell, hpos⟩ := isJsonbText_iff.mp hx
  unfold isJsonbText
  rw [isWellFormed_append hwell, List.all_append, List.all_eq_true.mpr fun c hc => by simpa using hpos c hc,
    Bool.true_and]

theorem isJsonbText_units {s : String} (h : '\x00' ∉ s.toList) : isJsonbText (units s) = true :=
  isJsonbText_iff.mpr ⟨isWellFormed_units s, units_pos h⟩

theorem isJsonbText_printNat (n : ℕ) : isJsonbText (printNat n) = true := by
  have hdigits : ∀ c ∈ printNat n, 0 < c.val ∧ c.val < 58 := by
    intro c hc
    unfold printNat at hc
    split at hc
    · rw [List.mem_singleton.mp hc]
      decide
    · obtain ⟨d, -, rfl⟩ := List.mem_map.mp hc
      simp only [Fin.val_ofNat]
      omega
  refine isJsonbText_iff.mpr ⟨isWellFormed_of_forall fun c hc => ?_, fun c hc => (hdigits c hc).1⟩
  have hlt := (hdigits c hc).2
  unfold isSurrogate isHigh isLow
  simp only [Bool.or_eq_false_iff, Bool.and_eq_false_iff, decide_eq_false_iff_not]
  omega

theorem mem_blanks (h : c ∈ blanks x) : c ∈ x ∨ c = unit ' ' := by
  induction x using blanks.induct with
  | case1 => exact .inl h
  | case2 d =>
    rw [blanks, List.mem_singleton] at h
    split at h
    · exact .inr h
    · exact .inl (by rw [h]; exact List.mem_singleton_self d)
  | case3 d e t hboth ih =>
    rw [blanks, if_pos hboth] at h
    exact (ih h).imp_left (List.mem_cons_of_mem d)
  | case4 d e t hboth ih =>
    rw [blanks, if_neg hboth] at h
    rcases List.mem_cons.mp h with h | h
    · split at h
      · exact .inr h
      · exact .inl (by rw [h]; exact List.mem_cons_self)
    · exact (ih h).imp_left (List.mem_cons_of_mem d)

theorem mem_trim (h : c ∈ trim x) : c ∈ x := by
  unfold trim trimEnd trimStart at h
  rw [List.mem_reverse] at h
  have hmem := List.mem_reverse.mp ((List.dropWhile_sublist _).mem h)
  exact (List.dropWhile_sublist _).mem hmem

end Norns.Lib.WellFormed
