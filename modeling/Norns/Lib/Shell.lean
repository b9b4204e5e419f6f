import Norns.Lib.Utf8
import Mathlib.Data.List.Basic
import Mathlib.Algebra.Order.BigOperators.Group.List

/-! # The words of a command line

How a shell of the POSIX standard splits a line into words: quoted pieces are part of a word, white space outside quotes
ends it, and a number sign at the beginning of a word starts a comment. What needs more than splitting (operators,
expansions, patterns, the backslash) has no words here.

* `read`: splitting by characters that are refused in a state, without comments;
* `shellWords`: the words of the standard;
* `read_eq_none`, `count_read`: when splitting fails, and what it keeps;
* `lex_eq_read`, `count_lex`: comments. -/

namespace Norns.Lib.Shell

open Norns.Lib.JsonText Norns.Lib.Utf8

def isQuote (c : CodeUnit) : Bool := c = unit '"' || c = unit '\''

def isSeparator (c : CodeUnit) : Bool := c = unit ' ' || c = unit '\t' || c = unit '\n'

/-- What the shell treats apart outside quotes. -/
def isSpecial (c : CodeUnit) : Bool := (units "|&;<>()$`\\*?[~").contains c

/-- What it treats apart inside double quotes. -/
def isExpansion (c : CodeUnit) : Bool := (units "$`\\").contains c

/-- Between words, in a word, or between quotes in a word. -/
inductive State
  | between
  | word (w : Text)
  | quoted (q : CodeUnit) (w : Text)
  deriving DecidableEq

namespace State

/-- The quote that is open. -/
def quote : State → Option CodeUnit
  | .quoted q _ => some q
  | _ => none

/-- The word so far. -/
def text : State → Text
  | .between => []
  | .word w => w
  | .quoted _ w => w

/-- One character. -/
def step : State → CodeUnit → State
  | .between, c => if isQuote c then .quoted c [] else if isSeparator c then .between else .word [c]
  | .word w, c => if isQuote c then .quoted c w else if isSeparator c then .between else .word (w ++ [c])
  | .quoted q w, c => if c = q then .word w else .quoted q (w ++ [c])

/-- The word that ends with a character. -/
def emit : State → CodeUnit → List Text
  | .word w, c => if isSeparator c then [w] else []
  | _, _ => []

/-- The words at the end of the line. -/
def close : State → Option (List Text)
  | .between => some []
  | .word w => some [w]
  | .quoted _ _ => none

end State

/-- The state after some characters. -/
def after (s : State) (t : Text) : State := t.foldl State.step s

/-- The words, if no character is refused. -/
def read (refuse : State → CodeUnit → Bool) : State → Text → Option (List Text)
  | s, [] => s.close
  | s, c :: t => if refuse s c then none else (read refuse (s.step c) t).map (s.emit c ++ ·)

/-- What a shell cannot take as a part of a word. -/
def shellRefuses (s : State) (c : CodeUnit) : Bool :=
  match s.quote with
  | none => isSpecial c
  | some q => decide (q = unit '"') && decide (c ≠ q) && isExpansion c

/-- The words with comments. -/
def lex : Bool → State → Text → Option (List Text)
  | _, s, [] => s.close
  | true, s, c :: t => lex (c ≠ unit '\n') s t
  | false, s, c :: t =>
    if s = .between ∧ c = unit '#' then lex true s t
    else if shellRefuses s c then none
    else (lex false (s.step c) t).map (s.emit c ++ ·)

/-- The words of a command line. -/
def shellWords (line : Text) : Option (List Text) := lex false .between line

/-- The quote that is open after some characters. -/
def openQuote : Text → Option CodeUnit → Option CodeUnit
  | [], q => q
  | c :: t, none => openQuote t (if isQuote c then some c else none)
  | c :: t, some q => openQuote t (if c = q then none else some q)

/-- A comment starts: a number sign outside quotes, at the beginning or after a separator. -/
def StartsComment (t : Text) : Prop :=
  ∃ p r, t = p ++ unit '#' :: r ∧ openQuote p none = none ∧ ∀ c ∈ p.getLast?, isSeparator c = true

/-! ### One character -/

theorem not_quote_of_separator {c : CodeUnit} (h : isSeparator c = true) : isQuote c = false := by
  unfold isSeparator at h
  simp only [Bool.or_eq_true, decide_eq_true_eq] at h
  rcases h with (rfl | rfl) | rfl
  all_goals decide

theorem quote_step (s : State) (c : CodeUnit) : (s.step c).quote = openQuote [c] s.quote := by
  cases s with
  | between =>
    dsimp only [State.step]
    split_ifs with hquote hsep <;> simp [State.quote, openQuote, hquote]
  | word w =>
    dsimp only [State.step]
    split_ifs with hquote hsep <;> simp [State.quote, openQuote, hquote]
  | quoted q w =>
    dsimp only [State.step]
    split_ifs with hc <;> simp [State.quote, openQuote, hc]

theorem openQuote_cons (c : CodeUnit) (t : Text) (q : Option CodeUnit) :
    openQuote (c :: t) q = openQuote t (openQuote [c] q) := by
  cases q <;> rfl

/-- The quote that is open is told from the characters alone. -/
theorem quote_after (t : Text) : ∀ s : State, (after s t).quote = openQuote t s.quote := by
  induction t with
  | nil => intro s; rfl
  | cons c t ih =>
    intro s
    rw [openQuote_cons, ← quote_step]
    exact ih (s.step c)

/-- Only quotes are open. -/
theorem isQuote_of_openQuote {t : Text} : ∀ {q₀ : Option CodeUnit} {q : CodeUnit}, (∀ c ∈ q₀, isQuote c = true) →
    openQuote t q₀ = some q → isQuote q = true := by
  induction t with
  | nil =>
    intro q₀ q h₀ h
    exact h₀ q h
  | cons c t ih =>
    intro q₀ q h₀ h
    rcases q₀ with _ | q₀
    · refine ih ?_ h
      intro d hd
      split_ifs at hd with hc
      · obtain rfl := Option.some.inj hd
        exact hc
      · cases hd
    · refine ih ?_ h
      intro d hd
      split_ifs at hd with hc
      · cases hd
      · exact h₀ d hd

/-- The shell is between words at the beginning and after a separator outside quotes. -/
theorem step_eq_between {s : State} {c : CodeUnit} :
    s.step c = .between ↔ s.quote = none ∧ isSeparator c = true := by
  cases s with
  | between =>
    dsimp only [State.step]
    split_ifs with hquote hsep
    · have hnot : ¬ isSeparator c = true := fun h => by rw [not_quote_of_separator h] at hquote; cases hquote
      simp [State.quote, hnot]
    · simp [State.quote, hsep]
    · simp [State.quote, hsep]
  | word w =>
    dsimp only [State.step]
    split_ifs with hquote hsep
    · have hnot : ¬ isSeparator c = true := fun h => by rw [not_quote_of_separator h] at hquote; cases hquote
      simp [State.quote, hnot]
    · simp [State.quote, hsep]
    · simp [State.quote, hsep]
  | quoted q w =>
    dsimp only [State.step]
    split_ifs <;> simp [State.quote]

theorem after_eq_between (t : Text) :
    after .between t = .between ↔ openQuote t none = none ∧ ∀ c ∈ t.getLast?, isSeparator c = true := by
  rcases List.eq_nil_or_concat t with rfl | ⟨p, c, rfl⟩
  · simp [after, openQuote]
  · have hafter : after .between (p.concat c) = (after .between p).step c := by
      unfold after
      rw [List.concat_eq_append, List.foldl_append]
      rfl
    have hquote : openQuote (p.concat c) none = openQuote [c] (after .between p).quote := by
      rw [← quote_step, ← hafter, quote_after]
      rfl
    rw [hafter, step_eq_between, hquote]
    constructor
    · rintro ⟨hnone, hsep⟩
      rw [hnone]
      refine ⟨?_, by simp [hsep]⟩
      simp [openQuote, not_quote_of_separator hsep]
    · rintro ⟨hopen, hlast⟩
      have hsep : isSeparator c = true := by
        simpa using hlast c
      refine ⟨?_, hsep⟩
      rcases hq : (after .between p).quote with _ | q
      · rfl
      · have hquoted : isQuote q = true := by
          have hopen' : openQuote p none = some q := (quote_after p .between).symm.trans hq
          exact isQuote_of_openQuote (fun d hd => by cases hd) hopen'
        have hc : c = q := by
          by_contra hne
          rw [hq] at hopen
          simp [openQuote, hne] at hopen
        rw [← hc, not_quote_of_separator hsep] at hquoted
        cases hquoted

/-! ### Splitting -/

section

variable {refuse refuse' : State → CodeUnit → Bool}

/-- **Splitting fails** on a character that is refused, or on a quote that stays open. -/
theorem read_eq_none (t : Text) : ∀ s : State, read refuse s t = none ↔
    (after s t).quote ≠ none ∨ ∃ p c r, t = p ++ c :: r ∧ refuse (after s p) c = true := by
  induction t with
  | nil =>
    intro s
    have hnone : ¬ ∃ p c r, ([] : Text) = p ++ c :: r ∧ refuse (after s p) c = true := by
      rintro ⟨p, c, r, hsplit, -⟩
      simp at hsplit
    rw [or_iff_left hnone]
    cases s with
    | between => simp [read, State.close, after, State.quote]
    | word w => simp [read, State.close, after, State.quote]
    | quoted q w => simp [read, State.close, after, State.quote]
  | cons c t ih =>
    intro s
    rw [read]
    split_ifs with hrefuse
    · refine iff_of_true rfl (Or.inr ⟨[], c, t, rfl, hrefuse⟩)
    · rw [Option.map_eq_none_iff, ih]
      refine or_congr Iff.rfl ?_
      constructor
      · rintro ⟨p, d, r, rfl, hd⟩
        exact ⟨c :: p, d, r, rfl, hd⟩
      · rintro ⟨p, d, r, hsplit, hd⟩
        rcases p with _ | ⟨e, p⟩
        · obtain ⟨rfl, -⟩ := List.cons.inj hsplit
          exact absurd hd hrefuse
        · obtain ⟨rfl, rfl⟩ := List.cons.inj hsplit
          exact ⟨p, d, r, rfl, hd⟩

/-- Who refuses no more splits alike. -/
theorem read_mono {t : Text} : ∀ {s : State} {ws : List Text},
    (∀ p c r, t = p ++ c :: r → refuse' (after s p) c = true → refuse (after s p) c = true) →
      read refuse s t = some ws → read refuse' s t = some ws := by
  induction t with
  | nil => exact fun _ h => h
  | cons c t ih =>
    intro s ws hle h
    rw [read] at h ⊢
    split_ifs at h with hrefuse
    have hrefuse' : ¬ refuse' s c = true := fun h' => hrefuse (hle [] c t rfl h')
    obtain ⟨vs, hvs, rfl⟩ := Option.map_eq_some_iff.mp h
    have hrest : read refuse' (s.step c) t = some vs := by
      refine ih (fun p d r hsplit hd => ?_) hvs
      exact hle (c :: p) d r (by rw [hsplit]; rfl) hd
    rw [if_neg hrefuse', hrest]
    rfl

/-- The number of times a character is in some words. -/
def occurrences (x : CodeUnit) (ws : List Text) : ℕ := (ws.map (List.count x)).sum

theorem occurrences_append (x : CodeUnit) (vs ws : List Text) :
    occurrences x (vs ++ ws) = occurrences x vs + occurrences x ws := by
  unfold occurrences
  rw [List.map_append, List.sum_append]

/-- A character that is no quote and no separator is in the words as often as in the text. -/
theorem count_step {x : CodeUnit} (hquote : isQuote x = false) (hsep : isSeparator x = false) {s : State}
    (hs : ∀ q ∈ s.quote, isQuote q = true) (c : CodeUnit) :
    occurrences x (s.emit c) + (s.step c).text.count x = s.text.count x + [c].count x := by
  have hne : ∀ d : CodeUnit, isQuote d = true → [d].count x = 0 := by
    intro d hd
    refine List.count_eq_zero.mpr fun hmem => ?_
    rw [List.mem_singleton.mp hmem, hd] at hquote
    cases hquote
  have hne' : ∀ d : CodeUnit, isSeparator d = true → [d].count x = 0 := by
    intro d hd
    refine List.count_eq_zero.mpr fun hmem => ?_
    rw [List.mem_singleton.mp hmem, hd] at hsep
    cases hsep
  cases s with
  | between =>
    dsimp only [State.step, State.emit]
    split_ifs with h₁ h₂
    · simp [occurrences, State.text, hne c h₁]
    · simp [occurrences, State.text, hne' c h₂]
    · simp [occurrences, State.text]
  | word w =>
    dsimp only [State.step, State.emit]
    by_cases h₁ : isQuote c = true
    · have h₂ : ¬ isSeparator c = true := fun h => by rw [not_quote_of_separator h] at h₁; cases h₁
      rw [if_pos h₁, if_neg h₂]
      simp [occurrences, State.text, hne c h₁]
    · rw [if_neg h₁]
      split_ifs with h₂
      · simp [occurrences, State.text, hne' c h₂]
      · simp [occurrences, State.text, List.count_append]
  | quoted q w =>
    dsimp only [State.step, State.emit]
    split_ifs with h₁
    · have hq := hne c (h₁ ▸ hs q rfl)
      simp [occurrences, State.text, hq]
    · simp [occurrences, State.text, List.count_append]

theorem quote_step_isQuote {s : State} (hs : ∀ q ∈ s.quote, isQuote q = true) (c : CodeUnit) :
    ∀ q ∈ (s.step c).quote, isQuote q = true := by
  intro q hq
  rw [quote_step] at hq
  exact isQuote_of_openQuote hs hq

/-- **What splitting keeps.** -/
theorem count_read {x : CodeUnit} (hquote : isQuote x = false) (hsep : isSeparator x = false) {t : Text} :
    ∀ {s : State} {ws : List Text}, (∀ q ∈ s.quote, isQuote q = true) → read refuse s t = some ws →
      occurrences x ws = s.text.count x + t.count x := by
  induction t with
  | nil =>
    intro s ws _ h
    rw [read] at h
    cases s with
    | between =>
      obtain rfl := Option.some.inj h
      rfl
    | word w =>
      obtain rfl := Option.some.inj h
      simp [occurrences, State.text]
    | quoted q w => cases h
  | cons c t ih =>
    intro s ws hs h
    rw [read] at h
    split_ifs at h
    obtain ⟨vs, hvs, rfl⟩ := Option.map_eq_some_iff.mp h
    have hrest := ih (quote_step_isQuote hs c) hvs
    have hstep := count_step hquote hsep hs c
    have hcons : (c :: t).count x = [c].count x + t.count x := by
      rw [← List.count_append]
      rfl
    rw [occurrences_append, hcons]
    omega

end

/-! ### Separators at the ends -/

theorem not_refused_of_separator {c : CodeUnit} (h : isSeparator c = true) (s : State) : shellRefuses s c = false := by
  have hplain : isSpecial c = false ∧ isExpansion c = false := by
    unfold isSeparator at h
    simp only [Bool.or_eq_true, decide_eq_true_eq] at h
    rcases h with (rfl | rfl) | rfl
    all_goals exact ⟨by decide, by decide⟩
  unfold shellRefuses
  split
  · exact hplain.1
  · rw [hplain.2, Bool.and_false]

theorem read_separators_append {blanks : Text} (h : ∀ c ∈ blanks, isSeparator c = true) (t : Text) :
    read shellRefuses .between (blanks ++ t) = read shellRefuses .between t := by
  induction blanks with
  | nil => rfl
  | cons c blanks ih =>
    have hc := h c List.mem_cons_self
    have hstep : State.between.step c = .between := step_eq_between.mpr ⟨rfl, hc⟩
    have hrefuse : ¬ shellRefuses .between c = true := by
      rw [not_refused_of_separator hc]
      exact Bool.false_ne_true
    rw [List.cons_append, read, if_neg hrefuse, hstep, ih fun d hd => h d (List.mem_cons_of_mem c hd)]
    simp [State.emit]

theorem read_separators {blanks : Text} (h : ∀ c ∈ blanks, isSeparator c = true) : ∀ s : State,
    (∀ q ∈ s.quote, isQuote q = true) → read shellRefuses s blanks = s.close := by
  induction blanks with
  | nil => exact fun _ _ => rfl
  | cons c blanks ih =>
    intro s hs
    have hc := h c List.mem_cons_self
    have hquote := not_quote_of_separator hc
    have hrefuse : ¬ shellRefuses s c = true := by
      rw [not_refused_of_separator hc]
      exact Bool.false_ne_true
    rw [read, if_neg hrefuse, ih (fun d hd => h d (List.mem_cons_of_mem c hd)) _ (quote_step_isQuote hs c)]
    cases s with
    | between => simp [State.step, State.emit, State.close, hquote, hc]
    | word w => simp [State.step, State.emit, State.close, hquote, hc]
    | quoted q w =>
      dsimp only [State.step, State.emit]
      split_ifs with hq
      · have hq' := hs q rfl
        rw [← hq, hquote] at hq'
        cases hq'
      · rfl

theorem read_append_separators {blanks : Text} (h : ∀ c ∈ blanks, isSeparator c = true) (t : Text) : ∀ s : State,
    (∀ q ∈ s.quote, isQuote q = true) → read shellRefuses s (t ++ blanks) = read shellRefuses s t := by
  induction t with
  | nil => exact read_separators h
  | cons c t ih =>
    intro s hs
    rw [List.cons_append, read, read, ih _ (quote_step_isQuote hs c)]

/-! ### Comments -/

/-- Without a comment the words are those of the splitting. -/
theorem lex_eq_read {t : Text} : ∀ {s : State}, (∀ p r, t = p ++ unit '#' :: r → after s p ≠ .between) →
    lex false s t = read shellRefuses s t := by
  induction t with
  | nil => exact fun _ => rfl
  | cons c t ih =>
    intro s h
    have hcomment : ¬ (s = .between ∧ c = unit '#') := fun hc => h [] t (by rw [hc.2]; rfl) hc.1
    have hrest : lex false (s.step c) t = read shellRefuses (s.step c) t := by
      refine ih fun p r hsplit => ?_
      exact h (c :: p) r (by rw [hsplit]; rfl)
    rw [lex, read, if_neg hcomment, hrest]

/-- The words have no more number signs than the text. -/
theorem count_lex_le {t : Text} : ∀ {comment : Bool} {s : State} {ws : List Text}, (∀ q ∈ s.quote, isQuote q = true) →
    lex comment s t = some ws → occurrences (unit '#') ws ≤ s.text.count (unit '#') + t.count (unit '#') := by
  induction t with
  | nil =>
    intro comment s ws _ h
    cases s with
    | between =>
      obtain rfl : [] = ws := by simpa [lex, State.close] using h
      exact Nat.zero_le _
    | word w =>
      obtain rfl : [w] = ws := by simpa [lex, State.close] using h
      simp [occurrences, State.text]
    | quoted q w => simp [lex, State.close] at h
  | cons c t ih =>
    intro comment s ws hs h
    have hcons : (c :: t).count (unit '#') = [c].count (unit '#') + t.count (unit '#') := by
      rw [← List.count_append]
      rfl
    rcases comment with _ | _
    · rw [lex] at h
      split_ifs at h with hcomment hrefuse
      · have hrest := ih hs h
        omega
      · obtain ⟨vs, hvs, rfl⟩ := Option.map_eq_some_iff.mp h
        have hrest := ih (quote_step_isQuote hs c) hvs
        have hstep := count_step (x := unit '#') (by decide) (by decide) hs c
        rw [occurrences_append]
        omega
    · rw [lex] at h
      have hrest := ih hs h
      omega

/-- A comment takes its number sign away. -/
theorem count_lex_lt {p r : Text} : ∀ {s : State} {ws : List Text}, (∀ q ∈ s.quote, isQuote q = true) →
    after s p = .between → lex false s (p ++ unit '#' :: r) = some ws →
      occurrences (unit '#') ws < s.text.count (unit '#') + (p ++ unit '#' :: r).count (unit '#') := by
  induction p with
  | nil =>
    intro s ws hs hafter h
    have hbetween : s = .between := hafter
    rw [List.nil_append, lex, if_pos ⟨hbetween, rfl⟩] at h
    have hrest := count_lex_le hs h
    rw [List.nil_append, List.count_cons_self]
    omega
  | cons c p ih =>
    intro s ws hs hafter h
    have hcons : (c :: p ++ unit '#' :: r).count (unit '#') =
        [c].count (unit '#') + (p ++ unit '#' :: r).count (unit '#') := by
      rw [← List.count_append]
      rfl
    rw [List.cons_append, lex] at h
    split_ifs at h with hcomment hrefuse
    · have hrest := count_lex_le hs h
      have hsign : [c].count (unit '#') = 1 := by rw [hcomment.2]; simp
      omega
    · obtain ⟨vs, hvs, rfl⟩ := Option.map_eq_some_iff.mp h
      have hrest := ih (quote_step_isQuote hs c) hafter hvs
      have hstep := count_step (x := unit '#') (by decide) (by decide) hs c
      rw [occurrences_append, hcons]
      omega

/-- **The words of a line** whose inner part is split into some words: they are those words exactly when there are only
separators around it, and no comment. -/
theorem shellWords_iff {before inner blanks : Text} {words : List Text}
    (hinner : read shellRefuses .between inner = some words)
    (hends : ∀ c ∈ before ++ blanks, isQuote c = false ∧ c ≠ unit '#') :
    shellWords (before ++ inner ++ blanks) = some words ↔
      (∀ c ∈ before ++ blanks, isSeparator c = true) ∧ ¬ StartsComment (before ++ inner ++ blanks) := by
  have hnone : ∀ q ∈ State.between.quote, isQuote q = true := fun q hq => by cases hq
  have hcount : ∀ x, (before ++ inner ++ blanks).count x = (before ++ blanks).count x + inner.count x := by
    intro x
    simp only [List.count_append]
    omega
  constructor
  · intro h
    have hcomment : ¬ StartsComment (before ++ inner ++ blanks) := by
      rintro ⟨p, r, hsplit, hstart⟩
      unfold shellWords at h
      rw [hsplit] at h
      have hlt := count_lex_lt hnone ((after_eq_between p).mpr hstart) h
      have hwords := count_read (x := unit '#') (by decide) (by decide) hnone hinner
      have hzero : (before ++ blanks).count (unit '#') = 0 :=
        List.count_eq_zero.mpr fun hmem => (hends _ hmem).2 rfl
      rw [← hsplit, hcount, hzero] at hlt
      omega
    refine ⟨fun c hc => ?_, hcomment⟩
    by_contra hsep
    have hline : read shellRefuses .between (before ++ inner ++ blanks) = some words := by
      rw [← h]
      refine (lex_eq_read fun p r hsplit hafter => ?_).symm
      exact hcomment ⟨p, r, hsplit, (after_eq_between p).mp hafter⟩
    have hsep := Bool.eq_false_iff.mpr hsep
    have hwords := count_read (hends c hc).1 hsep hnone hinner
    have hwords' := count_read (hends c hc).1 hsep hnone hline
    have hpos := List.count_pos_iff.mpr hc
    rw [hcount] at hwords'
    omega
  · rintro ⟨hsep, hcomment⟩
    have hbefore : ∀ c ∈ before, isSeparator c = true := fun c hc => hsep c (List.mem_append_left _ hc)
    have hblanks : ∀ c ∈ blanks, isSeparator c = true := fun c hc => hsep c (List.mem_append_right _ hc)
    unfold shellWords
    rw [lex_eq_read, List.append_assoc, read_separators_append hbefore,
      read_append_separators hblanks inner _ hnone, hinner]
    intro p r hsplit hafter
    exact hcomment ⟨p, r, hsplit, (after_eq_between p).mp hafter⟩

end Norns.Lib.Shell
