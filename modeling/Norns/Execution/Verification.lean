import Norns.Lib.Shell
import Mathlib.Data.List.TakeWhile

/-! # Verification commands

`tokenizeVerificationCommand` of `verificationPolicy.ts`: an approved command is split into words without a shell, and is
rejected where a shell would do more than split.

* `tokenize_eq`: the loop is a splitting by the characters it refuses;
* `tokenize_quoted`: what is quoted comes back;
* `tokenize_eq_none`: when a command is rejected;
* `meets_iff`: when the words are those of a shell. -/

namespace Norns.Execution.Verification

open Norns.Lib Norns.Lib.JsonText Norns.Lib.Utf8 Norns.Lib.Shell

/-- The characters that the pattern of the source lists. -/
def SHELL_METACHARACTERS : Text := units "|&;<>()$`\\\"'*?[]\x7b\x7d~\n\r"

def isBlank (c : CodeUnit) : Bool := c = unit ' ' || c = unit '\t'

/-- The variables of the loop. -/
structure Scan where
  tokens : List Text
  current : Text
  quote : Option CodeUnit
  started : Bool

/-- One character. The loop goes over code points: the two halves of a pair are added one after the other. -/
def scanCharacter (s : Scan) (character : CodeUnit) : Option Scan :=
  match s.quote with
  | some quote =>
    if character = quote then some { s with quote := none }
    else some { s with current := s.current ++ [character] }
  | none =>
    if isQuote character then some { s with quote := some character, started := true }
    else if isBlank character then
      if s.started then some { s with tokens := s.tokens ++ [s.current], current := [], started := false } else some s
    else if SHELL_METACHARACTERS.contains character then none
    else some { s with current := s.current ++ [character], started := true }

def scan : Scan → Text → Option Scan
  | s, [] => some s
  | s, c :: t => (scanCharacter s c).bind fun s => scan s t

/-- After the loop. -/
def finish (s : Scan) : Option (List Text) :=
  match s.quote with
  | some _ => none
  | none => some (if s.started then s.tokens ++ [s.current] else s.tokens)

def tokenizeVerificationCommand (value : Text) : Option (List Text) :=
  if trim value = [] then none
  else
    match (scan ⟨[], [], none, false⟩ (trim value)).bind finish with
    | some (file :: args) => if file = [] then none else some (file :: args)
    | _ => none

/-! ### The loop as a splitting -/

/-- A character that is refused outside quotes. -/
def isMetacharacter (c : CodeUnit) : Bool := SHELL_METACHARACTERS.contains c && !isQuote c

def refuses (s : State) (c : CodeUnit) : Bool := s.quote.isNone && isMetacharacter c

namespace Scan

def state (s : Scan) : State :=
  match s.quote with
  | some q => .quoted q s.current
  | none => if s.started then .word s.current else .between

/-- Nothing is kept of a word that has not started. -/
structure Sound (s : Scan) : Prop where
  started : s.quote ≠ none → s.started = true
  current : s.started = false → s.current = []

end Scan

theorem isSeparator_eq (c : CodeUnit) : isSeparator c = (isBlank c || decide (c = unit '\n')) := rfl

theorem isMetacharacter_newline : isMetacharacter (unit '\n') = true := by decide

theorem isMetacharacter_of_blank {c : CodeUnit} (h : isBlank c = true) : isMetacharacter c = false := by
  unfold isBlank at h
  simp only [Bool.or_eq_true, decide_eq_true_eq] at h
  rcases h with rfl | rfl
  all_goals decide

theorem not_quote_of_blank {c : CodeUnit} (h : isBlank c = true) : isQuote c = false :=
  not_quote_of_separator (by rw [isSeparator_eq, h, Bool.true_or])

/-- A character that is not refused is no line end. -/
theorem isSeparator_of_not_meta {c : CodeUnit} (h : isMetacharacter c = false) : isSeparator c = isBlank c := by
  rw [isSeparator_eq]
  by_cases hc : c = unit '\n'
  · rw [hc, isMetacharacter_newline] at h
    cases h
  · simp [hc]

/-- One character of the loop is one of the splitting. -/
theorem scanCharacter_spec {s : Scan} (hs : s.Sound) (c : CodeUnit) :
    (refuses s.state c = true ∧ scanCharacter s c = none) ∨
      refuses s.state c = false ∧ ∃ s', scanCharacter s c = some s' ∧ s'.Sound ∧ s'.state = s.state.step c ∧
        s'.tokens = s.tokens ++ s.state.emit c := by
  obtain ⟨tokens, current, quote, started⟩ := s
  rcases quote with _ | q
  · have hnone : (Scan.state ⟨tokens, current, none, started⟩).quote = none := by
      cases started <;> rfl
    have hrefuse : refuses (Scan.state ⟨tokens, current, none, started⟩) c = isMetacharacter c := by
      unfold refuses
      rw [hnone]
      rfl
    rw [hrefuse]
    by_cases hquote : isQuote c = true
    · refine Or.inr ⟨by simp [isMetacharacter, hquote], ⟨tokens, current, some c, true⟩, ?_, ?_, ?_, ?_⟩
      · simp [scanCharacter, hquote]
      · exact ⟨fun _ => rfl, fun h => by cases h⟩
      · cases started with
        | true => simp [Scan.state, State.step, hquote]
        | false =>
          have hcurrent : current = [] := hs.current rfl
          simp [Scan.state, State.step, hquote, hcurrent]
      · have hsep : isSeparator c = false := by
          by_contra h
          rw [not_quote_of_separator (by simpa using h)] at hquote
          cases hquote
        cases started <;> simp [Scan.state, State.emit, hsep]
    · have hquote' : isQuote c = false := by simpa using hquote
      by_cases hblank : isBlank c = true
      · have hsep : isSeparator c = true := by rw [isSeparator_eq, hblank, Bool.true_or]
        refine Or.inr ⟨isMetacharacter_of_blank hblank, ?_⟩
        cases started with
        | true =>
          refine ⟨⟨tokens ++ [current], [], none, false⟩, ?_, ⟨fun h => absurd rfl h, fun _ => rfl⟩, ?_, ?_⟩
          · simp [scanCharacter, hquote', hblank]
          · simp [Scan.state, State.step, hquote', hsep]
          · simp [Scan.state, State.emit, hsep]
        | false =>
          refine ⟨⟨tokens, current, none, false⟩, ?_, hs, ?_, ?_⟩
          · simp [scanCharacter, hquote', hblank]
          · simp [Scan.state, State.step, hquote', hsep]
          · simp [Scan.state, State.emit]
      · have hblank' : isBlank c = false := by simpa using hblank
        by_cases hmeta : SHELL_METACHARACTERS.contains c = true
        · refine Or.inl ⟨?_, ?_⟩
          · rw [isMetacharacter, hmeta, hquote']
            rfl
          · simp only [scanCharacter, hquote', hblank', hmeta, if_true, if_false, Bool.false_eq_true]
        · have hmeta' : SHELL_METACHARACTERS.contains c = false := by simpa using hmeta
          have hmeta'' : isMetacharacter c = false := by
            rw [isMetacharacter, hmeta']
            rfl
          have hsep : isSeparator c = false := by rw [isSeparator_of_not_meta hmeta'', hblank']
          refine Or.inr ⟨hmeta'', ⟨tokens, current ++ [c], none, true⟩, ?_, ?_, ?_, ?_⟩
          · simp only [scanCharacter, hquote', hblank', hmeta', if_false, Bool.false_eq_true]
          · exact ⟨fun _ => rfl, fun h => by cases h⟩
          · cases started with
            | true => simp [Scan.state, State.step, hquote', hsep]
            | false =>
              have hcurrent : current = [] := hs.current rfl
              simp [Scan.state, State.step, hquote', hsep, hcurrent]
          · cases started <;> simp [Scan.state, State.emit, hsep]
  · refine Or.inr ⟨rfl, ?_⟩
    have hstarted : started = true := hs.started (by simp)
    by_cases hc : c = q
    · refine ⟨⟨tokens, current, none, started⟩, ?_, ⟨fun h => absurd rfl h, fun h => ?_⟩, ?_, ?_⟩
      · simp [scanCharacter, hc]
      · rw [hstarted] at h
        cases h
      · simp [Scan.state, State.step, hc, hstarted]
      · simp [Scan.state, State.emit]
    · refine ⟨⟨tokens, current ++ [c], some q, started⟩, ?_, ⟨fun _ => hstarted, fun h => ?_⟩, ?_, ?_⟩
      · simp [scanCharacter, hc]
      · rw [hstarted] at h
        cases h
      · simp [Scan.state, State.step, hc]
      · simp [Scan.state, State.emit]

theorem finish_eq (s : Scan) : finish s = s.state.close.map (s.tokens ++ ·) := by
  obtain ⟨tokens, current, quote, started⟩ := s
  rcases quote with _ | q
  · cases started <;> simp [finish, Scan.state, State.close]
  · rfl

/-- **The loop is a splitting.** -/
theorem scan_eq (t : Text) : ∀ {s : Scan}, s.Sound →
    (scan s t).bind finish = (read refuses s.state t).map (s.tokens ++ ·) := by
  induction t with
  | nil =>
    intro s _
    exact finish_eq s
  | cons c t ih =>
    intro s hs
    rw [scan, Shell.read]
    rcases scanCharacter_spec hs c with ⟨hrefuse, hscan⟩ | ⟨hrefuse, s', hscan, hs', hstate, htokens⟩
    · rw [hscan, hrefuse, if_pos rfl]
      rfl
    · rw [hscan, hrefuse, if_neg Bool.false_ne_true]
      show (scan s' t).bind finish = _
      rw [ih hs', hstate, htokens, Option.map_map]
      congr 1
      funext ws
      exact List.append_assoc ..

/-- The words without the checks of the ends. -/
def words (value : Text) : Option (List Text) := read refuses .between (trim value)

theorem tokenize_eq (value : Text) : tokenizeVerificationCommand value =
    if trim value = [] then none
    else match words value with
      | some (file :: args) => if file = [] then none else some (file :: args)
      | _ => none := by
  have hloop : (scan ⟨[], [], none, false⟩ (trim value)).bind finish = words value := by
    rw [scan_eq (trim value) ⟨fun h => absurd rfl h, fun _ => rfl⟩]
    exact Option.map_id'
  unfold tokenizeVerificationCommand
  rw [hloop]

/-- What is accepted are the words of the splitting, the first of which is not empty. -/
theorem tokenize_eq_some {value : Text} {ws : List Text} : tokenizeVerificationCommand value = some ws ↔
    trim value ≠ [] ∧ words value = some ws ∧ ∃ file args, ws = file :: args ∧ file ≠ [] := by
  rw [tokenize_eq]
  split_ifs with htrim
  · simp [htrim]
  · constructor
    · intro h
      split at h
      case h_1 file args hwords =>
        split_ifs at h with hfile
        obtain rfl := Option.some.inj h
        exact ⟨htrim, hwords, file, args, rfl, hfile⟩
      case h_2 => cases h
    · rintro ⟨-, hwords, file, args, rfl, hfile⟩
      rw [hwords]
      exact if_neg hfile

/-! ### Quoting -/

/-- Some arguments, each between quotes that it does not have, with blanks between them. -/
inductive Quoted : List Text → Text → Prop
  | one {q : CodeUnit} {a : Text} (quote : isQuote q = true) (free : q ∉ a) : Quoted [a] (q :: a ++ [q])
  | cons {q : CodeUnit} {a blanks t : Text} {as : List Text} (quote : isQuote q = true) (free : q ∉ a)
      (apart : blanks ≠ []) (blank : ∀ c ∈ blanks, isBlank c = true) (rest : Quoted as t) :
      Quoted (a :: as) (q :: a ++ [q] ++ blanks ++ t)

theorem read_quoted {q : CodeUnit} {a : Text} (hfree : q ∉ a) (w t : Text) :
    Shell.read refuses (.quoted q w) (a ++ q :: t) = Shell.read refuses (.word (w ++ a)) t := by
  induction a generalizing w with
  | nil =>
    rw [List.nil_append, Shell.read, List.append_nil]
    simp [refuses, State.quote, State.step, State.emit]
  | cons c a ih =>
    have hc : q ≠ c := List.ne_of_not_mem_cons hfree
    have ha : q ∉ a := List.not_mem_of_not_mem_cons hfree
    rw [List.cons_append, Shell.read]
    simp only [refuses, State.quote, Option.isNone_some, Bool.false_and, Bool.false_eq_true, if_false, State.step,
      if_neg (Ne.symm hc), State.emit, List.nil_append, Option.map_id']
    rw [ih ha, List.append_assoc]
    rfl

theorem not_refuses_blank {c : CodeUnit} (h : isBlank c = true) (s : State) : ¬ refuses s c = true := by
  simp [refuses, isMetacharacter_of_blank h]

theorem isSeparator_of_blank {c : CodeUnit} (h : isBlank c = true) : isSeparator c = true := by
  rw [isSeparator_eq, h, Bool.true_or]

theorem read_blanks {blanks : Text} (h : ∀ c ∈ blanks, isBlank c = true) (t : Text) :
    Shell.read refuses .between (blanks ++ t) = Shell.read refuses .between t := by
  induction blanks with
  | nil => rfl
  | cons c blanks ih =>
    have hc := h c List.mem_cons_self
    have hsep := isSeparator_of_blank hc
    rw [List.cons_append, Shell.read, if_neg (not_refuses_blank hc _)]
    simp only [State.step, not_quote_of_blank hc, hsep, if_true, Bool.false_eq_true, if_false, State.emit,
      List.nil_append, Option.map_id']
    exact ih fun d hd => h d (List.mem_cons_of_mem c hd)

/-- A word ends at blanks. -/
theorem read_word_blanks {blanks : Text} (hne : blanks ≠ []) (h : ∀ c ∈ blanks, isBlank c = true) (w t : Text) :
    Shell.read refuses (.word w) (blanks ++ t) = (Shell.read refuses .between t).map (w :: ·) := by
  obtain ⟨c, blanks, rfl⟩ := List.exists_cons_of_ne_nil hne
  have hc := h c List.mem_cons_self
  have hsep := isSeparator_of_blank hc
  rw [List.cons_append, Shell.read, if_neg (not_refuses_blank hc _)]
  simp only [State.step, not_quote_of_blank hc, hsep, if_true, Bool.false_eq_true, if_false, State.emit]
  rw [read_blanks fun d hd => h d (List.mem_cons_of_mem c hd)]
  rfl

theorem read_open {q : CodeUnit} (h : isQuote q = true) (t : Text) :
    Shell.read refuses .between (q :: t) = Shell.read refuses (.quoted q []) t := by
  have hrefuse : refuses .between q = false := by simp [refuses, isMetacharacter, h]
  rw [Shell.read, hrefuse]
  simp [State.step, State.emit, h]

/-- **What is quoted comes back** from the splitting. -/
theorem read_of_quoted {as : List Text} {t : Text} (h : Quoted as t) : Shell.read refuses .between t = some as := by
  induction h with
  | @one q a quote free =>
    rw [List.cons_append, read_open quote, read_quoted free]
    rfl
  | @cons q a blanks t as quote free apart blank rest ih =>
    have hsplit : q :: a ++ [q] ++ blanks ++ t = q :: (a ++ q :: (blanks ++ t)) := by simp
    rw [hsplit, read_open quote, read_quoted free, read_word_blanks apart blank, ih]
    rfl

theorem not_space_of_quote {c : CodeUnit} (h : isQuote c = true) : isSpace c = false := by
  unfold isQuote at h
  simp only [Bool.or_eq_true, decide_eq_true_eq] at h
  rcases h with rfl | rfl
  all_goals decide

/-- What is quoted begins and ends with a quote. -/
theorem Quoted.ends {as : List Text} {t : Text} (h : Quoted as t) :
    (∃ q r, t = q :: r ∧ isQuote q = true) ∧ ∃ q r, t = r ++ [q] ∧ isQuote q = true := by
  induction h with
  | @one q a quote free => exact ⟨⟨q, a ++ [q], rfl, quote⟩, q, q :: a, rfl, quote⟩
  | @cons q a blanks t as quote free apart blank rest ih =>
    obtain ⟨-, q', r, ht, hq'⟩ := ih
    refine ⟨⟨q, a ++ [q] ++ blanks ++ t, rfl, quote⟩, q', q :: a ++ [q] ++ blanks ++ r, ?_, hq'⟩
    rw [ht, ← List.append_assoc]

/-- A text without white space at its ends is not changed by trimming. -/
theorem trim_eq_self {t : Text} (hfirst : ∃ c r, t = c :: r ∧ isSpace c = false)
    (hlast : ∃ c r, t = r ++ [c] ∧ isSpace c = false) : trim t = t := by
  have hstart : trimStart t = t := by
    obtain ⟨c, r, rfl, hc⟩ := hfirst
    exact List.dropWhile_cons_of_neg (by simp [hc])
  obtain ⟨c, r, rfl, hc⟩ := hlast
  unfold trim trimEnd
  rw [hstart, List.reverse_append, List.reverse_singleton, List.singleton_append,
    List.dropWhile_cons_of_neg (by simp [hc]), List.reverse_cons, List.reverse_reverse]

theorem trim_of_quoted {as : List Text} {t : Text} (h : Quoted as t) : trim t = t := by
  obtain ⟨⟨q, r, hfirst, hq⟩, q', r', hlast, hq'⟩ := h.ends
  exact trim_eq_self ⟨q, r, hfirst, not_space_of_quote hq⟩ ⟨q', r', hlast, not_space_of_quote hq'⟩

/-- **What is quoted comes back**, if its first argument is not empty. -/
theorem tokenize_quoted {as : List Text} {t : Text} (h : Quoted as t) (hfirst : as.head? ≠ some []) :
    tokenizeVerificationCommand t = some as := by
  refine tokenize_eq_some.mpr ⟨?_, ?_, ?_⟩
  · obtain ⟨⟨q, r, rfl, -⟩, -⟩ := h.ends
    rw [trim_of_quoted h]
    exact List.cons_ne_nil q r
  · unfold words
    rw [trim_of_quoted h, read_of_quoted h]
  · cases h with
    | one quote free => exact ⟨_, [], rfl, fun he => hfirst (by rw [he]; rfl)⟩
    | cons quote free apart blank rest => exact ⟨_, _, rfl, fun he => hfirst (by rw [he]; rfl)⟩

/-! ### Rejection -/

/-- The first word is made of empty quotes only. -/
inductive EmptyWord : Text → Prop
  | last {q : CodeUnit} {r : Text} (quote : isQuote q = true) (ends : ∀ c ∈ r.head?, isBlank c = true) :
      EmptyWord (q :: q :: r)
  | next {q : CodeUnit} {t : Text} (quote : isQuote q = true) (rest : EmptyWord t) : EmptyWord (q :: q :: t)

/-- The reasons to reject a command that has been trimmed. -/
inductive Rejected (t : Text) : Prop
  | blank (empty : t = [])
  | unterminated (quote : openQuote t none ≠ none)
  | metacharacter (p r : Text) (c : CodeUnit) (split : t = p ++ c :: r) (plain : openQuote p none = none)
      (special : isMetacharacter c = true)
  | nameless (word : EmptyWord t)

theorem read_refuses_eq_none (t : Text) : Shell.read refuses .between t = none ↔
    openQuote t none ≠ none ∨ ∃ p c r, t = p ++ c :: r ∧ openQuote p none = none ∧ isMetacharacter c = true := by
  rw [read_eq_none, quote_after]
  refine or_congr Iff.rfl ?_
  simp only [refuses, quote_after, Bool.and_eq_true, Option.isNone_iff_eq_none]
  rfl

/-- A word that is begun goes on. -/
theorem read_begun (t : Text) : ∀ {s : State} {ws : List Text}, s ≠ .between → Shell.read refuses s t = some ws →
    ∃ v vs, ws = (s.text ++ v) :: vs := by
  induction t with
  | nil =>
    intro s ws hs h
    cases s with
    | between => exact absurd rfl hs
    | word w =>
      obtain rfl := Option.some.inj h
      exact ⟨[], [], by simp [State.text]⟩
    | quoted q w => cases h
  | cons c t ih =>
    intro s ws hs h
    rw [Shell.read] at h
    split_ifs at h
    obtain ⟨vs, hvs, rfl⟩ := Option.map_eq_some_iff.mp h
    cases s with
    | between => exact absurd rfl hs
    | word w =>
      by_cases hsep : isSeparator c = true
      · exact ⟨[], vs, by simp [State.emit, hsep, State.text]⟩
      · dsimp only [State.step] at hvs
        split_ifs at hvs with hquote
        · obtain ⟨v, vs', rfl⟩ := ih (by simp) hvs
          exact ⟨v, vs', by simp [State.emit, hsep, State.text]⟩
        · obtain ⟨v, vs', rfl⟩ := ih (by simp) hvs
          exact ⟨c :: v, vs', by simp [State.emit, hsep, State.text]⟩
    | quoted q w =>
      dsimp only [State.step] at hvs
      split_ifs at hvs with hc
      · obtain ⟨v, vs', rfl⟩ := ih (by simp) hvs
        exact ⟨v, vs', by simp [State.emit, State.text]⟩
      · obtain ⟨v, vs', rfl⟩ := ih (by simp) hvs
        exact ⟨c :: v, vs', by simp [State.emit, State.text]⟩

theorem not_blank_of_quote {c : CodeUnit} (h : isQuote c = true) : ¬ isBlank c = true := by
  intro hblank
  rw [not_quote_of_blank hblank] at h
  cases h

/-- **The first word is empty** when the quotes are, up to a blank. -/
theorem head_read_begun (n : ℕ) : ∀ {t : Text} {ws : List Text}, t.length ≤ n →
    Shell.read refuses (.word []) t = some ws →
      (ws.head? = some [] ↔ (∀ c ∈ t.head?, isBlank c = true) ∨ EmptyWord t) := by
  induction n with
  | zero =>
    intro t ws hlen h
    obtain rfl := List.length_eq_zero_iff.mp (Nat.le_zero.mp hlen)
    obtain rfl := Option.some.inj h
    simp
  | succ n ih =>
    intro t ws hlen h
    rcases t with _ | ⟨c, t⟩
    · obtain rfl := Option.some.inj h
      simp
    rw [Shell.read] at h
    split_ifs at h with hrefuse
    obtain ⟨vs, hvs, rfl⟩ := Option.map_eq_some_iff.mp h
    by_cases hquote : isQuote c = true
    · have hsep : isSeparator c = false := by
        by_contra hsep
        rw [not_quote_of_separator (by simpa using hsep)] at hquote
        cases hquote
      have hblank : ¬ ∀ d ∈ (c :: t).head?, isBlank d = true := fun hall => not_blank_of_quote hquote (hall c rfl)
      have hstep : (State.word []).step c = .quoted c [] := by simp [State.step, hquote]
      have hemit : (State.word []).emit c = [] := by simp [State.emit, hsep]
      rw [hstep] at hvs
      rw [hemit, List.nil_append, or_iff_right hblank]
      rcases t with _ | ⟨d, t⟩
      · cases hvs
      · rw [Shell.read, if_neg (by simp [refuses, State.quote])] at hvs
        obtain ⟨us, hus, rfl⟩ := Option.map_eq_some_iff.mp hvs
        by_cases hd : d = c
        · subst hd
          have hstep' : (State.quoted d []).step d = .word [] := by simp [State.step]
          rw [hstep'] at hus
          have hlen' : t.length ≤ n := by simp only [List.length_cons] at hlen; omega
          show us.head? = some [] ↔ _
          rw [ih hlen' hus]
          constructor
          · rintro (hends | hrest)
            · exact .last hquote hends
            · exact .next hquote hrest
          · intro hword
            cases hword with
            | last _ ends => exact Or.inl ends
            | next _ rest => exact Or.inr rest
        · have hstep' : (State.quoted c []).step d = .quoted c [d] := by simp [State.step, hd]
          rw [hstep'] at hus
          obtain ⟨v, vs, rfl⟩ := read_begun t (by simp) hus
          refine iff_of_false (by simp [State.emit, State.text]) fun hword => ?_
          cases hword with
          | last _ _ => exact hd rfl
          | next _ _ => exact hd rfl
    · have hmeta : isMetacharacter c = false := by simpa [refuses, State.quote] using hrefuse
      have hsep := isSeparator_of_not_meta hmeta
      by_cases hblank : isBlank c = true
      · rw [hblank] at hsep
        refine iff_of_true (by simp [State.emit, hsep]) (Or.inl fun d hd => ?_)
        obtain rfl := Option.some.inj hd
        exact hblank
      · have hblank' : isBlank c = false := by simpa using hblank
        rw [hblank'] at hsep
        have hstep : (State.word []).step c = .word [c] := by simp [State.step, hquote, hsep]
        rw [hstep] at hvs
        obtain ⟨v, vs', rfl⟩ := read_begun t (by simp) hvs
        refine iff_of_false (by simp [State.emit, hsep, State.text]) ?_
        rintro (hends | hword)
        · exact hblank (hends c rfl)
        · cases hword with
          | last quote _ => exact hquote quote
          | next quote _ => exact hquote quote

/-- A line that begins with no blank begins its first word. -/
theorem read_first {c : CodeUnit} (hc : isBlank c = false) (t : Text) :
    Shell.read refuses .between (c :: t) = Shell.read refuses (.word []) (c :: t) := by
  rw [Shell.read, Shell.read]
  by_cases hmeta : isMetacharacter c = true
  · rw [if_pos (by simpa [refuses, State.quote] using hmeta), if_pos (by simpa [refuses, State.quote] using hmeta)]
  · have hsep : isSeparator c = false := by rw [isSeparator_of_not_meta (by simpa using hmeta), hc]
    have hstep : State.between.step c = (State.word []).step c := by simp [State.step, hsep]
    have hemit : State.between.emit c = (State.word []).emit c := by simp [State.emit, hsep]
    rw [hstep, hemit]
    rfl

theorem isSpace_of_blank {c : CodeUnit} (h : isBlank c = true) : isSpace c = true := by
  unfold isBlank at h
  simp only [Bool.or_eq_true, decide_eq_true_eq] at h
  rcases h with rfl | rfl
  all_goals decide

/-- What is trimmed begins with no white space. -/
theorem head_trim {value : Text} (h : trim value ≠ []) : ∃ c r, trim value = c :: r ∧ isSpace c = false := by
  have hsplit : trim value ++ ((trimStart value).reverse.takeWhile isSpace).reverse = trimStart value := by
    unfold trim trimEnd
    rw [← List.reverse_append, List.takeWhile_append_dropWhile, List.reverse_reverse]
  obtain ⟨c, r, htrim⟩ := List.exists_cons_of_ne_nil h
  refine ⟨c, r, htrim, ?_⟩
  have hhead := List.head?_dropWhile_not isSpace value
  have hcons : List.dropWhile isSpace value = c :: (r ++ ((trimStart value).reverse.takeWhile isSpace).reverse) := by
    rw [← List.cons_append, ← htrim, hsplit]
    rfl
  rw [hcons] at hhead
  exact hhead

/-- **When a command is rejected.** -/
theorem tokenize_eq_none (value : Text) : tokenizeVerificationCommand value = none ↔ Rejected (trim value) := by
  by_cases htrim : trim value = []
  · rw [tokenize_eq, if_pos htrim]
    exact iff_of_true rfl (.blank htrim)
  obtain ⟨c, r, hcons, hspace⟩ := head_trim htrim
  have hblank : isBlank c = false := by
    by_contra hblank
    rw [isSpace_of_blank (by simpa using hblank)] at hspace
    cases hspace
  rw [tokenize_eq, if_neg htrim]
  rcases hwords : words value with _ | ws
  · refine iff_of_true rfl ?_
    rcases (read_refuses_eq_none _).mp hwords with hopen | ⟨p, d, q, hsplit, hplain, hmeta⟩
    · exact .unterminated hopen
    · exact .metacharacter p q d hsplit hplain hmeta
  · have hread : Shell.read refuses (.word []) (trim value) = some ws := by
      rw [hcons, ← read_first hblank r, ← hcons]
      exact hwords
    obtain ⟨file, args, rfl⟩ := read_begun _ (by simp) hread
    have hhead := head_read_begun _ le_rfl hread
    have hends : ¬ ∀ d ∈ (trim value).head?, isBlank d = true := by
      rw [hcons]
      intro hall
      rw [hall c rfl] at hblank
      cases hblank
    rw [or_iff_right hends, List.head?_cons, Option.some_inj] at hhead
    have hsome : words value ≠ none := by
      rw [hwords]
      exact Option.some_ne_none _
    show (if State.text (.word []) ++ file = [] then none else some ((State.text (.word []) ++ file) :: args)) = none ↔ _
    by_cases hfile : State.text (.word []) ++ file = []
    · rw [if_pos hfile]
      exact iff_of_true rfl (.nameless (hhead.mp hfile))
    · rw [if_neg hfile]
      refine iff_of_false (Option.some_ne_none _) fun hrejected => ?_
      cases hrejected with
      | blank empty => exact htrim empty
      | unterminated quote => exact hsome ((read_refuses_eq_none _).mpr (Or.inl quote))
      | metacharacter p q d split plain special =>
        exact hsome ((read_refuses_eq_none _).mpr (Or.inr ⟨p, d, q, split, plain, special⟩))
      | nameless word => exact hfile (hhead.mpr word)

/-! ### The words of a shell -/

/-- No dollar sign, backquote or backslash is inside double quotes. -/
def PlainDouble (t : Text) : Prop :=
  ∀ p c r, t = p ++ c :: r → openQuote p none = some (unit '"') → isExpansion c = false

/-- What is trimmed away separates words, and no comment starts. -/
structure Clean (value : Text) : Prop where
  start : ∀ c ∈ value.takeWhile isSpace, isSeparator c = true
  close : ∀ c ∈ value.reverse.takeWhile isSpace, isSeparator c = true
  comment : ¬ StartsComment value

/-- A command is what trimming leaves, between white space. -/
theorem eq_trim {value : Text} (h : trim value ≠ []) :
    value = value.takeWhile isSpace ++ trim value ++ (value.reverse.takeWhile isSpace).reverse := by
  have hstart : value.takeWhile isSpace ++ trimStart value = value := List.takeWhile_append_dropWhile
  have hend : trim value ++ ((trimStart value).reverse.takeWhile isSpace).reverse = trimStart value := by
    unfold trim trimEnd
    rw [← List.reverse_append, List.takeWhile_append_dropWhile, List.reverse_reverse]
  have htake : value.reverse.takeWhile isSpace = (trimStart value).reverse.takeWhile isSpace := by
    conv_lhs => rw [← hstart, List.reverse_append, List.takeWhile_append]
    refine if_neg fun hlen => h ?_
    have hall : (trimStart value).reverse.takeWhile isSpace = (trimStart value).reverse :=
      (List.takeWhile_prefix isSpace).eq_of_length hlen
    unfold trim trimEnd
    rw [List.dropWhile_eq_nil_iff.mpr fun c hc => ?_]
    · rfl
    · exact List.takeWhile_eq_self_iff.mp hall c hc
  conv_lhs => rw [← hstart, ← hend, ← htake]
  rw [List.append_assoc]

theorem isSpace_of_mem_ends {value : Text} {c : CodeUnit}
    (hc : c ∈ value.takeWhile isSpace ++ (value.reverse.takeWhile isSpace).reverse) : isSpace c = true := by
  rcases List.mem_append.mp hc with hc | hc
  · exact List.mem_takeWhile_imp hc
  · exact List.mem_takeWhile_imp (List.mem_reverse.mp hc)

theorem not_quote_of_space {c : CodeUnit} (h : isSpace c = true) : isQuote c = false := by
  by_contra hquote
  rw [not_space_of_quote (by simpa using hquote)] at h
  cases h

theorem openQuote_append {a : Text} (h : ∀ c ∈ a, isQuote c = false) (b : Text) :
    openQuote (a ++ b) none = openQuote b none := by
  induction a with
  | nil => rfl
  | cons c a ih =>
    rw [List.cons_append, openQuote, if_neg (by simp [h c List.mem_cons_self])]
    exact ih fun d hd => h d (List.mem_cons_of_mem c hd)

theorem isMetacharacter_of_special {c : CodeUnit} (h : isSpecial c = true) : isMetacharacter c = true := by
  have hall : (units "|&;<>()$`\\*?[~").all isMetacharacter = true := by decide
  exact List.all_eq_true.mp hall c (List.contains_iff_mem.mp h)

/-- A command without expansions inside quotes is split by the shell as the loop splits it. -/
theorem read_shell {value : Text} {ws : List Text} (htrim : trim value ≠ []) (hplain : PlainDouble value)
    (h : words value = some ws) : Shell.read shellRefuses .between (trim value) = some ws := by
  refine read_mono (fun p c r hsplit hrefuse => ?_) h
  unfold refuses
  unfold shellRefuses at hrefuse
  rw [quote_after] at hrefuse ⊢
  rcases hquote : openQuote p State.between.quote with _ | q
  · rw [hquote] at hrefuse
    rw [isMetacharacter_of_special hrefuse]
    rfl
  · rw [hquote] at hrefuse
    simp only [Bool.and_eq_true, decide_eq_true_eq] at hrefuse
    obtain ⟨⟨rfl, -⟩, hexpand⟩ := hrefuse
    have hvalue := eq_trim htrim
    have hopen : openQuote (value.takeWhile isSpace ++ p) none = some (unit '"') := by
      rw [openQuote_append fun d hd => ?_]
      · exact hquote
      · exact not_quote_of_space (List.mem_takeWhile_imp hd)
    rw [hsplit] at hvalue
    have hnone := hplain (value.takeWhile isSpace ++ p) c (r ++ (value.reverse.takeWhile isSpace).reverse)
      (hvalue.trans (by simp)) hopen
    rw [hnone] at hexpand
    cases hexpand

/-- **The words are those of a shell** exactly when the command is clean. -/
theorem shellWords_eq_iff {value : Text} {ws : List Text} (htokens : tokenizeVerificationCommand value = some ws)
    (hplain : PlainDouble value) : shellWords value = some ws ↔ Clean value := by
  obtain ⟨htrim, hwords, -⟩ := tokenize_eq_some.mp htokens
  have hends : ∀ c ∈ value.takeWhile isSpace ++ (value.reverse.takeWhile isSpace).reverse,
      isQuote c = false ∧ c ≠ unit '#' := by
    intro c hc
    have hspace := isSpace_of_mem_ends hc
    refine ⟨not_quote_of_space hspace, ?_⟩
    rintro rfl
    exact absurd hspace (by decide)
  have hiff := shellWords_iff (read_shell htrim hplain hwords) hends
  rw [← eq_trim htrim] at hiff
  rw [hiff]
  constructor
  · rintro ⟨hsep, hcomment⟩
    refine ⟨fun c hc => hsep c (List.mem_append_left _ hc), fun c hc => ?_, hcomment⟩
    exact hsep c (List.mem_append_right _ (List.mem_reverse.mpr hc))
  · rintro ⟨hstart, hclose, hcomment⟩
    refine ⟨fun c hc => ?_, hcomment⟩
    rcases List.mem_append.mp hc with hc | hc
    · exact hstart c hc
    · exact hclose c (List.mem_reverse.mp hc)

/-! ### The tokenizer -/

/-- What the tokenizer is to do with a command. -/
structure Meets (value : Text) : Prop where
  back : ∀ as, Quoted as value → as.head? ≠ some [] → tokenizeVerificationCommand value = some as
  rejected : tokenizeVerificationCommand value = none ↔ Rejected (trim value)
  same : ∀ ws, tokenizeVerificationCommand value = some ws → PlainDouble value → shellWords value = some ws

/-- **The tokenizer** does what it is to do with the commands it rejects, with those that have expansions inside quotes,
and with those that are clean. -/
theorem meets_iff (value : Text) : Meets value ↔ (¬ Rejected (trim value) → PlainDouble value → Clean value) := by
  constructor
  · intro hmeets haccepted hplain
    have hsome : tokenizeVerificationCommand value ≠ none := fun hnone => haccepted (hmeets.rejected.mp hnone)
    obtain ⟨ws, hws⟩ := Option.ne_none_iff_exists'.mp hsome
    exact (shellWords_eq_iff hws hplain).mp (hmeets.same ws hws hplain)
  · intro hclean
    refine ⟨fun as hquoted hfirst => tokenize_quoted hquoted hfirst, tokenize_eq_none value, ?_⟩
    intro ws hws hplain
    refine (shellWords_eq_iff hws hplain).mpr (hclean (fun hrejected => ?_) hplain)
    rw [(tokenize_eq_none value).mpr hrejected] at hws
    cases hws

/-- A number sign, and a space that is none for the shell. -/
theorem comment_is_word : ¬ Meets (units "a #b") ∧ ¬ Meets (units "a\u00a0") := by
  have hplain : ∀ t : Text, t.all (fun c => !isExpansion c) = true → PlainDouble t := by
    rintro t hall p c r rfl -
    simpa using List.all_eq_true.mp hall c (List.mem_append_right p List.mem_cons_self)
  constructor
  · intro hmeets
    have hwords := hmeets.same [units "a", units "#b"] (by decide) (hplain _ (by decide))
    have hshell : shellWords (units "a #b") = some [units "a"] := by decide
    rw [hshell] at hwords
    exact absurd hwords (by decide)
  · intro hmeets
    have hwords := hmeets.same [units "a"] (by decide) (hplain _ (by decide))
    have hshell : shellWords (units "a\u00a0") = some [units "a\u00a0"] := by decide
    rw [hshell] at hwords
    exact absurd hwords (by decide)

end Norns.Execution.Verification
