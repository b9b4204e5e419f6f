import Mathlib.Data.List.Infix

/-! # Replacing a pattern in a text

`replaceAll p t x` puts `t` for every occurrence of `p` in `x`, from left to right, as JavaScript does: what was put in is
not searched again. A text `u` can still arise around what was put in. It does so behind an *opening*: a first part `a` of
`u = a ++ b` whose rest `b` meets `t`, one of the two being a start of the other.

* `infix_replaceAll`: a text that occurs afterwards occurred before, or an opening of it stood before the pattern;
* `unopened_replaceAll`: no opening comes to stand before a pattern;
* `redact_clean`: replacing several patterns removes them all, when no opening stands before one. -/

namespace Norns.Lib.Replace

variable {α : Type*}

/-! ### Openings -/

/-- One text is a start of the other. -/
def Meet (x y : List α) : Prop := x <+: y ∨ y <+: x

theorem meet_of_starts {x y z : List α} (hx : x <+: z) (hy : y <+: z) : Meet x y :=
  List.prefix_or_prefix_of_prefix hx hy

theorem Meet.symm {x y : List α} (h : Meet x y) : Meet y x := Or.symm h

/-- What meets a longer text meets its start. -/
theorem Meet.left {x y z : List α} (h : Meet (x ++ y) z) : Meet x z := by
  rcases h with h | h
  · exact Or.inl ((List.prefix_append x y).trans h)
  · exact meet_of_starts (List.prefix_append x y) h

/-- What begins nowhere inside `t`. -/
def Outside (t u : List α) : Prop := ∀ j < t.length, ¬ Meet (t.drop j) u

/-- `a` is an opening of `a ++ b`. -/
structure Opening (t a b : List α) : Prop where
  before : a ≠ []
  after : b ≠ []
  meet : Meet b t

/-- What occurs in two texts and begins nowhere inside the first one. -/
theorem infix_append_of_outside {t u y : List α} (h : Outside t u) (hu : u <:+: t ++ y) : u <:+: y := by
  induction t with
  | nil => exact hu
  | cons c t ih =>
    rw [List.cons_append, List.infix_cons_iff] at hu
    rcases hu with hu | hu
    · have hprefix : u <+: (c :: t) ++ y := hu
      exact absurd (meet_of_starts (List.prefix_append _ _) hprefix) (h 0 (Nat.succ_pos _))
    · exact ih (fun j hj => h (j + 1) (Nat.succ_lt_succ hj)) hu

/-- A rest that meets `t` behind a part of `t` meets what is left of it. -/
theorem meet_drop {a x t : List α} (h : Meet (a ++ x) t) (ha : a <+: t) : Meet x (t.drop a.length) := by
  obtain ⟨y, rfl⟩ := ha
  rw [List.drop_left]
  exact h.imp (List.prefix_append_right_inj a).mp (List.prefix_append_right_inj a).mp

/-- A pattern behind a part of a text, neither of which begins inside `t`. -/
theorem outside_append {t a b q : List α} (hu : Outside t (a ++ b)) (hq : Outside t q) : Outside t (a ++ q) := by
  intro j hj hmeet
  rcases hmeet.symm.left with ha | ha
  · have hrest := meet_drop hmeet.symm ha
    rw [List.drop_drop] at hrest
    by_cases hend : j + a.length < t.length
    · exact hq _ hend hrest.symm
    · have heq : a = t.drop j := ha.eq_of_length_le (by
        rw [List.length_drop]
        omega)
      exact hu j hj (Or.inl (heq ▸ List.prefix_append a b))
  · exact hu j hj (Or.inl (ha.trans (List.prefix_append a b)))

/-- A part that comes before a pattern, where the pattern with the rest of the part meets `t`. -/
theorem meet_of_outside {t a b q : List α} (hq : Outside t q) (h : Meet (a ++ q) t) : Meet (a ++ b) t := by
  rcases h.left with ha | ha
  · have hrest := meet_drop h ha
    by_cases hend : a.length < t.length
    · exact absurd hrest.symm (hq _ hend)
    · have heq : a = t := ha.eq_of_length_le (not_lt.mp hend)
      exact Or.inr (heq ▸ List.prefix_append a b)
  · exact Or.inr (ha.trans (List.prefix_append a b))

/-- No opening of a pattern stands before a pattern. -/
def Unopened (ps : List (List α)) (t x : List α) : Prop :=
  ∀ u ∈ ps, ∀ q ∈ ps, ∀ a b, u = a ++ b → Opening t a b → ¬ a ++ q <:+: x

/-! ### Replacing -/

variable [DecidableEq α]

/-- `x.replaceAll(p, t)` -/
def replaceAll (p t : List α) : List α → List α
  | [] => if p = [] then t else []
  | c :: x =>
    if _ : p = [] then t ++ c :: replaceAll p t x
    else if p <+: c :: x then t ++ replaceAll p t ((c :: x).drop p.length) else c :: replaceAll p t x
termination_by x => x.length
decreasing_by
  · exact Nat.lt_succ_self _
  · have hpos := List.length_pos_of_ne_nil ‹_›
    rw [List.length_drop, List.length_cons]
    omega
  · exact Nat.lt_succ_self _

variable {p t : List α}

theorem replaceAll_nil (hp : p ≠ []) : replaceAll p t [] = [] := by
  rw [replaceAll, if_neg hp]

theorem replaceAll_found (hp : p ≠ []) {c : α} {x : List α} (h : p <+: c :: x) :
    replaceAll p t (c :: x) = t ++ replaceAll p t ((c :: x).drop p.length) := by
  rw [replaceAll, dif_neg hp, if_pos h]

theorem replaceAll_skip (hp : p ≠ []) {c : α} {x : List α} (h : ¬ p <+: c :: x) :
    replaceAll p t (c :: x) = c :: replaceAll p t x := by
  rw [replaceAll, dif_neg hp, if_neg h]

/-- A text that is the pattern. -/
theorem replaceAll_self (hp : p ≠ []) : replaceAll p t p = t := by
  obtain ⟨c, x, rfl⟩ := List.exists_cons_of_ne_nil hp
  rw [replaceAll_found hp (List.prefix_refl _), List.drop_length, replaceAll_nil hp, List.append_nil]

/-- A start of the result. -/
theorem prefix_replaceAll (hp : p ≠ []) (x : List α) : ∀ u, u <+: replaceAll p t x →
    u <+: x ∨ ∃ a b, u = a ++ b ∧ b ≠ [] ∧ Meet b t ∧ a ++ p <+: x := by
  induction x with
  | nil =>
    intro u hu
    rw [replaceAll_nil hp] at hu
    exact Or.inl hu
  | cons c x ih =>
    intro u hu
    by_cases hfound : p <+: c :: x
    · rw [replaceAll_found hp hfound] at hu
      by_cases hnil : u = []
      · exact Or.inl (hnil ▸ List.nil_prefix)
      · exact Or.inr ⟨[], u, rfl, hnil, meet_of_starts hu (List.prefix_append _ _), hfound⟩
    · rw [replaceAll_skip hp hfound] at hu
      cases u with
      | nil => exact Or.inl List.nil_prefix
      | cons d u =>
        obtain ⟨rfl, hrest⟩ := List.cons_prefix_cons.mp hu
        rcases ih u hrest with hx | ⟨a, b, rfl, hb, hmeet, hx⟩
        · exact Or.inl (List.cons_prefix_cons.mpr ⟨rfl, hx⟩)
        · exact Or.inr ⟨d :: a, b, rfl, hb, hmeet, List.cons_prefix_cons.mpr ⟨rfl, hx⟩⟩

/-- **What occurs in the result** occurred before and is not the pattern, or an opening stood before the pattern. -/
theorem infix_replaceAll (hp : p ≠ []) {u : List α} (hne : u ≠ []) (houtside : Outside t u) (x : List α)
    (hu : u <:+: replaceAll p t x) :
    (u ≠ p ∧ u <:+: x) ∨ ∃ a b, u = a ++ b ∧ Opening t a b ∧ a ++ p <:+: x := by
  induction x using replaceAll.induct p with
  | case1 hnil => exact absurd hnil hp
  | case2 =>
    rw [replaceAll_nil hp] at hu
    exact absurd (List.infix_nil.mp hu) hne
  | case3 c x hnil => exact absurd hnil hp
  | case4 c x _ hfound ih =>
    rw [replaceAll_found hp hfound] at hu
    have hdrop := (List.drop_suffix p.length (c :: x)).isInfix
    rcases ih (infix_append_of_outside houtside hu) with ⟨hother, hx⟩ | ⟨a, b, hab, hopening, hx⟩
    · exact Or.inl ⟨hother, hx.trans hdrop⟩
    · exact Or.inr ⟨a, b, hab, hopening, hx.trans hdrop⟩
  | case5 c x _ hfound ih =>
    have hcons := (List.suffix_cons c x).isInfix
    rw [replaceAll_skip hp hfound, List.infix_cons_iff] at hu
    rcases hu with hu | hu
    · rw [← replaceAll_skip hp hfound] at hu
      rcases prefix_replaceAll hp _ u hu with hx | ⟨a, b, hab, hb, hmeet, hx⟩
      · exact Or.inl ⟨fun heq => hfound (heq ▸ hx), hx.isInfix⟩
      · have ha : a ≠ [] := by
          rintro rfl
          exact hfound hx
        exact Or.inr ⟨a, b, hab, ⟨ha, hb, hmeet⟩, hx.isInfix⟩
    · rcases ih hu with ⟨hother, hx⟩ | ⟨a, b, hab, hopening, hx⟩
      · exact Or.inl ⟨hother, hx.trans hcons⟩
      · exact Or.inr ⟨a, b, hab, hopening, hx.trans hcons⟩

/-- **One replacement** brings no opening before a pattern. -/
theorem unopened_replaceAll {ps : List (List α)} (houtside : ∀ u ∈ ps, Outside t u) (hp : p ∈ ps) (hne : p ≠ [])
    (ht : t ≠ []) {x : List α} (h : Unopened ps t x) : Unopened ps t (replaceAll p t x) := by
  intro u hu q hq a b hab hopening hoccurs
  have hou : Outside t (a ++ b) := hab ▸ houtside u hu
  have hne' : a ++ q ≠ [] := fun hnil => hopening.before (List.append_eq_nil_iff.mp hnil).1
  rcases infix_replaceAll hne hne' (outside_append hou (houtside q hq)) x hoccurs with
    ⟨-, hx⟩ | ⟨a', b', hsplit, hopening', hx⟩
  · exact h u hu q hq a b hab hopening hx
  · rcases List.append_eq_append_iff.mp hsplit with ⟨c, ha', hq'⟩ | ⟨c, ha, hb'⟩
    · -- the opening reaches into the pattern
      cases c with
      | nil =>
        rw [List.nil_append] at hq'
        have hmeet : Meet (t.drop 0) q := (hq' ▸ hopening'.meet).symm
        exact houtside q hq 0 (List.length_pos_of_ne_nil ht) hmeet
      | cons d c =>
        refine h q hq p hp (d :: c) b' hq' ⟨List.cons_ne_nil _ _, hopening'.after, hopening'.meet⟩ ?_
        rw [ha', List.append_assoc] at hx
        exact (List.suffix_append a _).isInfix.trans hx
    · -- the opening ends before the pattern
      have hmeet : Meet (c ++ b) t := meet_of_outside (houtside q hq) (hb' ▸ hopening'.meet)
      have hafter : c ++ b ≠ [] := fun hnil => hopening.after (List.append_eq_nil_iff.mp hnil).2
      refine h u hu p hp a' (c ++ b) ?_ ⟨hopening'.before, hafter, hmeet⟩ hx
      rw [hab, ha, List.append_assoc]

/-- Every pattern is replaced, one after the other. -/
def redact (t : List α) (ps : List (List α)) (x : List α) : List α := ps.foldl (fun safe p => replaceAll p t safe) x

/-- **Several replacements** remove every pattern. -/
theorem redact_clean {ps : List (List α)} (ht : t ≠ []) (houtside : ∀ u ∈ ps, Outside t u) {x : List α}
    (h : Unopened ps t x) : ∀ u ∈ ps, ¬ u <:+: redact t ps x := by
  have hne : ∀ u ∈ ps, u ≠ [] := by
    rintro u hu rfl
    exact houtside [] hu 0 (List.length_pos_of_ne_nil ht) (Or.inr List.nil_prefix)
  -- a replacement removes its pattern and brings none back
  have hstep : ∀ p ∈ ps, ∀ y, Unopened ps t y → ∀ u ∈ ps, u <:+: replaceAll p t y → u ≠ p ∧ u <:+: y := by
    intro p hp y hy u hu hoccurs
    rcases infix_replaceAll (hne p hp) (hne u hu) (houtside u hu) y hoccurs with hx | ⟨a, b, hab, hopening, hx⟩
    · exact hx
    · exact absurd hx (hy u hu p hp a b hab hopening)
  have hrun : ∀ qs ⊆ ps, ∀ y, Unopened ps t y → ∀ u ∈ ps, u <:+: redact t qs y → u ∉ qs ∧ u <:+: y := by
    intro qs
    induction qs with
    | nil => exact fun _ y _ u _ hoccurs => ⟨List.not_mem_nil, hoccurs⟩
    | cons p qs ih =>
      intro hsub y hy u hu hoccurs
      have hp := hsub List.mem_cons_self
      have hnext := unopened_replaceAll houtside hp (hne p hp) ht hy
      obtain ⟨hnot, hmid⟩ := ih (fun q hq => hsub (List.mem_cons_of_mem _ hq)) _ hnext u hu hoccurs
      obtain ⟨hother, hy'⟩ := hstep p hp y hy u hu hmid
      exact ⟨by simp [hother, hnot], hy'⟩
  intro u hu hoccurs
  exact (hrun ps (List.Subset.refl _) x h u hu hoccurs).1 hu

end Norns.Lib.Replace
