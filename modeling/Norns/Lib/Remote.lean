import Mathlib.Logic.Function.Basic
import Mathlib.Logic.Relation

/-! # The refs of a remote repository

Refs point into a graph of commits. A plain push moves a ref where that is a fast-forward or creates
the ref, a push under a lease where the ref is still at the leased tip. The answer to a push may be
lost, before or after it was carried out.

* `Contains`, `FastForward`, `Holds`: what a tip contains, and the moves that lose nothing;
* `push_eq`: what a push does, and what its success says. -/

namespace Norns.Lib.Remote

variable {C : Type*}

structure CommitGraph (C : Type*) where
  parents : C → List C

namespace CommitGraph

variable (g : CommitGraph C)

/-- The history of `tip` contains `c`. -/
def Contains (tip c : C) : Prop := Relation.ReflTransGen (fun a b => b ∈ g.parents a) tip c

/-- Nothing is lost when a ref moves from `old` to `new`. -/
def FastForward (old : Option C) (new : C) : Prop := ∀ tip ∈ old, g.Contains new tip

/-- The ref is at a tip that contains `c`. -/
def Holds (tip : Option C) (c : C) : Prop := ∃ t ∈ tip, g.Contains t c

instance [DecidableRel g.Contains] (old : Option C) (new : C) : Decidable (g.FastForward old new) :=
  inferInstanceAs (Decidable (∀ tip ∈ old, _))

instance [DecidableRel g.Contains] (tip : Option C) (c : C) : Decidable (g.Holds tip c) :=
  inferInstanceAs (Decidable (∃ t ∈ tip, _))

theorem holds_self (c : C) : g.Holds (some c) c := ⟨c, rfl, Relation.ReflTransGen.refl⟩

variable {g}

/-- What a tip contains, the tip after a fast-forward contains. -/
theorem Holds.fastForward {old : Option C} {new c : C} (h : g.Holds old c)
    (hmove : g.FastForward old new) : g.Holds (some new) c := by
  obtain ⟨tip, htip, hcontains⟩ := h
  have hnew : g.Contains new tip := hmove tip htip
  exact ⟨new, rfl, hnew.trans hcontains⟩

end CommitGraph

/-- A remote without a ref has no tip for it. -/
abbrev Refs (C : Type*) := String → Option C

/-- What becomes of a push that the remote would accept. -/
inductive Delivery
  | done
  /-- It is carried out, and the answer is lost. -/
  | unanswered
  | failed
  deriving DecidableEq, Repr

/-- The refs after a push, and whether it reported success. -/
def push (accepted : Prop) [Decidable accepted] (refs : Refs C) (ref : String) (c : C)
    (delivery : Delivery) : Refs C × Bool :=
  if accepted then
    match delivery with
    | .done => (Function.update refs ref (some c), true)
    | .unanswered => (Function.update refs ref (some c), false)
    | .failed => (refs, false)
  else (refs, false)

/-- **A push** is carried out, and accepted then, or it fails without a trace. -/
theorem push_eq (accepted : Prop) [Decidable accepted] (refs : Refs C) (ref : String) (c : C)
    (delivery : Delivery) :
    (accepted ∧ (push accepted refs ref c delivery).1 = Function.update refs ref (some c)) ∨
      push accepted refs ref c delivery = (refs, false) := by
  unfold push
  split
  case isFalse => exact .inr rfl
  case isTrue haccepted =>
    cases delivery with
    | done => exact .inl ⟨haccepted, rfl⟩
    | unanswered => exact .inl ⟨haccepted, rfl⟩
    | failed => exact .inr rfl

end Norns.Lib.Remote
