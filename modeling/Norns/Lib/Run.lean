import Mathlib.Logic.Basic
import Mathlib.Tactic.Common

/-! # Runs of a step function

A system is a total function `step : σ → α → σ`; an action that is refused or not enabled leaves the
state as it is, or changes it the way the refusal does. `run` performs a list of actions,
`Along p` says that every action of the list is taken in a state where `p` holds of both.

* `run_induct`: an invariant kept by every guarded step holds at the end of a guarded run;
* `along_prefix`: a guard along a run holds along each of its prefixes, so that a statement about
  the end of every guarded run is one about every state a guarded run goes through;
* `prefixes_iff_along`: an invariant kept exactly by the guarded steps holds in every state of a run
  exactly when the guard holds along it. -/

namespace Norns.Lib.Run

variable {σ α : Type*} (step : σ → α → σ)

/-- The state after the actions `as`. -/
def run (s : σ) (as : List α) : σ := as.foldl step s

/-- The guard `p` holds at every step of the run. -/
def Along (p : σ → α → Prop) : σ → List α → Prop
  | _, [] => True
  | s, a :: as => p s a ∧ Along p (step s a) as

@[simp] theorem run_nil (s : σ) : run step s [] = s := rfl

@[simp] theorem run_cons (s : σ) (a : α) (as : List α) :
    run step s (a :: as) = run step (step s a) as := rfl

theorem run_append (s : σ) (as bs : List α) :
    run step s (as ++ bs) = run step (run step s as) bs := List.foldl_append

theorem run_concat (s : σ) (as : List α) (a : α) :
    run step s (as ++ [a]) = step (run step s as) a := by
  rw [run_append]; rfl

variable {step} {p q : σ → α → Prop}

@[simp] theorem along_nil (s : σ) : Along step p s [] := trivial

@[simp] theorem along_cons (s : σ) (a : α) (as : List α) :
    Along step p s (a :: as) ↔ p s a ∧ Along step p (step s a) as := Iff.rfl

/-- A guard that can be evaluated can be evaluated along a run. -/
instance alongDecidable [∀ s a, Decidable (p s a)] :
    ∀ (s : σ) (as : List α), Decidable (Along step p s as)
  | _, [] => isTrue trivial
  | s, a :: as =>
    have := alongDecidable (step s a) as
    inferInstanceAs (Decidable (p s a ∧ Along step p (step s a) as))

theorem along_append {as bs : List α} : ∀ {s : σ},
    Along step p s (as ++ bs) ↔ Along step p s as ∧ Along step p (run step s as) bs := by
  induction as with
  | nil => intro s; simp
  | cons a as ih => intro s; simp [ih, and_assoc]

theorem along_prefix {as bs : List α} {s : σ} (h : Along step p s (as ++ bs)) :
    Along step p s as := (along_append.mp h).1

theorem along_and {as : List α} : ∀ {s : σ},
    Along step (fun s a => p s a ∧ q s a) s as ↔ Along step p s as ∧ Along step q s as := by
  induction as with
  | nil => intro s; simp
  | cons a as ih => intro s; simp [ih, and_and_and_comm]

/-- A guard along a run, read step by step. -/
theorem along_iff_steps {as : List α} : ∀ {s : σ},
    Along step p s as ↔ ∀ pre a, pre ++ [a] <+: as → p (run step s pre) a := by
  induction as with
  | nil => intro s; simp
  | cons a as ih =>
    intro s
    rw [along_cons, ih]
    constructor
    · rintro ⟨hp, hrest⟩ pre b hpre
      rcases pre with _ | ⟨c, pre⟩
      · obtain ⟨rfl, -⟩ := List.cons_prefix_cons.mp hpre
        exact hp
      · obtain ⟨rfl, htail⟩ := List.cons_prefix_cons.mp hpre
        exact hrest pre b htail
    · intro h
      refine ⟨h [] a ⟨as, rfl⟩, fun pre b hpre => ?_⟩
      exact h (a :: pre) b (List.cons_prefix_cons.mpr ⟨rfl, hpre⟩)

theorem Along.mono (hpq : ∀ s a, p s a → q s a) {as : List α} : ∀ {s : σ},
    Along step p s as → Along step q s as := by
  induction as with
  | nil => intro s _; trivial
  | cons a as ih => intro s h; exact ⟨hpq s a h.1, ih h.2⟩

theorem along_of_forall (h : ∀ s a, p s a) : ∀ (as : List α) (s : σ), Along step p s as
  | [], _ => trivial
  | a :: as, s => ⟨h s a, along_of_forall h as (step s a)⟩

/-- **Invariants.** What every guarded step keeps holds at the end of a guarded run. -/
theorem run_induct {I : σ → Prop} (hstep : ∀ s a, I s → p s a → I (step s a)) {as : List α} :
    ∀ {s : σ}, I s → Along step p s as → I (run step s as) := by
  induction as with
  | nil => intro s hs _; exact hs
  | cons a as ih => intro s hs h; exact ih (hstep s a hs h.1) h.2

/-- The rule for systems without a guard. -/
theorem run_induct' {I : σ → Prop} (hstep : ∀ s a, I s → I (step s a)) {s : σ} (hs : I s)
    (as : List α) : I (run step s as) :=
  run_induct (p := fun _ _ => True) (fun s a h _ => hstep s a h) hs
    (along_of_forall (fun _ _ => trivial) as s)

/-- A guard that follows from an invariant holds along the run. -/
theorem along_of_invariant {I : σ → Prop} (hstep : ∀ s a, I s → p s a → I (step s a))
    (hq : ∀ s a, I s → p s a → q s a) {as : List α} :
    ∀ {s : σ}, I s → Along step p s as → Along step q s as := by
  induction as with
  | nil => intro s _ _; trivial
  | cons a as ih => intro s hs h; exact ⟨hq s a hs h.1, ih (hstep s a hs h.1) h.2⟩

/-- **Exact guards.** Under the invariant `J`, a step from a state with `I` keeps `I` exactly when the
guard holds: then `I` holds in every state of a run exactly when the guard holds along it. -/
theorem prefixes_iff_along {I J : σ → Prop} (hJ : ∀ s a, J s → J (step s a))
    (hI : ∀ s a, J s → I s → (I (step s a) ↔ p s a)) {as : List α} :
    ∀ {s : σ}, J s → I s → ((∀ pre, pre <+: as → I (run step s pre)) ↔ Along step p s as) := by
  induction as with
  | nil =>
    intro s _ hs
    refine ⟨fun _ => trivial, fun _ pre hpre => ?_⟩
    rw [List.prefix_nil.mp hpre]
    exact hs
  | cons a as ih =>
    intro s hj hs
    rw [along_cons]
    constructor
    · intro h
      have hstep : I (step s a) := h [a] ⟨as, rfl⟩
      refine ⟨(hI s a hj hs).mp hstep, (ih (hJ s a hj) hstep).mp fun pre hpre => ?_⟩
      exact h (a :: pre) (List.cons_prefix_cons.mpr ⟨rfl, hpre⟩)
    · rintro ⟨hp, hrest⟩ pre hpre
      have hstep : I (step s a) := (hI s a hj hs).mpr hp
      rcases pre with _ | ⟨b, pre⟩
      · exact hs
      · obtain ⟨rfl, htail⟩ := List.cons_prefix_cons.mp hpre
        exact (ih (hJ s b hj) hstep).mpr hrest pre htail

end Norns.Lib.Run
