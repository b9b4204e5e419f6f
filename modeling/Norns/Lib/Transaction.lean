import Mathlib.Tactic.Common

/-! # Transactions

A transaction reads a store and either returns a new one or aborts; an abort leaves the store as it
was. It is a computation in `Except ε`: `Ensures x Q` says that what `x` returns satisfies `Q`, and
`commit` is the store after it.

* `ensures_bind`, `Ensures.bind`: sequencing;
* `Ensures.mono`, `Ensures.and`: consequence and conjunction;
* `refuse`, `refuse_bind_ok`: guards;
* `Avoids x P`: `x` does not abort with an error that satisfies `P`;
* `commit_induct`: what holds of the old store and of every store returned holds after `commit`. -/

namespace Norns.Lib.Transaction

variable {ε α β σ : Type}

/-- What is returned, if anything is, satisfies `Q`. -/
def Ensures (x : Except ε α) (Q : α → Prop) : Prop := ∀ a, x = .ok a → Q a

/-- The computation returns. -/
def Commits (x : Except ε α) : Prop := ∃ a, x = .ok a

/-- The computation does not abort with an error that satisfies `P`. -/
def Avoids (x : Except ε α) (P : ε → Prop) : Prop := ∀ e, x = .error e → ¬ P e

/-- A guard: the transaction aborts with `e` if `p` holds. -/
def refuse (p : Prop) [Decidable p] (e : ε) : Except ε Unit := if p then .error e else .ok ()

/-- The store after a transaction that returns a store. -/
def commit (s : σ) : Except ε σ → σ
  | .ok s' => s'
  | .error _ => s

variable {x : Except ε α} {f : α → Except ε β} {Q Q' : α → Prop}

theorem bind_eq_ok {b : β} : (x >>= f) = .ok b ↔ ∃ a, x = .ok a ∧ f a = .ok b := by
  constructor
  · intro h
    rcases x with e | a
    · exact absurd h (by simp [bind, Except.bind])
    · exact ⟨a, rfl, h⟩
  · rintro ⟨a, rfl, h⟩
    exact h

theorem map_eq_ok {g : α → β} {b : β} : g <$> x = .ok b ↔ ∃ a, x = .ok a ∧ g a = b := by
  constructor
  · intro h
    rcases x with e | a
    · exact absurd h (by simp [Functor.map, Except.map])
    · exact ⟨a, rfl, Except.ok.inj h⟩
  · rintro ⟨a, rfl, rfl⟩
    rfl

theorem refuse_eq_ok {p : Prop} [Decidable p] {e : ε} {u : Unit} :
    refuse p e = .ok u ↔ ¬ p := by
  unfold refuse
  split
  · rename_i hp
    exact ⟨fun h => absurd h (by simp), fun h => absurd hp h⟩
  · rename_i hp
    exact ⟨fun _ => hp, fun _ => rfl⟩

/-- Past a guard. -/
theorem refuse_bind_ok {p : Prop} [Decidable p] {e : ε} {f : Unit → Except ε β} {b : β} :
    (refuse p e >>= f) = .ok b ↔ ¬ p ∧ f () = .ok b := by
  rw [bind_eq_ok]
  constructor
  · rintro ⟨u, hu, h⟩
    exact ⟨refuse_eq_ok.mp hu, h⟩
  · rintro ⟨hp, h⟩
    exact ⟨(), refuse_eq_ok.mpr hp, h⟩

@[simp] theorem ensures_ok {a : α} : Ensures (.ok a : Except ε α) Q ↔ Q a :=
  ⟨fun h => h a rfl, fun h _ hb => Except.ok.inj hb ▸ h⟩

@[simp] theorem ensures_pure {a : α} : Ensures (pure a : Except ε α) Q ↔ Q a := ensures_ok

@[simp] theorem ensures_error {e : ε} : Ensures (.error e : Except ε α) Q := by
  intro a h
  exact absurd h (by simp)

@[simp] theorem ensures_throw {e : ε} : Ensures (throw e : Except ε α) Q := ensures_error

theorem ensures_bind {Q : β → Prop} :
    Ensures (x >>= f) Q ↔ Ensures x fun a => Ensures (f a) Q := by
  constructor
  · intro h a ha b hb
    exact h b (bind_eq_ok.mpr ⟨a, ha, hb⟩)
  · intro h b hb
    obtain ⟨a, ha, hab⟩ := bind_eq_ok.mp hb
    exact h a ha b hab

/-- Sequencing, with a named middle. -/
theorem Ensures.bind {Q : β → Prop} {mid : α → Prop} (h : Ensures x mid)
    (hf : ∀ a, mid a → Ensures (f a) Q) : Ensures (x >>= f) Q :=
  ensures_bind.mpr fun a ha => hf a (h a ha)

theorem Ensures.mono (h : Ensures x Q) (hq : ∀ a, Q a → Q' a) : Ensures x Q' :=
  fun a ha => hq a (h a ha)

theorem Ensures.and (h : Ensures x Q) (h' : Ensures x Q') : Ensures x fun a => Q a ∧ Q' a :=
  fun a ha => ⟨h a ha, h' a ha⟩

theorem Ensures.ite {p : Prop} [Decidable p] {y : Except ε α} (hx : p → Ensures x Q)
    (hy : ¬ p → Ensures y Q) : Ensures (if p then x else y) Q := by
  split
  · exact hx ‹_›
  · exact hy ‹_›

@[simp] theorem commits_ok {a : α} : Commits (.ok a : Except ε α) := ⟨a, rfl⟩

@[simp] theorem commits_pure {a : α} : Commits (pure a : Except ε α) := ⟨a, rfl⟩

@[simp] theorem not_commits_error {e : ε} : ¬ Commits (.error e : Except ε α) := by
  rintro ⟨a, h⟩
  exact absurd h (by simp)

theorem commits_bind : Commits (x >>= f) ↔ ∃ a, x = .ok a ∧ Commits (f a) := by
  constructor
  · rintro ⟨b, h⟩
    obtain ⟨a, ha, hb⟩ := bind_eq_ok.mp h
    exact ⟨a, ha, b, hb⟩
  · rintro ⟨a, ha, b, hb⟩
    exact ⟨b, bind_eq_ok.mpr ⟨a, ha, hb⟩⟩

theorem bind_eq_error {e : ε} :
    (x >>= f) = .error e ↔ x = .error e ∨ ∃ a, x = .ok a ∧ f a = .error e := by
  rcases x with e' | a
  · constructor
    · intro h
      cases h
      exact .inl rfl
    · rintro (h | ⟨a, ha, -⟩)
      · cases h
        rfl
      · cases ha
  · constructor
    · exact fun h => .inr ⟨a, rfl, h⟩
    · rintro (h | ⟨b, hb, h⟩)
      · cases h
      · cases hb
        exact h

theorem map_eq_error {g : α → β} {e : ε} : g <$> x = .error e ↔ x = .error e := by
  rcases x with e' | a <;> simp [Functor.map, Except.map]

section

variable {P : ε → Prop}

@[simp] theorem avoids_ok {a : α} : Avoids (.ok a : Except ε α) P := by
  intro e h
  exact absurd h (by simp)

@[simp] theorem avoids_pure {a : α} : Avoids (pure a : Except ε α) P := avoids_ok

@[simp] theorem avoids_error {e : ε} : Avoids (.error e : Except ε α) P ↔ ¬ P e :=
  ⟨fun h => h e rfl, fun h _ he => Except.error.inj he ▸ h⟩

@[simp] theorem avoids_map {g : α → β} : Avoids (g <$> x) P ↔ Avoids x P :=
  forall_congr' fun _ => by rw [map_eq_error]

theorem Avoids.bind (h : Avoids x P) (hf : ∀ a, x = .ok a → Avoids (f a) P) :
    Avoids (x >>= f) P := by
  intro e he
  rcases bind_eq_error.mp he with he | ⟨a, ha, he⟩
  · exact h e he
  · exact hf a ha e he

/-- Past a guard whose error is none of these. -/
theorem Avoids.refuse_bind {p : Prop} [Decidable p] {e : ε} {f : Unit → Except ε β} (he : ¬ P e)
    (hf : ¬ p → Avoids (f ()) P) : Avoids (refuse p e >>= f) P := by
  refine Avoids.bind ?_ fun _ ha => hf (refuse_eq_ok.mp ha)
  unfold refuse
  split
  · exact avoids_error.mpr he
  · exact avoids_ok

end

/-- **Atomicity.** An abort leaves the old store. -/
theorem commit_induct {s : σ} {y : Except ε σ} {P : σ → Prop} (h : P s) (hy : Ensures y P) :
    P (commit s y) := by
  rcases y with e | s'
  · exact h
  · exact hy s' rfl

end Norns.Lib.Transaction
