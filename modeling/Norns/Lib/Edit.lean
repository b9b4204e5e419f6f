import Mathlib.Tactic.Common

/-! # Edits that may throw

A method that changes an object step by step and may throw in between is `EStateM ε σ α`: a thrown
error keeps what was written before it. `Sat m s ok err` says of one call of `m` in the state `s`
that a normal return satisfies `ok` and a throw satisfies `err`; its rules follow the structure of
`m`.

* `sat_bind`, `Sat.bind`: sequencing, `bind_of_ok`, `bind_of_error` when the first call is known;
* `sat_foldlM`: loops, with an invariant over the part of the list that was worked off;
* `Sat.mono`, `Sat.and`: consequence and conjunction. -/

namespace Norns.Lib.Edit

variable {ε σ α β γ : Type}

/-- The state a call leaves behind, thrown or not. -/
def after : EStateM.Result ε σ α → σ
  | .ok _ s => s
  | .error _ s => s

/-- The error, if the call threw. -/
def thrown? : EStateM.Result ε σ α → Option ε
  | .ok _ _ => none
  | .error e _ => some e

/-- A normal return satisfies `ok`, a throw satisfies `err`. -/
def Sat (m : EStateM ε σ α) (s : σ) (ok : α → σ → Prop) (err : ε → σ → Prop) : Prop :=
  match m s with
  | .ok a s' => ok a s'
  | .error e s' => err e s'

variable {m : EStateM ε σ α} {s : σ} {ok ok' : α → σ → Prop} {err err' : ε → σ → Prop}

@[simp] theorem sat_pure {a : α} : Sat (pure a : EStateM ε σ α) s ok err ↔ ok a s := Iff.rfl

@[simp] theorem sat_throw {e : ε} : Sat (throw e : EStateM ε σ α) s ok err ↔ err e s := Iff.rfl

@[simp] theorem sat_get {ok : σ → σ → Prop} : Sat (get : EStateM ε σ σ) s ok err ↔ ok s s := Iff.rfl

@[simp] theorem sat_modify {f : σ → σ} {ok : PUnit → σ → Prop} :
    Sat (modify f : EStateM ε σ PUnit) s ok err ↔ ok ⟨⟩ (f s) := Iff.rfl

theorem sat_bind {f : α → EStateM ε σ β} {ok : β → σ → Prop} :
    Sat (m >>= f) s ok err ↔ Sat m s (fun a s' => Sat (f a) s' ok err) err := by
  show (match EStateM.bind m f s with | .ok a s' => ok a s' | .error e s' => err e s') ↔ _
  unfold EStateM.bind Sat
  rcases m s with ⟨a, s'⟩ | ⟨e, s'⟩
  · exact Iff.rfl
  · exact Iff.rfl

theorem get_bind (f : σ → EStateM ε σ β) : (get >>= f : EStateM ε σ β) s = f s s := rfl

theorem modify_bind (g : σ → σ) (f : PUnit → EStateM ε σ β) :
    (modify g >>= f : EStateM ε σ β) s = f ⟨⟩ (g s) := rfl

theorem bind_of_ok {f : α → EStateM ε σ β} {a : α} {s' : σ} (h : m s = .ok a s') :
    (m >>= f) s = f a s' := by
  show EStateM.bind m f s = _
  unfold EStateM.bind
  rw [h]

theorem bind_of_error {f : α → EStateM ε σ β} {e : ε} {s' : σ} (h : m s = .error e s') :
    (m >>= f) s = .error e s' := by
  show EStateM.bind m f s = _
  unfold EStateM.bind
  rw [h]

theorem sat_bind_of_ok {f : α → EStateM ε σ β} {ok : β → σ → Prop} {a : α} {s' : σ}
    (h : m s = .ok a s') : Sat (m >>= f) s ok err ↔ Sat (f a) s' ok err := by
  unfold Sat
  rw [bind_of_ok h]

theorem sat_bind_of_error {f : α → EStateM ε σ β} {ok : β → σ → Prop} {e : ε} {s' : σ}
    (h : m s = .error e s') : Sat (m >>= f) s ok err ↔ err e s' := by
  unfold Sat
  rw [bind_of_error h]

theorem Sat.mono (h : Sat m s ok err) (hok : ∀ a s', ok a s' → ok' a s')
    (herr : ∀ e s', err e s' → err' e s') : Sat m s ok' err' := by
  unfold Sat at h ⊢
  rcases hm : m s with ⟨a, s'⟩ | ⟨e, s'⟩
  · rw [hm] at h; exact hok a s' h
  · rw [hm] at h; exact herr e s' h

theorem Sat.and (h : Sat m s ok err) (h' : Sat m s ok' err') :
    Sat m s (fun a s' => ok a s' ∧ ok' a s') (fun e s' => err e s' ∧ err' e s') := by
  unfold Sat at h h' ⊢
  rcases hm : m s with ⟨a, s'⟩ | ⟨e, s'⟩
  · rw [hm] at h h'; exact ⟨h, h'⟩
  · rw [hm] at h h'; exact ⟨h, h'⟩

/-- Sequencing, with a named middle. -/
theorem Sat.bind {f : α → EStateM ε σ β} {mid : α → σ → Prop} {ok : β → σ → Prop}
    (h : Sat m s mid err) (hf : ∀ a s', mid a s' → Sat (f a) s' ok err) :
    Sat (m >>= f) s ok err :=
  sat_bind.mpr (h.mono hf fun _ _ he => he)

/-- **Loops.** `I` relates the elements worked off, the accumulator and the state. -/
theorem sat_foldlM {f : β → γ → EStateM ε σ β} (I : List γ → β → σ → Prop) {l : List γ} {b : β}
    (h : I [] b s) (hstep : ∀ done x rest b s, l = done ++ x :: rest → I done b s →
      Sat (f b x) s (fun b' s' => I (done ++ [x]) b' s') err) :
    Sat (l.foldlM f b) s (fun b' s' => I l b' s') err := by
  -- over the rest of the list, with the part before it fixed
  have main : ∀ rest done b s, l = done ++ rest → I done b s →
      Sat (rest.foldlM f b) s (fun b' s' => I l b' s') err := by
    intro rest
    induction rest with
    | nil =>
      intro done b s hl hI
      rw [List.append_nil] at hl
      rw [List.foldlM_nil, sat_pure, hl]
      exact hI
    | cons x rest ih =>
      intro done b s hl hI
      rw [List.foldlM_cons]
      refine (hstep done x rest b s hl hI).bind fun b' s' hI' => ?_
      exact ih (done ++ [x]) b' s' (by rw [hl, List.append_assoc]; rfl) hI'
  exact main l [] b s rfl h

/-- What holds of both ends holds of the state left behind. -/
theorem Sat.after {P : σ → Prop} (h : Sat m s (fun _ s' => P s') fun _ s' => P s') :
    P (after (m s)) := by
  unfold Sat at h
  rcases hm : m s with ⟨a, s'⟩ | ⟨e, s'⟩
  · rw [hm] at h; exact h
  · rw [hm] at h; exact h

theorem Sat.of_after {P : σ → Prop} (h : P (Edit.after (m s))) :
    Sat m s (fun _ s' => P s') fun _ s' => P s' := by
  unfold Sat
  rcases hm : m s with ⟨a, s'⟩ | ⟨e, s'⟩
  · rw [hm] at h; exact h
  · rw [hm] at h; exact h

theorem Sat.of_error (h : Sat m s ok err) {e : ε} {s' : σ} (hm : m s = .error e s') : err e s' := by
  unfold Sat at h; rw [hm] at h; exact h

theorem Sat.of_ok (h : Sat m s ok err) {a : α} {s' : σ} (hm : m s = .ok a s') : ok a s' := by
  unfold Sat at h; rw [hm] at h; exact h

end Norns.Lib.Edit
