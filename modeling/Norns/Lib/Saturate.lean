import Norns.Lib.OrdMap

/-! # Adding to a map until nothing is missing

`while (added) { added = false; for (const item of items(map)) … map.set(key, value); added = true }`: a pass asks for
each item whether an entry is wanted, and passes are repeated as long as one adds something. The first argument of
`saturate` bounds the number of passes.

* `saturate_isSome`: keys from a finite list bound the passes;
* `saturate_closed`: in the end nothing is wanted;
* `saturate_holds`, `saturate_error`: what holds of the entries, and where it is refused. -/

namespace Norns.Lib.Saturate

variable {κ β α ε : Type*} [DecidableEq κ]

/-- The entry that is wanted for an item, if there is none yet. -/
abbrev Want (κ β α ε : Type*) := OrdMap κ β → α → Except ε (Option (κ × β))

/-- One pass, and whether an entry was added. -/
def pass (want : Want κ β α ε) : List α → OrdMap κ β → Bool → Except ε (OrdMap κ β × Bool)
  | [], m, added => .ok (m, added)
  | a :: as, m, added =>
    match want m a with
    | .error e => .error e
    | .ok none => pass want as m added
    | .ok (some (k, v)) => pass want as (m.set k v) true

/-- Passes over the items of the map, until one adds nothing. -/
def saturate (items : OrdMap κ β → List α) (want : Want κ β α ε) : ℕ → OrdMap κ β → Option (Except ε (OrdMap κ β))
  | 0, _ => none
  | bound + 1, m =>
    match pass want (items m) m false with
    | .error e => some (.error e)
    | .ok (m', true) => saturate items want bound m'
    | .ok (m', false) => some (.ok m')

/-- What holds of all entries. -/
def Holds (P : κ → β → Prop) (m : OrdMap κ β) : Prop := ∀ k v, m.get? k = some v → P k v

/-- The entries of a map are those of another one. -/
def Keeps (m m' : OrdMap κ β) : Prop := ∀ k v, m.get? k = some v → m'.get? k = some v

theorem Keeps.trans {m m' m'' : OrdMap κ β} (h : Keeps m m') (h' : Keeps m' m'') : Keeps m m'' :=
  fun k v hk => h' k v (h k v hk)

/-- What the items and the wanted entries have. -/
structure Sound (items : OrdMap κ β → List α) (want : Want κ β α ε) (P : κ → β → Prop) (Q : α → Prop) : Prop where
  items : ∀ {m}, Holds P m → ∀ a ∈ items m, Q a
  wanted : ∀ {m a k v}, Q a → want m a = .ok (some (k, v)) → P k v ∧ m.get? k = none

section

variable {items : OrdMap κ β → List α} {want : Want κ β α ε} {P : κ → β → Prop} {Q : α → Prop}

theorem Holds.set {m : OrdMap κ β} (h : Holds P m) {k : κ} {v : β} (hkv : P k v) : Holds P (m.set k v) := by
  intro k' v' hget
  rw [OrdMap.get?_set] at hget
  split_ifs at hget with hk
  · obtain rfl := Option.some.inj hget
    rw [← hk]
    exact hkv
  · exact h k' v' hget

theorem keeps_set {m : OrdMap κ β} {k : κ} (hk : m.get? k = none) (v : β) : Keeps m (m.set k v) := by
  intro k' v' hget
  have hne : k ≠ k' := by
    rintro rfl
    rw [hk] at hget
    cases hget
  rw [OrdMap.get?_set_ne m v hne, hget]

theorem length_keys_set {m : OrdMap κ β} {k : κ} (hk : m.get? k = none) (v : β) :
    (m.set k v).keys.length = m.keys.length + 1 := by
  rw [OrdMap.keys_set, if_neg (OrdMap.get?_eq_none.mp hk), List.length_append]
  rfl

/-- **One pass** keeps what holds of the entries, and those that are there; it adds some unless nothing is wanted. -/
theorem pass_ok (h : Sound items want P Q) {as : List α} : ∀ {m m' : OrdMap κ β} {added added' : Bool},
    (∀ a ∈ as, Q a) → Holds P m → pass want as m added = .ok (m', added') →
      Holds P m' ∧ Keeps m m' ∧ (added' = true → added = true ∨ m.keys.length < m'.keys.length) ∧
        (added' = false → added = false ∧ m' = m ∧ ∀ a ∈ as, want m a = .ok none) := by
  induction as with
  | nil =>
    intro m m' added added' _ hm hpass
    obtain ⟨rfl, rfl⟩ := Prod.mk.inj (Except.ok.inj hpass)
    refine ⟨hm, fun _ _ hk => hk, Or.inl, fun hadded => ⟨hadded, rfl, fun a ha => by cases ha⟩⟩
  | cons a as ih =>
    intro m m' added added' has hm hpass
    have has' : ∀ b ∈ as, Q b := fun b hb => has b (List.mem_cons_of_mem a hb)
    rw [pass] at hpass
    split at hpass
    case h_1 => cases hpass
    case h_2 hwant =>
      obtain ⟨hholds, hkeeps, hgrows, hnothing⟩ := ih has' hm hpass
      refine ⟨hholds, hkeeps, hgrows, fun hadded => ?_⟩
      obtain ⟨hbefore, hsame, hall⟩ := hnothing hadded
      refine ⟨hbefore, hsame, fun b hb => ?_⟩
      rcases List.mem_cons.mp hb with rfl | hb
      · exact hwant
      · exact hall b hb
    case h_3 k v hwant =>
      obtain ⟨hkv, hnone⟩ := h.wanted (has a List.mem_cons_self) hwant
      obtain ⟨hholds, hkeeps, hgrows, hnothing⟩ := ih has' (hm.set hkv) hpass
      have hlen := length_keys_set hnone v
      refine ⟨hholds, (keeps_set hnone v).trans hkeeps, fun _ => Or.inr ?_, fun hadded => ?_⟩
      · have hle : (m.set k v).keys.length ≤ m'.keys.length := by
          refine (OrdMap.keys_nodup _).length_le_of_subset fun k' hk' => ?_
          obtain ⟨v', hv'⟩ := OrdMap.mem_keys.mp hk'
          exact OrdMap.mem_keys.mpr ⟨v', hkeeps k' v' hv'⟩
        omega
      · obtain ⟨hbefore, -, -⟩ := hnothing hadded
        cases hbefore

theorem pass_error (h : Sound items want P Q) {as : List α} : ∀ {m : OrdMap κ β} {added : Bool} {e : ε},
    (∀ a ∈ as, Q a) → Holds P m → pass want as m added = .error e →
      ∃ m' a, Holds P m' ∧ Q a ∧ want m' a = .error e := by
  induction as with
  | nil =>
    intro m added e _ _ hpass
    cases hpass
  | cons a as ih =>
    intro m added e has hm hpass
    have ha := has a List.mem_cons_self
    have has' : ∀ b ∈ as, Q b := fun b hb => has b (List.mem_cons_of_mem a hb)
    rw [pass] at hpass
    split at hpass
    case h_1 e' hwant =>
      obtain rfl := Except.error.inj hpass
      exact ⟨m, a, hm, ha, hwant⟩
    case h_2 hwant => exact ih has' hm hpass
    case h_3 k v hwant => exact ih has' (hm.set (h.wanted ha hwant).1) hpass

/-- **The passes end** when all keys are from a finite list. -/
theorem saturate_isSome (h : Sound items want P Q) {keys : List κ} (hkeys : ∀ k v, P k v → k ∈ keys) (bound : ℕ) :
    ∀ {m : OrdMap κ β}, Holds P m → keys.length < m.keys.length + bound → (saturate items want bound m).isSome := by
  induction bound with
  | zero =>
    intro m hm hbound
    have hle : m.keys.length ≤ keys.length := by
      refine m.keys_nodup.length_le_of_subset fun k hk => ?_
      obtain ⟨v, hv⟩ := OrdMap.mem_keys.mp hk
      exact hkeys k v (hm k v hv)
    omega
  | succ bound ih =>
    intro m hm hbound
    rw [saturate]
    split
    case h_1 => rfl
    case h_2 m' hpass =>
      obtain ⟨hholds, -, hgrows, -⟩ := pass_ok h (h.items hm) hm hpass
      have hlt := (hgrows rfl).resolve_left Bool.false_ne_true
      exact ih hholds (by omega)
    case h_3 => rfl

/-- **In the end nothing is wanted**, and the entries from before are there. -/
theorem saturate_closed (h : Sound items want P Q) (bound : ℕ) : ∀ {m m' : OrdMap κ β}, Holds P m →
    saturate items want bound m = some (.ok m') →
      Holds P m' ∧ Keeps m m' ∧ ∀ a ∈ items m', want m' a = .ok none := by
  induction bound with
  | zero =>
    intro m m' _ hrun
    cases hrun
  | succ bound ih =>
    intro m m' hm hrun
    rw [saturate] at hrun
    split at hrun
    case h_1 => cases hrun
    case h_2 m₁ hpass =>
      obtain ⟨hholds, hkeeps, -, -⟩ := pass_ok h (h.items hm) hm hpass
      obtain ⟨hholds', hkeeps', hclosed⟩ := ih hholds hrun
      exact ⟨hholds', hkeeps.trans hkeeps', hclosed⟩
    case h_3 m₁ hpass =>
      obtain rfl := Except.ok.inj (Option.some.inj hrun)
      obtain ⟨-, -, -, hnothing⟩ := pass_ok h (h.items hm) hm hpass
      obtain ⟨-, rfl, hall⟩ := hnothing rfl
      exact ⟨hm, fun _ _ hk => hk, hall⟩

/-- **Where it is refused**, it is for an item of a map whose entries are as they should be. -/
theorem saturate_error (h : Sound items want P Q) (bound : ℕ) : ∀ {m : OrdMap κ β} {e : ε}, Holds P m →
    saturate items want bound m = some (.error e) → ∃ m' a, Holds P m' ∧ Q a ∧ want m' a = .error e := by
  induction bound with
  | zero =>
    intro m e _ hrun
    cases hrun
  | succ bound ih =>
    intro m e hm hrun
    rw [saturate] at hrun
    split at hrun
    case h_1 e' hpass =>
      obtain rfl := Except.error.inj (Option.some.inj hrun)
      exact pass_error h (h.items hm) hm hpass
    case h_2 m₁ hpass =>
      obtain ⟨hholds, -, -, -⟩ := pass_ok h (h.items hm) hm hpass
      exact ih hholds hrun
    case h_3 => cases hrun

end

end Norns.Lib.Saturate
