import Mathlib.Data.List.Chain
import Mathlib.Logic.Relation
import Mathlib.Tactic.Common
import Norns.Lib.OrdMap

/-! # Cycle search by depth-first traversal

`deps x` lists what `x` depends on directly. `findCycle` is the usual search with two marks: a node
is *visiting* while its dependencies are explored and *done* afterwards, and meeting a visiting node
closes a cycle, which is returned as the path from that node back to itself.

The recursion runs on a call depth. `visit_ne_outOfDepth`: a depth above the number of unmarked nodes
suffices; `acc_of_visit`: what the search leaves as done is accessible, so a search without a find
means that no root lies on a cycle (`acc_of_findCycle`, `acyclic_of_findCycle`). `isCycle_of_findCycle`: a
path that is found is a cycle. -/

namespace Norns.Lib.Cycle

open Relation

variable {α : Type*} (deps : α → List α)

/-- `b` is a direct dependency of `a`. -/
def DependsOn (a b : α) : Prop := b ∈ deps a

/-- No node depends on itself, directly or through others. -/
def Acyclic : Prop := ∀ x, ¬ TransGen (DependsOn deps) x x

theorem not_transGen_self_of_acc {r : α → α → Prop} {x : α} (h : Acc r x) : ¬ TransGen r x x := by
  have h' := h.transGen
  induction h' with
  | intro x _ ih => exact fun hx => ih x hx ((h.inv_of_transGen hx)) hx

/-- An edge out of a point that no edge enters closes no cycle. -/
theorem not_transGen_self_of_new_edge {r r' : α → α → Prop} {v p : α}
    (hr : ∀ a b, r' a b → r a b ∨ (a = v ∧ b = p)) (hin : ∀ a, ¬ r a v) (hne : p ≠ v)
    (h : ∀ x, ¬ TransGen r x x) (x : α) : ¬ TransGen r' x x := by
  have henter : ∀ a b, r' a b → b ≠ v := by
    rintro a b hab rfl
    rcases hr a b hab with hold | ⟨-, rfl⟩
    · exact hin a hold
    · exact hne rfl
  have hend : ∀ {a b}, TransGen r' a b → b ≠ v := by
    intro a b hab
    cases hab with
    | single hstep => exact henter _ _ hstep
    | tail _ hstep => exact henter _ _ hstep
  have hold : ∀ {a b}, TransGen r' a b → a ≠ v → TransGen r a b := by
    intro a b hab ha
    induction hab with
    | single hstep =>
      exact .single ((hr _ _ hstep).resolve_right fun hnew => ha hnew.1)
    | tail hpath hstep ih =>
      exact ih.tail ((hr _ _ hstep).resolve_right fun hnew => hend hpath hnew.1)
  exact fun hcycle => h x (hold hcycle (hend hcycle))

/-- A relation that maps into an acyclic one is acyclic. -/
theorem Acyclic.map {β : Type*} {deps : α → List α} {deps' : β → List β} (h : Acyclic deps)
    (f : β → α) (hf : ∀ x, ∀ d ∈ deps' x, f d ∈ deps (f x)) : Acyclic deps' :=
  fun x hx => h (f x) (hx.lift f hf)

inductive Mark
  | visiting
  | done
  deriving DecidableEq, Repr

variable [DecidableEq α]

/-- What the search remembers: the marks and the current path. -/
structure Search (α : Type*) [DecidableEq α] where
  state : OrdMap α Mark
  stack : List α

/-- `.error (some path)` is a find; `.error none` means that the call depth was too small. -/
def visit : ℕ → α → Search α → Except (Option (List α)) (Search α)
  | 0, _, _ => .error none
  | depth + 1, id, s =>
    match s.state.get? id with
    | some .done => .ok s
    | some .visiting => .error (some (s.stack.drop (s.stack.idxOf id) ++ [id]))
    | none => do
      let s ← (deps id).foldlM (fun s dep => visit depth dep s)
        ⟨s.state.set id .visiting, s.stack ++ [id]⟩
      return ⟨s.state.set id .done, s.stack.dropLast⟩

/-- Visit every root; the first find ends the search. -/
def findCycle (depth : ℕ) (roots : List α) : Option (List α) :=
  match roots.foldlM (fun s id => visit deps depth id s) ⟨OrdMap.empty, []⟩ with
  | .ok _ => none
  | .error path => path

variable {deps}

/-! ### What a visit leaves behind -/

/-- The later search keeps the marks of the earlier one and is on the same path. -/
structure Extends (s s' : Search α) : Prop where
  stack : s'.stack = s.stack
  keeps : ∀ x m, s.state.get? x = some m → s'.state.get? x = some m
  visiting : ∀ x, s'.state.get? x = some .visiting → s.state.get? x = some .visiting

theorem Extends.refl (s : Search α) : Extends s s := ⟨rfl, fun _ _ h => h, fun _ h => h⟩

theorem Extends.trans {s t u : Search α} (h : Extends s t) (h' : Extends t u) : Extends s u :=
  ⟨h'.stack.trans h.stack, fun x m hx => h'.keeps x m (h.keeps x m hx),
    fun x hx => h.visiting x (h'.visiting x hx)⟩

/-- No chain of dependencies starting at a done node is infinite. -/
def DoneAcc (deps : α → List α) (s : Search α) : Prop :=
  ∀ x, s.state.get? x = some .done → Acc (Function.swap (DependsOn deps)) x

/-- Marking a node visiting adds no done node. -/
theorem doneAcc_mark {s : Search α} {id : α} {stack : List α} (hs : DoneAcc deps s) :
    DoneAcc deps ⟨s.state.set id .visiting, stack⟩ := by
  intro x hx
  rw [OrdMap.get?_set] at hx
  split_ifs at hx with h1
  · cases hx
  · exact hs x hx

/-- One search step after another: what each keeps, all keep, and every listed node ends done. -/
theorem foldlM_visit {depth : ℕ}
    (hv : ∀ {id : α} {s s' : Search α}, visit deps depth id s = .ok s' → DoneAcc deps s →
      Extends s s' ∧ DoneAcc deps s' ∧ s'.state.get? id = some .done) {ids : List α} :
    ∀ {s s' : Search α}, ids.foldlM (fun s id => visit deps depth id s) s = .ok s' →
      DoneAcc deps s →
      Extends s s' ∧ DoneAcc deps s' ∧ ∀ id ∈ ids, s'.state.get? id = some .done := by
  induction ids with
  | nil =>
    intro s s' h hs
    cases h
    exact ⟨.refl s, hs, fun _ hm => by cases hm⟩
  | cons id ids ih =>
    intro s s' h hs
    rw [List.foldlM_cons] at h
    rcases h1 : visit deps depth id s with e | t
    · rw [h1] at h; cases h
    · rw [h1] at h
      obtain ⟨hext, hacc, hdone⟩ := hv h1 hs
      obtain ⟨hext', hacc', hall⟩ := ih h hacc
      refine ⟨hext.trans hext', hacc', fun x hx => ?_⟩
      rcases List.mem_cons.mp hx with rfl | hx
      · exact hext'.keeps _ _ hdone
      · exact hall x hx

/-- A visit without a find leaves its node done, and done nodes accessible. -/
theorem acc_of_visit {depth : ℕ} : ∀ {id : α} {s s' : Search α},
    visit deps depth id s = .ok s' → DoneAcc deps s →
      Extends s s' ∧ DoneAcc deps s' ∧ s'.state.get? id = some .done := by
  induction depth with
  | zero => intro id s s' h; cases h
  | succ depth ih =>
    intro id s s' h hs
    unfold visit at h
    rcases hm : s.state.get? id with _ | m
    · simp only [hm] at h
      rcases hf : (deps id).foldlM (fun s dep => visit deps depth dep s)
        ⟨s.state.set id .visiting, s.stack ++ [id]⟩ with e | t
      · rw [hf] at h; cases h
      rw [hf] at h
      cases h
      obtain ⟨hext, hacc, hall⟩ := foldlM_visit ih hf (doneAcc_mark hs)
      have hid : Acc (Function.swap (DependsOn deps)) id :=
        ⟨id, fun d hd => hacc d (hall d hd)⟩
      refine ⟨⟨?_, fun x m hx => ?_, fun x hx => ?_⟩, fun x hx => ?_, OrdMap.get?_set_self _ _ _⟩
      · rw [hext.stack]; exact List.dropLast_concat
      · have hne : id ≠ x := fun he => by rw [he, hx] at hm; cases hm
        rw [OrdMap.get?_set_ne _ _ hne]
        exact hext.keeps x m (by rw [OrdMap.get?_set_ne _ _ hne]; exact hx)
      · rw [OrdMap.get?_set] at hx
        split_ifs at hx with h1
        · cases hx
        · have := hext.visiting x hx
          rwa [OrdMap.get?_set_ne _ _ h1] at this
      · rw [OrdMap.get?_set] at hx
        split_ifs at hx with h1
        · exact h1 ▸ hid
        · exact hacc x hx
    · cases m with
      | visiting => simp only [hm] at h; cases h
      | done =>
        simp only [hm] at h
        cases h
        exact ⟨.refl s, hs, hm⟩

/-! ### The call depth -/

/-- The nodes of `U` without a mark. -/
def unmarked (U : List α) (s : Search α) : ℕ :=
  (U.filter fun x => (s.state.get? x).isNone).length

theorem unmarked_mono {U : List α} {s s' : Search α}
    (h : ∀ x m, s.state.get? x = some m → ∃ m', s'.state.get? x = some m') :
    unmarked U s' ≤ unmarked U s := by
  unfold unmarked
  refine (List.monotone_filter_right U fun x hx => ?_).length_le
  rcases hs : s.state.get? x with _ | m
  · rfl
  · obtain ⟨m', hm'⟩ := h x m hs
    rw [hm'] at hx; cases hx

theorem unmarked_set_lt {U : List α} {s : Search α} {id : α} (m : Mark) (stack : List α)
    (hU : id ∈ U) (h : s.state.get? id = none) :
    unmarked U ⟨s.state.set id m, stack⟩ < unmarked U s := by
  unfold unmarked
  have hsub : (U.filter fun x => ((s.state.set id m).get? x).isNone) =
      (U.filter fun x => (s.state.get? x).isNone).filter fun x => decide (x ≠ id) := by
    rw [List.filter_filter]
    refine List.filter_congr fun x _ => ?_
    by_cases hx : id = x
    · subst hx; simp
    · simp [OrdMap.get?_set_ne _ _ hx, Ne.symm hx]
  rw [hsub]
  refine List.length_filter_lt_length_iff_exists.mpr ⟨id, ?_, by simp⟩
  exact List.mem_filter.mpr ⟨hU, by simp [h]⟩

theorem unmarked_of_extends {U : List α} {s s' : Search α} (h : Extends s s') :
    unmarked U s' ≤ unmarked U s :=
  unmarked_mono fun x m hx => ⟨m, h.keeps x m hx⟩

theorem foldlM_visit_ne_outOfDepth {U : List α} {depth : ℕ}
    (hv : ∀ {id : α} {s : Search α}, id ∈ U → unmarked U s < depth → DoneAcc deps s →
      visit deps depth id s ≠ .error none) {ids : List α} :
    ∀ {s : Search α}, (∀ id ∈ ids, id ∈ U) → unmarked U s < depth → DoneAcc deps s →
      ids.foldlM (fun s id => visit deps depth id s) s ≠ .error none := by
  induction ids with
  | nil => intro s _ _ _ h; cases h
  | cons id ids ih =>
    intro s hids hlt hs h
    rw [List.foldlM_cons] at h
    rcases h1 : visit deps depth id s with e | t
    · rw [h1] at h
      exact hv (hids id (by simp)) hlt hs (h1.trans h)
    · rw [h1] at h
      obtain ⟨hext, hacc, -⟩ := acc_of_visit h1 hs
      exact ih (fun x hx => hids x (by simp [hx])) ((unmarked_of_extends hext).trans_lt hlt) hacc h

/-- **The depth suffices**: a call depth above the number of unmarked nodes is never used up. -/
theorem visit_ne_outOfDepth {U : List α} (hU : ∀ x ∈ U, ∀ d ∈ deps x, d ∈ U) {depth : ℕ} :
    ∀ {id : α} {s : Search α}, id ∈ U → unmarked U s < depth → DoneAcc deps s →
      visit deps depth id s ≠ .error none := by
  induction depth with
  | zero => intro id s _ h; omega
  | succ depth ih =>
    intro id s hid hlt hs h
    unfold visit at h
    rcases hm : s.state.get? id with _ | m
    · simp only [hm] at h
      have hlt1 : unmarked U ⟨s.state.set id .visiting, s.stack ++ [id]⟩ < depth := by
        have := unmarked_set_lt .visiting (s.stack ++ [id]) hid hm
        omega
      have hne := foldlM_visit_ne_outOfDepth ih (hU id hid) hlt1 (doneAcc_mark hs)
      rcases hf : (deps id).foldlM (fun s dep => visit deps depth dep s)
        ⟨s.state.set id .visiting, s.stack ++ [id]⟩ with e | t
      · rw [hf] at h
        cases h
        exact hne hf
      · rw [hf] at h; cases h
    · cases m with
      | visiting => simp only [hm] at h; cases h
      | done => simp only [hm] at h; cases h

/-! ### The search -/

theorem doneAcc_empty : DoneAcc deps ⟨OrdMap.empty, []⟩ := fun x hx => by cases hx

/-- **Soundness**: after a search without a find every root is accessible. -/
theorem acc_of_findCycle {U roots : List α} {depth : ℕ} (hroots : ∀ x ∈ roots, x ∈ U)
    (hU : ∀ x ∈ U, ∀ d ∈ deps x, d ∈ U) (hdepth : U.length < depth)
    (h : findCycle deps depth roots = none) :
    ∀ x ∈ roots, Acc (Function.swap (DependsOn deps)) x := by
  have hlt : unmarked U ⟨OrdMap.empty, []⟩ < depth :=
    (List.length_filter_le _ U).trans_lt hdepth
  have hne := foldlM_visit_ne_outOfDepth (visit_ne_outOfDepth hU) hroots hlt doneAcc_empty
  unfold findCycle at h
  rcases hf : roots.foldlM (fun s id => visit deps depth id s) ⟨OrdMap.empty, []⟩ with path | s
  · rw [hf] at h
    exact absurd (hf.trans (congrArg Except.error h)) hne
  · obtain ⟨-, hacc, hall⟩ := foldlM_visit acc_of_visit hf doneAcc_empty
    exact fun x hx => hacc x (hall x hx)

/-- If only roots have dependencies, a search without a find means that there is no cycle. -/
theorem acyclic_of_findCycle {U roots : List α} {depth : ℕ} (hroots : ∀ x ∈ roots, x ∈ U)
    (hU : ∀ x ∈ U, ∀ d ∈ deps x, d ∈ U) (hdepth : U.length < depth)
    (honly : ∀ x, deps x ≠ [] → x ∈ roots) (h : findCycle deps depth roots = none) :
    Acyclic deps := by
  intro x hx
  have hmem : x ∈ roots := by
    obtain ⟨d, hd⟩ : ∃ d, d ∈ deps x := by
      rcases TransGen.head'_iff.mp hx with ⟨d, hd, -⟩
      exact ⟨d, hd⟩
    exact honly x (List.ne_nil_of_mem hd)
  exact not_transGen_self_of_acc (acc_of_findCycle hroots hU hdepth h x hmem)
    (transGen_swap.mpr hx)

/-! ### The path that is found -/

/-- Along the path one element depends on the next, and it ends where it starts. -/
def IsCycle (r : α → α → Prop) (path : List α) : Prop :=
  ∃ a l, path = a :: (l ++ [a]) ∧ path.IsChain r

omit [DecidableEq α] in
theorem IsCycle.transGen {r : α → α → Prop} {path : List α} (h : IsCycle r path) :
    ∃ x, TransGen r x x := by
  obtain ⟨a, l, rfl, hchain⟩ := h
  have hwalk : ∀ (l : List α) (x : α), (x :: (l ++ [a])).IsChain r → TransGen r x a := by
    intro l
    induction l with
    | nil =>
      intro x hx
      exact .single (List.isChain_cons_cons.mp hx).1
    | cons y l ih =>
      intro x hx
      obtain ⟨hxy, hrest⟩ := List.isChain_cons_cons.mp hx
      exact .head hxy (ih y hrest)
  exact ⟨a, hwalk l a hchain⟩

/-- The nodes that are being visited are on the path of the search. -/
def OnStack (s : Search α) : Prop := ∀ x, s.state.get? x = some .visiting → x ∈ s.stack

theorem OnStack.of_extends {s s' : Search α} (hs : OnStack s) (h : Extends s s') : OnStack s' :=
  fun x hx => h.stack ▸ hs x (h.visiting x hx)

/-- A find of a loop is the find of one of its visits, after visits without a find. -/
theorem foldlM_visit_error {depth : ℕ} {ids path : List α} :
    ∀ {s : Search α}, ids.foldlM (fun s id => visit deps depth id s) s = .error (some path) →
      DoneAcc deps s → ∃ id ∈ ids, ∃ t, Extends s t ∧ DoneAcc deps t ∧
        visit deps depth id t = .error (some path) := by
  induction ids with
  | nil => intro s h; cases h
  | cons id ids ih =>
    intro s h hs
    rw [List.foldlM_cons] at h
    rcases h1 : visit deps depth id s with e | t
    · rw [h1] at h
      exact ⟨id, List.mem_cons_self, s, .refl s, hs, h1.trans h⟩
    · rw [h1] at h
      obtain ⟨hext, hacc, -⟩ := acc_of_visit h1 hs
      obtain ⟨x, hx, u, hext', hacc', hu⟩ := ih h hacc
      exact ⟨x, List.mem_cons_of_mem _ hx, u, hext.trans hext', hacc', hu⟩

/-- A visit that finds a path finds a cycle. -/
theorem isCycle_of_visit {depth : ℕ} {path : List α} : ∀ {id : α} {s : Search α},
    visit deps depth id s = .error (some path) → DoneAcc deps s → OnStack s →
      (s.stack ++ [id]).IsChain (DependsOn deps) → IsCycle (DependsOn deps) path := by
  induction depth with
  | zero => intro id s h; cases h
  | succ depth ih =>
    intro id s h hs hon hchain
    unfold visit at h
    rcases hm : s.state.get? id with _ | m
    · simp only [hm] at h
      rcases hf : (deps id).foldlM (fun s dep => visit deps depth dep s)
        ⟨s.state.set id .visiting, s.stack ++ [id]⟩ with e | t
      · rw [hf] at h
        have hfound := hf.trans (by cases h; rfl : _ = Except.error (some path))
        obtain ⟨dep, hdep, t, hext, hacc, hvisit⟩ := foldlM_visit_error hfound (doneAcc_mark hs)
        have hmarked : OnStack (⟨s.state.set id .visiting, s.stack ++ [id]⟩ : Search α) := by
          intro x hx
          rw [OrdMap.get?_set] at hx
          split_ifs at hx with hid
          · exact List.mem_append_right _ (List.mem_singleton.mpr hid.symm)
          · exact List.mem_append_left _ (hon x hx)
        refine ih hvisit hacc (hmarked.of_extends hext) ?_
        rw [hext.stack, List.append_assoc, List.singleton_append]
        exact List.isChain_split.mpr ⟨hchain, List.isChain_cons_cons.mpr
          ⟨hdep, List.isChain_singleton dep⟩⟩
      · rw [hf] at h
        cases h
    · cases m with
      | visiting =>
        simp only [hm] at h
        cases h
        have hdrop : s.stack.drop (s.stack.idxOf id) = id :: (s.stack.drop (s.stack.idxOf id)).tail := by
          have hlt := List.idxOf_lt_length_iff.mpr (hon id hm)
          rw [List.drop_eq_getElem_cons hlt, List.tail_cons, List.getElem_idxOf]
        refine ⟨id, (s.stack.drop (s.stack.idxOf id)).tail, ?_, ?_⟩
        · rw [← List.cons_append, ← hdrop]
        · refine hchain.suffix ⟨s.stack.take (s.stack.idxOf id), ?_⟩
          rw [← List.append_assoc, List.take_append_drop]
      | done =>
        simp only [hm] at h
        cases h

/-- **A path that is found is a cycle.** -/
theorem isCycle_of_findCycle {roots path : List α} {depth : ℕ}
    (h : findCycle deps depth roots = some path) : IsCycle (DependsOn deps) path := by
  unfold findCycle at h
  rcases hf : roots.foldlM (fun s id => visit deps depth id s) ⟨OrdMap.empty, []⟩ with found | s
  · rw [hf] at h
    obtain ⟨id, -, t, hext, hacc, hvisit⟩ :=
      foldlM_visit_error (hf.trans (congrArg Except.error h)) doneAcc_empty
    have hempty : OnStack (⟨OrdMap.empty, []⟩ : Search α) := fun x hx => by cases hx
    refine isCycle_of_visit hvisit hacc (hempty.of_extends hext) ?_
    rw [hext.stack]
    exact List.isChain_singleton id
  · rw [hf] at h
    cases h

end Norns.Lib.Cycle
