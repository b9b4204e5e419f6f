import Norns.Graph.Structure

/-! # Which edits are atomic

An edit that throws should leave the graph as it was. Every call but `removeNode` does; a removal
writes dependent by dependent and can throw between two writes. `AtomicWhen` says when it cannot:

* *reparent*: if the first dependent is editable, all are, so that the loop does not stop after a
  graft;
* *cascade*: either the chain of first dependents runs into a node that is not editable before
  anything is removed (`FirstBlocked`), or the removal goes through (`CascadeClear`): the whole cone
  of dependents is editable, and of two dependents of one node the later never depends on the
  earlier, since the earlier one's cascade would have removed it already.

`edits_lawful_atomic`: along every run of edits the graph stays well-formed, the version does not
decrease, and a throwing call that meets the condition changes nothing. -/

namespace Norns.Graph.Atomicity

open Relation Norns.Lib Norns.Lib.Edit Norns.Lib.Run Norns.Lib.Cycle
open Norns.Contracts.Plan (PlanContract PlanModule SchemaIssue validatePlan validatePlan_valid)
open Norns.Graph.Workflow Norns.Graph.Workflow.WorkflowGraph Norns.Graph.Structure

variable {g g' g'' : WorkflowGraph} {id y d : String} {R : Set String}

/-- A call that throws changes neither the nodes nor the version. -/
def Atomic (g : WorkflowGraph) (op : GraphOp) : Prop :=
  ∀ e, thrown? (perform op g) = some (.edit e) →
    (step g op).nodes = g.nodes ∧ (step g op).graphVersion = g.graphVersion

/-- The node and everything that depends on it, directly or through others. -/
def cone (g : WorkflowGraph) (id : String) : Set String := {y | ReflTransGen (Edge g) y id}

/-- The first call of the cascade that does not go on to a first dependent is refused. -/
inductive FirstBlocked (g : WorkflowGraph) : String → Prop
  | here {id : String} (h : g.editable id = false) : FirstBlocked g id
  | down {id d : String} {rest : List String} (hd : g.dependentsOf id = d :: rest)
      (h : FirstBlocked g d) : FirstBlocked g id

/-- No call of the cascade is refused. -/
structure CascadeClear (g : WorkflowGraph) (id : String) : Prop where
  editable : ∀ y ∈ cone g id, y ∈ g.nodes.keys → g.editable y = true
  ordered : ∀ z ∈ cone g id, (g.dependentsOf z).Pairwise fun earlier later =>
    ¬ TransGen (Edge g) later earlier

/-- The loop of a reparent does not stop after a graft. -/
def GraftsThrough (g : WorkflowGraph) (id : String) : Prop :=
  ∀ d rest, g.dependentsOf id = d :: rest → g.editable id = true → g.editable d = true →
    ∀ e ∈ rest, g.editable e = true

/-- **The condition** under which a call cannot throw half-way. -/
def AtomicWhen (g : WorkflowGraph) : GraphOp → Prop
  | .removeNode id (some .cascade) => FirstBlocked g id ∨ CascadeClear g id
  | .removeNode id (some .reparent) => GraftsThrough g id
  | _ => True

/-! ### A cascade that is refused at once -/

theorem cascade_blocked (h : FirstBlocked g id) : ∀ depth,
    Sat (removeNodeAt depth id (some .cascade)) g (fun _ _ => False) (fun _ g' => g' = g) := by
  induction h with
  | @here id h =>
    rintro (_ | depth)
    · rfl
    · refine sat_removeNodeAt (fun _ => rfl) (fun _ => rfl) (fun _ _ => rfl) (fun _ he _ => ?_)
        (fun _ he _ => ?_)
      · rw [he] at h; cases h
      · rw [he] at h; cases h
  | @down id d rest hd _ ih =>
    rintro (_ | depth)
    · rfl
    · refine sat_removeNodeAt (fun _ => rfl) (fun _ => rfl) (fun _ _ => rfl) (fun _ _ _ => ?_)
        (fun _ _ hc => ?_)
      · rw [hd, List.foldlM_cons, sat_bind, sat_bind]
        exact (ih depth).mono (fun _ _ hf => hf.elim) fun _ _ he => he
      · rcases hc with hc | hc
        · cases hc
        · rw [hd] at hc; cases hc

/-! ### A cascade that goes through -/

open Classical in
/-- `g'` is `g` without the nodes in `R`. -/
structure Without (g : WorkflowGraph) (R : Set String) (g' : WorkflowGraph) : Prop where
  entries : g'.nodes.entries = g.nodes.entries.filter fun e => decide (e.1 ∉ R)
  editable : ∀ y, g'.editable y = g.editable y

/-- With a node, everything that depends on it. -/
def UpClosed (g : WorkflowGraph) (R : Set String) : Prop := ∀ y d, d ∈ g.depsOf y → d ∈ R → y ∈ R

theorem upClosed_cone : UpClosed g (cone g id) := fun _ _ hd hR => ReflTransGen.head hd hR

theorem UpClosed.cone_subset (h : UpClosed g R) (hid : id ∈ R) : cone g id ⊆ R := by
  intro y hy
  replace hy : ReflTransGen (Edge g) y id := hy
  induction hy using ReflTransGen.head_induction_on with
  | refl => exact hid
  | head hab _ ih => exact h _ _ hab ih

theorem without_self (g : WorkflowGraph) : Without g ∅ g := by
  classical
  exact ⟨by simp, fun _ => rfl⟩

theorem Without.mem_keys (h : Without g R g') : y ∈ g'.nodes.keys ↔ y ∈ g.nodes.keys ∧ y ∉ R := by
  classical
  unfold OrdMap.keys
  rw [h.entries]
  simp only [List.mem_map, List.mem_filter, decide_eq_true_eq, Prod.exists, exists_and_right,
    exists_eq_right]

open Classical in
theorem Without.dependentsOf (h : Without g R g') (id : String) :
    g'.dependentsOf id = (g.dependentsOf id).filter fun y => decide (y ∉ R) := by
  unfold WorkflowGraph.dependentsOf
  rw [h.entries, List.filter_map, List.filter_filter, List.filter_filter]
  refine congrArg _ (List.filter_congr fun e _ => ?_)
  exact Bool.and_comm _ _

theorem Without.delete (h : Without g R g') (id : String) :
    Without g (insert id R) (g'.deleteNode id).bump := by
  classical
  refine ⟨?_, h.editable⟩
  show (g'.nodes.delete id).entries = _
  rw [OrdMap.entries_delete, h.entries, List.filter_filter]
  refine List.filter_congr fun e _ => ?_
  by_cases he : e.1 = id <;> simp [he]

/-- The cone of a node is the node and the cones of its dependents. -/
theorem mem_cone (id : String) : y ∈ cone g id ↔ y = id ∨ ∃ d ∈ g.dependentsOf id, y ∈ cone g d := by
  constructor
  · intro h
    rcases ReflTransGen.cases_tail h with h | ⟨d, hyd, hd⟩
    · exact .inl h.symm
    · exact .inr ⟨d, mem_dependentsOf.mpr hd, hyd⟩
  · rintro (rfl | ⟨d, hd, hyd⟩)
    · exact ReflTransGen.refl
    · exact ReflTransGen.tail hyd (mem_dependentsOf.mp hd)

theorem CascadeClear.of_dependent (h : CascadeClear g id) (hd : d ∈ g.dependentsOf id) :
    CascadeClear g d :=
  ⟨fun y hy => h.editable y ((mem_cone _).mpr (.inr ⟨d, hd, hy⟩)),
    fun z hz => h.ordered z ((mem_cone _).mpr (.inr ⟨d, hd, hz⟩))⟩

/-- **The cascade lemma**: in a graph from which the nodes of an up-closed `R` are already gone, a
clear cascade removes the cone of its node. -/
theorem cascade_clear (ha : Acyclic g) {depth : ℕ} : ∀ {id : String} {R : Set String}
    {g' : WorkflowGraph}, Without g R g' → UpClosed g R → id ∈ g.nodes.keys → id ∉ R →
    CascadeClear g id → coneCount g id < depth →
    Sat (removeNodeAt depth id (some .cascade)) g' (fun _ g'' => Without g (R ∪ cone g id) g'')
      (fun _ _ => False) := by
  classical
  induction depth with
  | zero => intro id R g' _ _ _ _ _ h; omega
  | succ depth ih =>
    intro id R g' hw hup hkey hR hclear hdepth
    have hdeps := hw.dependentsOf id
    have hmem : ∀ d ∈ g'.dependentsOf id, d ∈ g.dependentsOf id ∧ d ∉ R := fun d hd => by
      rw [hdeps] at hd
      simpa using List.mem_filter.mp hd
    have hpair : (g'.dependentsOf id).Pairwise fun earlier later =>
        ¬ TransGen (Edge g) later earlier := by
      rw [hdeps]
      exact (hclear.ordered id ReflTransGen.refl).filter _
    -- what is gone once the cones of `done` are removed
    set gone : List String → Set String := fun done => R ∪ {y | ∃ d ∈ done, y ∈ cone g d} with hgone
    have hlast : ∀ g'', Without g (gone (g'.dependentsOf id)) g'' →
        Without g (R ∪ cone g id) (g''.deleteNode id).bump := fun g'' h => by
      have hset : insert id (gone (g'.dependentsOf id)) = R ∪ cone g id := by
        ext y
        simp only [hgone, Set.mem_insert_iff, Set.mem_union, Set.mem_ofPred_eq, mem_cone id]
        constructor
        · rintro (h | h | ⟨d, hd, h⟩)
          · exact .inr (.inl h)
          · exact .inl h
          · exact .inr (.inr ⟨d, (hmem d hd).1, h⟩)
        · rintro (h | h | ⟨d, hd, h⟩)
          · exact .inr (.inl h)
          · exact .inl h
          · by_cases hdR : d ∈ R
            · exact .inr (.inl (hup.cone_subset hdR h))
            · exact .inr (.inr ⟨d, by rw [hdeps]; simp [hd, hdR], h⟩)
      exact hset ▸ h.delete id
    have hstart : Without g (gone []) g' := by simpa [hgone] using hw
    refine sat_removeNodeAt (fun hn => ?_) (fun he => ?_) (fun _ h => by cases h)
      (fun _ _ _ => ?_) (fun _ _ h => ?_)
    · exact OrdMap.get?_eq_none.mp hn (hw.mem_keys.mpr ⟨hkey, hR⟩)
    · rw [hw.editable, hclear.editable id ReflTransGen.refl hkey] at he
      cases he
    · refine (sat_foldlM (fun done _ g'' => Without g (gone done) g'') hstart ?_).mono
        (fun _ g'' h => hlast g'' h) fun _ _ h => h
      intro done d rest removed g'' hl hdone
      obtain ⟨hd, hdR⟩ := hmem d (by rw [hl]; simp)
      have hdkey : d ∈ g.nodes.keys := mem_keys_of_mem_depsOf (mem_dependentsOf.mp hd)
      have hnew : d ∉ gone done := by
        rintro (h | ⟨e, he, h⟩)
        · exact hdR h
        · have hnd := dependentsOf_nodup g' id
          rw [hl] at hpair hnd
          have hpre := (List.pairwise_append.mp hpair).2.2 e he d (by simp)
          rcases ReflTransGen.cases_head h with h | ⟨c, hc, hce⟩
          · exact List.disjoint_of_nodup_append hnd he (by simp [h])
          · exact hpre (TransGen.head' hc hce)
      have hupDone : UpClosed g (gone done) := by
        rintro a b hab (h | ⟨e, he, h⟩)
        · exact .inl (hup a b hab h)
        · exact .inr ⟨e, he, upClosed_cone a b hab h⟩
      have hlt := coneCount_lt ha hkey (mem_dependentsOf.mp hd)
      refine sat_bind.mpr ((ih hdone hupDone hdkey hnew (hclear.of_dependent hd) (by omega)).mono
        (fun _ g3 h => ?_) fun _ _ h => h)
      have hset : gone done ∪ cone g d = gone (done ++ [d]) := by
        ext y
        simp only [hgone, Set.mem_union, Set.mem_ofPred_eq, List.mem_append, List.mem_singleton,
          or_and_right, exists_or, exists_eq_left, or_assoc]
      exact hset ▸ h
    · rcases h with h | h
      · cases h
      · rw [h] at hlast ⊢
        exact hlast g' hstart

/-! ### Every edit -/

theorem atomic_of_unchanged {op : GraphOp}
    (h : Sat (perform op) g (fun _ _ => True) (fun _ g' => g' = g)) : Atomic g op := by
  intro e he
  unfold step
  rcases hp : perform op g with ⟨a, g'⟩ | ⟨e', g'⟩
  · rw [hp] at he; cases he
  · have := h.of_error hp
    subst this
    exact ⟨rfl, rfl⟩

/-- A removal that is no cascade and whose loop does not stop after a graft: one new version, or
nothing. -/
theorem removeNodeAt_grafts {mode : Option RemoveMode} (hm : mode ≠ some .cascade)
    (hop : mode = some .reparent → GraftsThrough g id) (depth : ℕ) :
    Sat (removeNodeAt (depth + 1) id mode) g (fun _ g' => g'.graphVersion = g.graphVersion + 1)
      (fun _ g' => g' = g) := by
  refine sat_removeNodeAt (fun _ => rfl) (fun _ => rfl) (fun _ _ => rfl)
    (fun _ _ hc => absurd hc hm) (fun _ hedit hgraft => (grafts_sat g id).mono
      (fun _ _ hg => congrArg (· + 1) hg.version) ?_)
  rintro e g' ⟨done, d, rest, hl, hg, hblocked, -⟩
  -- the first dependent was refused: any other would be editable with the first
  rcases done with _ | ⟨d', done⟩
  · exact hg.nil rfl
  · rcases hgraft with hr | hnil
    · have hfirst := hg.guarded d' (by simp)
      have := hop hr d' (done ++ d :: rest) (by rw [hl]; rfl) hedit hfirst d (by simp)
      rw [hblocked] at this
      cases this
    · rw [hnil] at hl; cases hl

/-- **The step lemma for atomicity.** -/
theorem atomic_of_atomicWhen (h : WellFormed g) {op : GraphOp} (hop : AtomicWhen g op) :
    Atomic g op := by
  refine atomic_of_unchanged ?_
  cases op with
  | addNode input => exact (addNode_sat g input).mono (fun _ _ _ => trivial) fun _ _ he => he.1
  | addEdge fromId toId =>
    exact (addEdge_sat g fromId toId).mono (fun _ _ _ => trivial) fun _ _ he => he.1
  | removeEdge fromId toId =>
    exact (removeEdge_sat g fromId toId).mono (fun _ _ _ => trivial) fun _ _ he => he.1
  | attachStateLookup lookup => trivial
  | markExecutionStarted => trivial
  | removeNode id mode =>
    refine sat_bind.mpr (sat_bind.mpr (sat_get.mpr ?_))
    by_cases hm : mode = some .cascade
    · subst hm
      rcases hop with hop | hop
      · exact (cascade_blocked hop _).mono (fun _ _ hf => hf.elim) fun _ _ he => he
      · by_cases hkey : id ∈ g.nodes.keys
        · have hcount := coneCount_le g id
          exact (cascade_clear h.acyclic (without_self g) (fun _ _ _ hf => hf) hkey (fun hf => hf)
            hop (by omega)).mono (fun _ _ _ => trivial) fun _ _ hf => hf.elim
        · exact sat_removeNodeAt (fun _ => rfl) (fun _ => rfl) (fun _ _ => rfl)
            (fun hk _ _ => absurd hk hkey) (fun hk _ _ => absurd hk hkey)
    · refine (removeNodeAt_grafts hm (fun hr => ?_) _).mono (fun _ _ _ => trivial) fun _ _ he => he
      subst hr
      exact hop

/-- **Edits of a validated plan's graph**: in every state of every run the next call leaves a
well-formed graph, does not lower the version and does not use up the call stack; and if it meets
the condition and throws, nodes and version are as before. -/
theorem edits_lawful_atomic {Input : Type} (safeParse : Input → Except (List SchemaIssue) PlanContract)
    (input : Input) (plan : PlanContract) (hplan : validatePlan safeParse input = .ok plan)
    (ops : List GraphOp) :
    WellFormed (fromPlan plan) ∧ Along step (fun g op =>
      Lawful g (step g op) ∧ thrown? (perform op g) ≠ some .callDepth ∧
        (AtomicWhen g op → Atomic g op)) (fromPlan plan) ops := by
  have hstart := wellFormed_fromPlan (validatePlan_valid hplan)
  have hlaw : ∀ g op, WellFormed g →
      Lawful g (step g op) ∧ thrown? (perform op g) ≠ some .callDepth := by
    intro g op hg
    have hs := lawful_perform hg op
    unfold step
    rcases hp : perform op g with ⟨a, g'⟩ | ⟨e, g'⟩
    · exact ⟨hs.of_ok hp, fun hc => by cases hc⟩
    · refine ⟨(hs.of_error hp).1, fun hc => (hs.of_error hp).2 ?_⟩
      simpa [thrown?] using hc
  refine ⟨hstart, along_of_invariant (I := WellFormed) (p := fun _ _ => True)
    (fun g op hg _ => (hlaw g op hg).1.wellFormed)
    (fun g op hg _ => ⟨(hlaw g op hg).1, (hlaw g op hg).2, atomic_of_atomicWhen hg⟩)
    hstart (along_of_forall (fun _ _ => trivial) ops _)⟩

/-- A module without requirements. -/
def plainModule (id : String) (dependencies : List String) : PlanModule :=
  ⟨id, id, dependencies, .M, .low, false⟩

/-- `b` depends on `x` directly and through `a`, which comes first. -/
def sharedPlan : PlanContract :=
  ⟨[plainModule "x" [], plainModule "a" ["x"], plainModule "b" ["x", "a"]]⟩

theorem edits_lawful_atomic_sharedPlan :
    WellFormed (fromPlan sharedPlan) ∧ Along step (fun g op =>
      Lawful g (step g op) ∧ thrown? (perform op g) ≠ some .callDepth ∧
        (AtomicWhen g op → Atomic g op)) (fromPlan sharedPlan) [.removeNode "x" none] :=
  edits_lawful_atomic (fun plan => .ok plan) sharedPlan sharedPlan rfl _

/-- The cascade of `a` removes `b`, and the loop over the dependents of `x` then looks for `b`. -/
theorem sharedPlan_cascade_not_atomic :
    ¬ ∀ (plan : PlanContract) (ops : List GraphOp),
      validatePlan (fun plan => .ok plan) plan = .ok plan → Along step Atomic (fromPlan plan) ops := by
  intro hall
  have h := (hall sharedPlan [.removeNode "x" (some .cascade)] rfl).1 (.unknown_node "b") rfl
  exact absurd h.2 (by decide)

end Norns.Graph.Atomicity
