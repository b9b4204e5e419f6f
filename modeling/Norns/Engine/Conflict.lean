import Norns.Lib.Cycle
import Norns.Engine.ErrorAtomicity

/-! # The dependency gate under conflict replacement

`integrateNode` and `spawnConflictNode` of `engine/integration.ts`: a node that does not merge cleanly
is blocked, a new node takes over its dependencies and its dependents, and the original is archived
as superseded.

* `Gated`: what every state satisfies as long as dependencies are rewired by this path only;
* `Gated.push`: an event keeps it, if a pending node gets ready only when its dependencies are
  integrated;
* `Gated.rewire`: so does each single rewiring, as the dependents of a node that is not integrated
  are pending or cancelled;
* `dependency_gate`: the runs. -/

namespace Norns.Engine.Conflict

open Relation
open Norns.Lib Norns.Lib.Edit Norns.Lib.Run Norns.Contracts Norns.Contracts.Lifecycle
open Norns.Contracts.Reducer Norns.Engine.Budget Norns.Engine.Workflow Norns.Engine.Resume
open Norns.Engine.ErrorAtomicity

/-! ### The integration step -/

inductive MergeResult
  | merged (commit : String)
  | conflict (conflict_files : List String)
  deriving DecidableEq, Repr

structure ConflictNodeSpec where
  conflictNodeId : String
  rewiredDependents : List String
  deriving DecidableEq, Repr

inductive IntegrateNodeResult
  | integrated (commit : String)
  | conflict (spec : ConflictNodeSpec)
  deriving DecidableEq, Repr

inductive IntegrationFailure
  | humanConfirmationRequired (nodeId : String)
  | engine (failure : EngineFailure)
  deriving DecidableEq

def dependenciesOf (nodeId : String) : Drive (List String) := do
  return (← requireMeta nodeId).dependencies

def conflictId (nodeId : String) : String := nodeId ++ "-conflict"

/-- One candidate of the loop over the node ids. -/
def rewireDependent (nodeId : String) (rewired : List String) (candidate : String) :
    Drive (List String) := do
  if candidate = conflictId nodeId then return rewired
  if nodeId ∈ (← dependenciesOf candidate) then
    replaceDependency candidate nodeId (conflictId nodeId)
    return rewired ++ [candidate]
  return rewired

/-- The conflict node inherits the dependencies, every dependent is rewired to it, and the original is
archived. -/
def spawnConflictNode (nodeId : String) : Drive ConflictNodeSpec := do
  let dependencies ← dependenciesOf nodeId
  registerNode (conflictId nodeId) dependencies
  let rewired ← (← get).nodeMeta.keys.foldlM (rewireDependent nodeId) []
  supersede nodeId
  return ⟨conflictId nodeId, rewired⟩

/-- The step of the engine after the branch was merged, or was not. -/
def settleMerge (nodeId : String) : MergeResult → Drive IntegrateNodeResult
  | .merged commit => do
    integrate nodeId
    return .integrated commit
  | .conflict _ => do
    block nodeId .integration
    let spec ← spawnConflictNode nodeId
    return .conflict spec

def integrateNode (nodeId : String) (isConflictResolution humanConfirmed : Bool)
    (merge : MergeResult) : EStateM IntegrationFailure WorkflowEngine IntegrateNodeResult := do
  if isConflictResolution && !humanConfirmed then throw (.humanConfirmationRequired nodeId)
  EStateM.adaptExcept .engine (settleMerge nodeId merge)

/-! ### Runs -/

/-- What may happen to an engine: a public operation, or an integration step. -/
inductive Move
  | operation (op : Op)
  | integrateNode (nodeId : String) (isConflictResolution humanConfirmed : Bool)
      (merge : MergeResult)
  deriving DecidableEq

/-- The operation changes dependencies. -/
def Rewires : Op → Prop
  | .registerNode _ _ | .replaceDependency _ _ _ => True
  | _ => False

def act (e : WorkflowEngine) : Move → WorkflowEngine
  | .operation op => step e op
  | .integrateNode nodeId isConflictResolution humanConfirmed merge =>
    after (integrateNode nodeId isConflictResolution humanConfirmed merge e)

/-- The current dependencies of a node. -/
def depsOf (e : WorkflowEngine) (nodeId : String) : List String :=
  ((e.nodeMeta.get? nodeId).map NodeMeta.dependencies).getD []

/-- Whatever left `pending` other than by being cancelled has integrated dependencies only. -/
def Gate (e : WorkflowEngine) : Prop :=
  ∀ n, state e n ≠ .pending → state e n ≠ .cancelled → ∀ d ∈ depsOf e n, state e d = .integrated

def Closed (e : WorkflowEngine) : Prop := ∀ n, ∀ d ∈ depsOf e n, d ∈ e.nodeMeta.keys

/-- No node depends on an archived one. -/
def NoneArchived (e : WorkflowEngine) : Prop := ∀ n, ∀ d ∈ depsOf e n, state e d ≠ .superseded

/-- **The invariant.** `archives` says whether nodes are superseded outside the conflict path. -/
structure Gated (archives : Prop) (e : WorkflowEngine) : Prop where
  gate : Gate e
  closed : Closed e
  acyclic : Cycle.Acyclic (depsOf e)
  /-- A pending node can remember `pending` only, and `superseded` is remembered by a superseded node
  only: neither is resumed to. -/
  memory : ∀ n target, blockedFrom e n = some target →
    (state e n = .pending → target = .pending) ∧ (target = .superseded → state e n = .superseded)
  noneArchived : ¬ archives → NoneArchived e

section

variable {archives : Prop} {e e' : WorkflowEngine} {n k x d : String} {target : NodeState}
  {f : NodeMeta → NodeMeta}

theorem state_congr (hlog : e'.log = e.log) : state e' k = state e k := by
  unfold state
  rw [hlog]

theorem depsOf_congr (h : e'.nodeMeta = e.nodeMeta) : depsOf e' k = depsOf e k := by
  unfold depsOf
  rw [h]

theorem depsOf_of_get? {m : NodeMeta} (h : e.nodeMeta.get? n = some m) :
    depsOf e n = m.dependencies := by
  unfold depsOf
  rw [h]
  rfl

theorem mem_keys_of_mem_depsOf (h : d ∈ depsOf e n) : n ∈ e.nodeMeta.keys := by
  unfold depsOf at h
  rcases hm : e.nodeMeta.get? n with _ | m
  · rw [hm] at h
    cases h
  · exact OrdMap.mem_keys.mpr ⟨m, hm⟩

theorem depsOf_updateMeta (hf : ∀ m, (f m).dependencies = m.dependencies) :
    depsOf (e.updateMeta n f) k = depsOf e k := by
  unfold depsOf
  rw [WorkflowEngine.updateMeta_get?]
  split
  · rcases e.nodeMeta.get? k with _ | m
    · rfl
    · simp [hf]
  · rfl

/-! ### Writes beside the log -/

/-- The invariant reads the states, the names, the dependencies and the memory. -/
theorem Gated.congr (h : Gated archives e) (hlog : e'.log = e.log)
    (hkeys : ∀ k, k ∈ e'.nodeMeta.keys ↔ k ∈ e.nodeMeta.keys)
    (hdeps : ∀ k, depsOf e' k = depsOf e k)
    (hmemory : ∀ n target, blockedFrom e' n = some target → blockedFrom e n = some target ∨
      target = state e n) : Gated archives e' where
  gate := by
    intro n hp hc d hd
    rw [state_congr hlog] at hp hc ⊢
    rw [hdeps] at hd
    exact h.gate n hp hc d hd
  closed := by
    intro n d hd
    rw [hdeps] at hd
    exact (hkeys d).mpr (h.closed n d hd)
  acyclic := h.acyclic.map id fun x d hd => by rwa [hdeps] at hd
  memory := by
    intro n target hm
    rw [state_congr hlog]
    rcases hmemory n target hm with hm | rfl
    · exact h.memory n target hm
    · exact ⟨fun hp => hp, fun hs => hs⟩
  noneArchived := by
    intro ha n d hd
    rw [hdeps] at hd
    rw [state_congr hlog]
    exact h.noneArchived ha n d hd

theorem Gated.meter (h : Gated archives e) (l : BudgetLedger) (n : String)
    (reservation : Option String) : Gated archives (e.meter l n reservation) := by
  refine h.congr WorkflowEngine.updateMeta_log (fun k => WorkflowEngine.updateMeta_mem_keys)
    (fun k => depsOf_updateMeta fun _ => rfl) fun k target hm => .inl ?_
  rwa [blockedFrom_meter] at hm

theorem Gated.remember (h : Gated archives e) (n : String) : Gated archives (e.remember n) := by
  refine h.congr WorkflowEngine.updateMeta_log (fun k => WorkflowEngine.updateMeta_mem_keys)
    (fun k => depsOf_updateMeta fun _ => rfl) fun k target hm => ?_
  by_cases hk : n = k
  · subst hk
    by_cases hn : n ∈ e.nodeMeta.keys
    · rw [blockedFrom_remember hn] at hm
      exact .inr (Option.some.inj hm).symm
    · have hmem := mem_keys_of_blockedFrom hm
      exact absurd (WorkflowEngine.updateMeta_mem_keys.mp hmem) hn
  · rw [blockedFrom_remember_ne hk] at hm
    exact .inl hm

theorem Gated.forget (h : Gated archives e) (n : String) : Gated archives (e.forget n) := by
  refine h.congr WorkflowEngine.updateMeta_log (fun k => WorkflowEngine.updateMeta_mem_keys)
    (fun k => depsOf_updateMeta fun _ => rfl) fun k target hm => .inl ?_
  rw [blockedFrom_forget] at hm
  split at hm
  · cases hm
  · exact hm

/-! ### Events -/

theorem canTransition_integrated (s : NodeState) : canTransition .integrated s = false := by
  cases s <;> rfl

theorem canTransition_cancelled (s : NodeState) : canTransition .cancelled s = false := by
  cases s <;> rfl

theorem canTransition_superseded (s : NodeState) : canTransition .superseded s = false := by
  cases s <;> rfl

theorem canTransition_pending {s : NodeState} (h : canTransition .pending s = true) :
    s = .ready ∨ s = .cancelled := by
  revert h
  cases s <;> decide

/-- **An event** keeps the invariant. -/
theorem Gated.push (h : Gated archives e) (can : canTransition (state e n) target = true)
    (hready : state e n = .pending → target = .ready → ∀ d ∈ depsOf e n, state e d = .integrated)
    (harchive : ¬ archives → target = .superseded → ∀ x, n ∉ depsOf e x) (reason : Option String) :
    Gated archives (e.push n target reason) := by
  -- an integrated node stays so
  have hstays : ∀ d, state e d = .integrated → state (e.push n target reason) d = .integrated := by
    intro d hd
    by_cases hk : n = d
    · rw [hk, hd, canTransition_integrated] at can
      cases can
    · rw [state_push_ne hk, hd]
  refine ⟨?_, h.closed, h.acyclic, ?_, ?_⟩
  · intro k hp hc d hd
    apply hstays
    by_cases hk : n = k
    · subst hk
      rw [state_push can] at hp hc
      by_cases hpending : state e n = .pending
      · rw [hpending] at can
        rcases canTransition_pending can with ht | ht
        · exact hready hpending ht d hd
        · exact absurd ht hc
      · refine h.gate n hpending (fun hcancelled => ?_) d hd
        rw [hcancelled, canTransition_cancelled] at can
        cases can
    · rw [state_push_ne hk] at hp hc
      exact h.gate k hp hc d hd
  · intro k t ht
    by_cases hk : n = k
    · subst hk
      rw [state_push can]
      refine ⟨fun hpending => ?_, fun hs => ?_⟩
      · rw [hpending, no_way_back] at can
        cases can
      · rw [(h.memory n t ht).2 hs, canTransition_superseded] at can
        cases can
    · rw [state_push_ne hk]
      exact h.memory k t ht
  · intro ha k d hd
    by_cases hk : n = d
    · subst hk
      rw [state_push can]
      exact fun hs => harchive ha hs k hd
    · rw [state_push_ne hk]
      exact h.noneArchived ha k d hd

/-- An append of neither `ready` nor `superseded`. -/
theorem Gated.append (hw : Wf e) (h : Gated archives e) (hr : target ≠ .ready)
    (hs : target ≠ .superseded) : Gated archives (after (append n target none e)) := by
  rcases after_append hw n target with ⟨can, he⟩ | ⟨-, he⟩
  · rw [he]
    exact h.push can.allowed (fun _ ht => absurd ht hr) (fun _ ht => absurd ht hs) none
  · rw [he]
    exact h

/-! ### The cascade -/

theorem Gated.cascadeReady (hw : Wf e) (h : Gated archives e) :
    Gated archives (after (cascadeReady e)) := by
  refine Sat.after ?_
  unfold Workflow.cascadeReady
  rw [sat_bind, sat_get]
  split
  swap
  · exact h
  rw [sat_bind, sat_get]
  refine (sat_foldlM (fun _ _ s => Wf s ∧ Gated archives s ∧ s.nodeMeta = e.nodeMeta) ⟨hw, h, rfl⟩
    fun done entry rest _ s hentries hs => ?_).mono (fun _ _ hs => hs.2.1) fun _ s hs => hs
  obtain ⟨hw', h', hmeta⟩ := hs
  have hget : s.nodeMeta.get? entry.1 = some entry.2 := by
    rw [hmeta, ← OrdMap.mem_entries, hentries]
    exact List.mem_append_right _ List.mem_cons_self
  unfold Sat
  by_cases hlegible : Legible s
  · rcases cascadeNode_of_legible hw' hlegible (OrdMap.mem_keys.mpr ⟨_, hget⟩) entry.2 with
      ⟨⟨hpending, hdeps⟩, hc⟩ | ⟨-, hc⟩
    · rw [hc]
      have can : CanAppend s entry.1 .ready :=
        ⟨OrdMap.mem_keys.mpr ⟨_, hget⟩, hlegible, by rw [hpending]; rfl⟩
      refine ⟨hw'.push can none fun ht => NodeState.noConfusion ht,
        h'.push can.allowed (fun _ _ d hd => ?_) (fun _ ht => NodeState.noConfusion ht) none, hmeta⟩
      rw [depsOf_of_get? hget] at hd
      exact hdeps d hd
    · rw [hc]
      exact ⟨hw', h', hmeta⟩
  · obtain ⟨error, hc⟩ := cascadeNode_of_not_legible hw' hlegible entry.2
    rw [hc]
    exact h'

/-! ### Operations -/

theorem Gated.block (hw : Wf e) (h : Gated archives e) (reason : BlockedReason) :
    Gated archives (after (block n reason e)) := by
  have hresult := block_result hw n reason
  generalize Workflow.block n reason e = r at hresult
  rcases hresult with can | ⟨error, -, -, -⟩ | ⟨error, -⟩
  · refine (h.remember n).push ?_ (fun _ ht => NodeState.noConfusion ht)
      (fun _ ht => NodeState.noConfusion ht) _
    have hstate : state (e.remember n) n = state e n := state_updateMeta
    rw [hstate]
    exact can.allowed
  · exact h.remember n
  · exact h

theorem Gated.resume (hw : Wf e) (h : Gated archives e) : Gated archives (after (resume n e)) := by
  have hresult := resume_result hw n
  generalize Workflow.resume n e = r at hresult
  rcases hresult with ⟨target, hfrom, can⟩ | ⟨error, target, -, -⟩ | ⟨error, -⟩
  · have hstate : state (e.forget n) n = state e n := state_updateMeta
    have hmemory := h.memory n target hfrom
    refine (h.forget n).push ?_ (fun hp ht => ?_) (fun _ ht => ?_) none
    · rw [hstate]
      exact can.allowed
    · rw [hstate] at hp
      exact NodeState.noConfusion (ht.symm.trans (hmemory.1 hp))
    · have hallowed := can.allowed
      rw [hmemory.2 ht, canTransition_superseded] at hallowed
      cases hallowed
  · exact h.forget n
  · exact h

theorem Gated.startRun {max : ℚ} (hw : Wf e) (h : Gated archives e) :
    Gated archives (after (startRun n max e)) := by
  have hresult := startRun_result hw n max
  generalize Workflow.startRun n max e = r at hresult
  rcases hresult with ⟨-, -, can⟩ | ⟨error, -, -, -, -⟩ | ⟨killSwitch, -, -, -, can⟩ |
    ⟨failure, -, -, -, -, -, -⟩ | ⟨failure, -⟩
  · exact (h.meter _ n _).push (canAppend_meter.mpr can).allowed
      (fun _ ht => NodeState.noConfusion ht) (fun _ ht => NodeState.noConfusion ht) none
  · exact h.meter _ n _
  · have hstate : state (e.remember n) n = state e n := state_updateMeta
    have hallowed : canTransition (state (e.remember n) n) .blocked = true := by
      rw [hstate]
      exact can.allowed
    refine ((h.remember n).push hallowed (fun _ ht => NodeState.noConfusion ht)
      (fun _ ht => NodeState.noConfusion ht) (some BlockedReason.budget.text)).congr rfl
        (fun k => Iff.rfl) (fun k => rfl) fun k target hm => .inl hm
  · exact h.remember n
  · exact h

theorem Gated.completeRun {actual : ℚ} (hw : Wf e) (h : Gated archives e) :
    Gated archives (after (completeRun n actual e)) := by
  have hcompletes := completeRun_completes hw n actual
  generalize after (Workflow.completeRun n actual e) = e' at hcompletes
  rcases hcompletes with _ | ⟨-, -, hc⟩ | _ | ⟨-, -, -, hc⟩
  · exact h
  · rcases hc with ⟨can, he⟩ | he
    · rw [he]
      exact h.push can.allowed (fun _ ht => NodeState.noConfusion ht)
        (fun _ ht => NodeState.noConfusion ht) none
    · rw [he]
      exact h
  · exact h
  · rcases hc with ⟨can, he⟩ | ⟨-, he⟩
    · rw [he]
      exact (h.meter _ n _).push (canAppend_meter.mpr can).allowed
        (fun _ ht => NodeState.noConfusion ht) (fun _ ht => NodeState.noConfusion ht) none
    · rw [he]
      exact h.meter _ n _

theorem Gated.integrate (hw : Wf e) (h : Gated archives e) :
    Gated archives (after (integrate n e)) := by
  unfold Workflow.integrate
  rcases append_cases hw n .integrated none with ⟨can, happ⟩ | ⟨-, error, -, happ⟩
  · rw [bind_of_ok happ]
    exact Gated.cascadeReady (hw.push can none fun ht => NodeState.noConfusion ht)
      (h.push can.allowed (fun _ ht => NodeState.noConfusion ht)
        (fun _ ht => NodeState.noConfusion ht) none)
  · rw [bind_of_error happ]
    exact h

theorem Gated.start {planHash allocationHash : Option String} (hw : Wf e) (h : Gated archives e) :
    Gated archives (after (start planHash allocationHash e)) := by
  have hstarted : Gated archives { e with started := true } :=
    h.congr rfl (fun k => Iff.rfl) (fun k => rfl) fun k target hm => .inl hm
  unfold Workflow.start
  rw [get_bind, get_bind]
  rcases e.approvals.get? .plan with _ | plan
  · exact h
  rcases e.approvals.get? .allocation with _ | allocation
  · exact h
  dsimp only
  rcases planHash.any fun hash => plan.content_hash ≠ hash with _ | _
  · rcases allocationHash.any fun hash => allocation.content_hash ≠ hash with _ | _
    · have hw' : Wf { e with started := true } := hw.of_same rfl rfl rfl rfl
      exact Gated.cascadeReady hw' hstarted
    · exact h
  · exact h

/-- **Every operation** that does not change dependencies keeps the invariant. -/
theorem Gated.step (hw : Wf e) (h : Gated archives e) {op : Op} (hop : ¬ Rewires op)
    (harchive : ∀ n, op = .supersede n → archives) : Gated archives (step e op) := by
  rcases op with approval | _ | _ | ⟨n, deps⟩ | ⟨n, oldDep, newDep⟩ | ⟨ph, ah⟩ | n | ⟨n, max⟩ |
    ⟨n, actual⟩ | ⟨n, passed⟩ | ⟨n, decision⟩ | n | ⟨n, reason⟩ | n | n | n
  · exact h.congr rfl (fun k => Iff.rfl) (fun k => rfl) fun k target hm => .inl hm
  · exact h.congr rfl (fun k => Iff.rfl) (fun k => rfl) fun k target hm => .inl hm
  · exact h.congr rfl (fun k => Iff.rfl) (fun k => rfl) fun k target hm => .inl hm
  · exact absurd trivial hop
  · exact absurd trivial hop
  · exact h.start hw
  · exact Gated.append hw h NodeState.noConfusion NodeState.noConfusion
  · rw [step_startRun]
    exact h.startRun hw
  · exact h.completeRun hw
  · rcases passed with _ | _ <;> exact Gated.append hw h NodeState.noConfusion NodeState.noConfusion
  · rcases decision with _ | _ <;>
      exact Gated.append hw h NodeState.noConfusion NodeState.noConfusion
  · exact h.integrate hw
  · exact h.block hw reason
  · exact h.resume hw
  · exact Gated.append hw h NodeState.noConfusion NodeState.noConfusion
  · show Gated archives (after (Workflow.append n .superseded none e))
    rcases after_append hw n .superseded with ⟨can, he⟩ | ⟨-, he⟩
    · rw [he]
      exact h.push can.allowed (fun _ ht => NodeState.noConfusion ht)
        (fun ha => absurd (harchive n rfl) ha) none
    · rw [he]
      exact h

/-! ### The conflict node -/

theorem dependenciesOf_of_mem (h : n ∈ e.nodeMeta.keys) :
    dependenciesOf n e = .ok (depsOf e n) e := by
  obtain ⟨m, hm⟩ := OrdMap.mem_keys.mp h
  unfold dependenciesOf
  rw [bind_of_ok (requireMeta_of_mem hm), depsOf_of_get? hm]
  rfl

theorem dependenciesOf_of_notMem (h : n ∉ e.nodeMeta.keys) :
    ∃ error, dependenciesOf n e = .error error e := by
  obtain ⟨error, -, hr⟩ := requireMeta_of_notMem h
  exact ⟨error, bind_of_error hr⟩

/-- The new entry takes over the dependencies of `n`. -/
def inherit (e : WorkflowEngine) (c n : String) : WorkflowEngine :=
  { e with nodeMeta := e.nodeMeta.set c (.new (depsOf e n)) }

theorem depsOf_inherit {c : String} :
    depsOf (inherit e c n) k = if c = k then depsOf e n else depsOf e k := by
  unfold inherit depsOf
  dsimp only
  rw [OrdMap.get?_set]
  split <;> rfl

/-- What the conflict node stands for. -/
def original (c n k : String) : String := if c = k then n else k

/-- The dependencies of `e'` are those of `e`, up to the conflict node. -/
def StandsFor (e : WorkflowEngine) (c n : String) (e' : WorkflowEngine) : Prop :=
  ∀ k, ∀ d ∈ depsOf e' k, original c n d ∈ depsOf e (original c n k)

theorem StandsFor.acyclic {c : String} (h : StandsFor e c n e') (ha : Cycle.Acyclic (depsOf e)) :
    Cycle.Acyclic (depsOf e') :=
  ha.map (original c n) h

theorem standsFor_inherit {c : String} (hclosed : Closed e) (hc : c ∉ e.nodeMeta.keys) :
    StandsFor e c n (inherit e c n) := by
  -- nothing depends on the new name yet
  have hold : ∀ k, ∀ d ∈ depsOf e k, original c n d = d := by
    intro k d hd
    refine if_neg fun hk => ?_
    subst hk
    exact hc (hclosed k _ hd)
  intro k d hd
  rw [depsOf_inherit] at hd
  unfold original
  split at hd
  · rename_i hk
    rw [if_pos hk]
    have heq := hold n d hd
    unfold original at heq
    rw [heq]
    exact hd
  · rename_i hk
    rw [if_neg hk]
    have heq := hold k d hd
    unfold original at heq
    rw [heq]
    exact hd

theorem gated_inherit {c : String} (hw : Wf e) (h : Gated archives e) (hc : c ∉ e.nodeMeta.keys) :
    Gated archives (inherit e c n) where
  gate := by
    intro k hp hcancelled d hd
    rw [depsOf_inherit] at hd
    split at hd
    · rename_i hk
      subst hk
      exact absurd (hw.state_pending hc) hp
    · exact h.gate k hp hcancelled d hd
  closed := by
    intro k d hd
    rw [depsOf_inherit] at hd
    refine OrdMap.mem_keys_set.mpr (.inr ?_)
    split at hd
    · exact h.closed n d hd
    · exact h.closed k d hd
  acyclic := (standsFor_inherit h.closed hc).acyclic h.acyclic
  memory := by
    intro k target hm
    refine h.memory k target ?_
    unfold inherit blockedFrom at hm
    dsimp only at hm
    rw [OrdMap.get?_set] at hm
    split at hm
    · cases hm
    · exact hm
  noneArchived := by
    intro ha k d hd
    rw [depsOf_inherit] at hd
    split at hd
    · exact h.noneArchived ha n d hd
    · exact h.noneArchived ha k d hd

theorem cascades_state (h : Cascades e e') (k : String) :
    state e' k = state e k ∨ (state e k = .pending ∧ state e' k = .ready) := by
  induction h with
  | refl => exact .inl rfl
  | @ready e'' n _ can pending ih =>
    by_cases hk : n = k
    · subst hk
      rw [state_push can.allowed]
      rcases ih with hs | ⟨hp, -⟩
      · exact .inr ⟨hs.symm.trans pending, rfl⟩
      · exact .inr ⟨hp, rfl⟩
    · rw [state_push_ne hk]
      exact ih

/-! ### The dependents -/

theorem depsOf_rewire {oldDep newDep : String} : depsOf (e.rewire n oldDep newDep) k =
    if n = k then (depsOf e k).map fun dep => if dep = oldDep then newDep else dep
    else depsOf e k := by
  unfold depsOf WorkflowEngine.rewire
  rw [WorkflowEngine.updateMeta_get?]
  split
  · rcases e.nodeMeta.get? k with _ | m
    · rfl
    · rfl
  · rfl

/-- A dependent of a node that is not integrated has not started: it may be rewired. -/
theorem Gated.rewire {c : String} (h : Gated archives e) (hdep : n ∈ depsOf e x)
    (hn : state e n ≠ .integrated) (hc : c ∈ e.nodeMeta.keys) (hfresh : state e c ≠ .superseded)
    (hacyclic : Cycle.Acyclic (depsOf (e.rewire x n c))) : Gated archives (e.rewire x n c) := by
  have hstate : ∀ k, state (e.rewire x n c) k = state e k := fun k => state_updateMeta
  refine ⟨?_, ?_, hacyclic, ?_, ?_⟩
  · intro k hp hcancelled d hd
    rw [hstate] at hp hcancelled ⊢
    rw [depsOf_rewire] at hd
    split at hd
    · rename_i hk
      subst hk
      exact absurd (h.gate x hp hcancelled n hdep) hn
    · exact h.gate k hp hcancelled d hd
  · intro k d hd
    refine WorkflowEngine.updateMeta_mem_keys.mpr ?_
    rw [depsOf_rewire] at hd
    split at hd
    · obtain ⟨dep, hdep, rfl⟩ := List.mem_map.mp hd
      split
      · exact hc
      · exact h.closed k dep hdep
    · exact h.closed k d hd
  · intro k target hm
    have hkeep : blockedFrom (e.rewire x n c) k = blockedFrom e k := blockedFrom_keep fun _ => rfl
    rw [hstate]
    exact h.memory k target (hkeep.symm.trans hm)
  · intro ha k d hd
    rw [hstate]
    rw [depsOf_rewire] at hd
    split at hd
    · obtain ⟨dep, hdep, rfl⟩ := List.mem_map.mp hd
      split
      · exact hfresh
      · exact h.noneArchived ha k dep hdep
    · exact h.noneArchived ha k d hd

/-- The loop over the node ids `all`: `done` were worked off. -/
structure Rewiring (archives : Prop) (e : WorkflowEngine) (c n : String) (all done : List String)
    (s : WorkflowEngine) : Prop where
  wf : Wf s
  gated : Gated archives s
  standsFor : StandsFor e c n s
  blocked : state s n = .blocked
  fresh : state s c ≠ .superseded
  registered : c ∈ s.nodeMeta.keys
  known : ∀ k ∈ s.nodeMeta.keys, k ∈ all
  cleared : ∀ k ∈ done, n ∉ depsOf s k

/-- A node that stands for a dependent of `n` depends on `n`, unless it is the conflict node. -/
theorem StandsFor.rewire {c : String} (h : StandsFor e c n e') (hdep : n ∈ depsOf e' x) :
    StandsFor e c n (e'.rewire x n c) := by
  have hself : original c n n = n := by
    unfold original
    split <;> rfl
  intro k d hd
  rw [depsOf_rewire] at hd
  split at hd
  · rename_i hk
    subst hk
    obtain ⟨dep, hmem, rfl⟩ := List.mem_map.mp hd
    split
    · -- the conflict node stands for `n`
      have hold := h x n hdep
      rw [hself] at hold
      unfold original at hold ⊢
      rw [if_pos rfl]
      exact hold
    · exact h x dep hmem
  · exact h k d hd

theorem Rewiring.step {all done : List String} {s : WorkflowEngine}
    (hacyclic : Cycle.Acyclic (depsOf e)) (hn : n ∈ e.nodeMeta.keys)
    (hnew : conflictId n ∉ e.nodeMeta.keys) (h : Rewiring archives e (conflictId n) n all done s)
    (rewired : List String) (x : String) :
    Sat (rewireDependent n rewired x) s
      (fun _ s' => Rewiring archives e (conflictId n) n all (done ++ [x]) s')
      fun _ s' => Wf s' ∧ Gated archives s' := by
  have hne : n ≠ conflictId n := fun heq => hnew (heq ▸ hn)
  -- nothing is done if the candidate does not depend on `n`
  have hskip : n ∉ depsOf s x → Rewiring archives e (conflictId n) n all (done ++ [x]) s := by
    intro hnot
    refine ⟨h.wf, h.gated, h.standsFor, h.blocked, h.fresh, h.registered, h.known,
      fun k hk => ?_⟩
    rcases List.mem_append.mp hk with hk | hk
    · exact h.cleared k hk
    · rw [List.mem_singleton.mp hk]
      exact hnot
  unfold rewireDependent
  by_cases hx : x = conflictId n
  · rw [if_pos hx]
    refine hskip fun hdep => ?_
    -- the conflict node would stand for a node that depends on itself
    have hself := h.standsFor x n hdep
    unfold original at hself
    rw [if_neg hne.symm, if_pos hx.symm] at hself
    exact hacyclic n (TransGen.single hself)
  · rw [if_neg hx]
    by_cases hmem : x ∈ s.nodeMeta.keys
    · rw [sat_bind_of_ok (dependenciesOf_of_mem hmem)]
      by_cases hdep : n ∈ depsOf s x
      · rw [if_pos hdep]
        obtain ⟨m, hm⟩ := OrdMap.mem_keys.mp hmem
        have hreplace : replaceDependency x n (conflictId n) s =
            .ok () (s.rewire x n (conflictId n)) := by
          unfold replaceDependency
          rw [bind_of_ok (requireMeta_of_mem hm)]
          rfl
        rw [sat_bind_of_ok hreplace, sat_pure]
        have hstands := h.standsFor.rewire hdep
        have hstate : ∀ k, state (s.rewire x n (conflictId n)) k = state s k :=
          fun k => state_updateMeta
        refine ⟨h.wf.rewire x n _, h.gated.rewire hdep ?_ h.registered h.fresh
          (hstands.acyclic hacyclic), hstands, ?_, ?_,
          WorkflowEngine.updateMeta_mem_keys.mpr h.registered,
          fun k hk => h.known k (WorkflowEngine.updateMeta_mem_keys.mp hk), fun k hk => ?_⟩
        · rw [h.blocked]
          exact NodeState.noConfusion
        · rw [hstate]
          exact h.blocked
        · rw [hstate]
          exact h.fresh
        · rw [depsOf_rewire]
          split
          · rintro hin
            obtain ⟨dep, -, heq⟩ := List.mem_map.mp hin
            split at heq
            · exact hne heq.symm
            · rename_i hdn
              exact hdn heq
          · rename_i hxk
            rcases List.mem_append.mp hk with hk | hk
            · exact h.cleared k hk
            · exact absurd (List.mem_singleton.mp hk).symm hxk
      · rw [if_neg hdep]
        exact hskip hdep
    · obtain ⟨error, hr⟩ := dependenciesOf_of_notMem hmem
      rw [sat_bind_of_error hr]
      exact ⟨h.wf, h.gated⟩

/-- **Replacement** keeps the invariant, also where it throws half way. -/
theorem Gated.spawnConflictNode (hw : Wf e) (h : Gated archives e) (hb : state e n = .blocked) :
    Wf (after (spawnConflictNode n e)) ∧ Gated archives (after (spawnConflictNode n e)) := by
  refine Sat.after (P := fun s => Wf s ∧ Gated archives s) ?_
  unfold Conflict.spawnConflictNode
  by_cases hn : n ∈ e.nodeMeta.keys
  swap
  · obtain ⟨error, hr⟩ := dependenciesOf_of_notMem hn
    rw [sat_bind_of_error hr]
    exact ⟨hw, h⟩
  rw [sat_bind_of_ok (dependenciesOf_of_mem hn)]
  by_cases hnew : conflictId n ∈ e.nodeMeta.keys
  · -- the name is taken
    have hr : ∃ error, registerNode (conflictId n) (depsOf e n) e = .error error e := by
      unfold registerNode
      rw [get_bind, if_pos (OrdMap.has_iff.mpr hnew)]
      exact ⟨_, rfl⟩
    obtain ⟨error, hr⟩ := hr
    rw [sat_bind_of_error hr]
    exact ⟨hw, h⟩
  have hregister : registerNode (conflictId n) (depsOf e n) e =
      Workflow.cascadeReady (inherit e (conflictId n) n) := by
    unfold registerNode
    rw [get_bind, if_neg fun hmem => hnew (OrdMap.has_iff.mp hmem)]
    rfl
  have hwi : Wf (inherit e (conflictId n) n) := hw.register hnew _
  have hgated := Gated.cascadeReady hwi (gated_inherit hw h hnew)
  have hcascades := cascadeReady_cascades hwi
  have hwc := hcascades.wf hwi
  rcases hc : Workflow.cascadeReady (inherit e (conflictId n) n) with ⟨u, s⟩ | ⟨error, s⟩
  swap
  · rw [sat_bind_of_error (hregister.trans hc)]
    rw [hc] at hgated hwc
    exact ⟨hwc, hgated⟩
  rw [hc] at hgated hcascades hwc
  replace hcascades : Cascades (inherit e (conflictId n) n) s := hcascades
  rw [sat_bind_of_ok (hregister.trans hc), sat_bind, sat_get]
  -- only pending nodes have moved
  have hmeta : s.nodeMeta = (inherit e (conflictId n) n).nodeMeta := cascades_nodeMeta hcascades
  have hblocked : state s n = .blocked := by
    rcases cascades_state hcascades n with hs | ⟨hp, -⟩
    · exact hs.trans hb
    · exact absurd (hb.symm.trans hp) NodeState.noConfusion
  have hfresh : state s (conflictId n) ≠ .superseded := by
    have hpending : state (inherit e (conflictId n) n) (conflictId n) = .pending :=
      hw.state_pending hnew
    rcases cascades_state hcascades (conflictId n) with hs | ⟨-, hs⟩
    · rw [hs, hpending]
      exact NodeState.noConfusion
    · rw [hs]
      exact NodeState.noConfusion
  have hregistered : conflictId n ∈ s.nodeMeta.keys := by
    rw [hmeta]
    exact OrdMap.mem_keys_set.mpr (.inl rfl)
  have hstands : StandsFor e (conflictId n) n s := by
    intro k d hd
    rw [depsOf_congr hmeta] at hd
    exact standsFor_inherit h.closed hnew k d hd
  have hloop : Sat (s.nodeMeta.keys.foldlM (rewireDependent n) []) s
      (fun _ s' => Rewiring archives e (conflictId n) n s.nodeMeta.keys s.nodeMeta.keys s')
      fun _ s' => Wf s' ∧ Gated archives s' := by
    refine sat_foldlM
      (fun done _ s' => Rewiring archives e (conflictId n) n s.nodeMeta.keys done s') ?_
        fun done x rest rewired s' _ hs' => hs'.step h.acyclic hn hnew rewired x
    exact ⟨hwc, hgated, hstands, hblocked, hfresh, hregistered, fun k hk => hk,
      fun k hk => by cases hk⟩
  refine hloop.bind fun rewired s' hs' => ?_
  -- nothing depends on `n` any more
  have hnone : ∀ x, n ∉ depsOf s' x := fun x hx =>
    hs'.cleared x (hs'.known x (mem_keys_of_mem_depsOf hx)) hx
  unfold supersede
  rcases append_cases hs'.wf n .superseded none with ⟨can, happ⟩ | ⟨-, error, -, happ⟩
  · rw [sat_bind_of_ok happ, sat_pure]
    exact ⟨hs'.wf.push can none fun ht => NodeState.noConfusion ht,
      hs'.gated.push can.allowed (fun _ ht => NodeState.noConfusion ht) (fun _ _ => hnone) none⟩
  · rw [sat_bind_of_error happ]
    exact ⟨hs'.wf, hs'.gated⟩

theorem after_adaptExcept {ε ε' σ α : Type} (g : ε → ε') (m : EStateM ε σ α) (s : σ) :
    after (EStateM.adaptExcept g m s) = after (m s) := by
  unfold EStateM.adaptExcept
  rcases m s with ⟨a, s'⟩ | ⟨error, s'⟩ <;> rfl

theorem gated_settleMerge (hw : Wf e) (h : Gated archives e) (merge : MergeResult) :
    Wf (after (settleMerge n merge e)) ∧ Gated archives (after (settleMerge n merge e)) := by
  refine Sat.after (P := fun s => Wf s ∧ Gated archives s) ?_
  unfold settleMerge
  rcases merge with commit | files
  · have hi : Wf (after (integrate n e)) ∧ Gated archives (after (integrate n e)) :=
      ⟨hw.step (.integrate n), h.integrate hw⟩
    exact (Sat.of_after (P := fun s => Wf s ∧ Gated archives s) hi).bind fun _ s hs => hs
  · have hb : Sat (block n .integration) e
        (fun _ s => (Wf s ∧ Gated archives s) ∧ state s n = .blocked)
        fun _ s => Wf s ∧ Gated archives s := by
      have hkeeps : Wf (after (block n .integration e)) ∧
          Gated archives (after (block n .integration e)) :=
        ⟨hw.step (.block n .integration), h.block hw .integration⟩
      have hresult := block_result hw n .integration
      unfold Sat
      generalize Workflow.block n .integration e = r at hresult hkeeps
      rcases hresult with can | ⟨error, -, -, -⟩ | ⟨error, -⟩
      · have hstate : state (e.remember n) n = state e n := state_updateMeta
        refine ⟨hkeeps, state_push ?_ _⟩
        rw [hstate]
        exact can.allowed
      · exact hkeeps
      · exact hkeeps
    refine hb.bind fun _ s hs => ?_
    have hspawn := Gated.spawnConflictNode hs.1.1 hs.1.2 hs.2
    exact (Sat.of_after (P := fun s => Wf s ∧ Gated archives s) hspawn).bind fun _ s' hs' => hs'

theorem gated_act (hw : Wf e) (h : Gated archives e) {move : Move}
    (hrewires : ∀ op, move = .operation op → ¬ Rewires op)
    (harchive : ∀ n, move = .operation (.supersede n) → archives) :
    Wf (act e move) ∧ Gated archives (act e move) := by
  rcases move with op | ⟨n, isConflictResolution, humanConfirmed, merge⟩
  · exact ⟨hw.step op, h.step hw (hrewires op rfl) fun n hop => harchive n (by rw [hop])⟩
  · show Wf (after (integrateNode ..)) ∧ Gated archives (after (integrateNode ..))
    unfold integrateNode
    split
    · exact ⟨hw, h⟩
    · rw [show (do pure PUnit.unit; EStateM.adaptExcept .engine (settleMerge n merge)) =
        (EStateM.adaptExcept .engine (settleMerge n merge) :
          EStateM IntegrationFailure WorkflowEngine IntegrateNodeResult) from rfl]
      rw [after_adaptExcept]
      exact gated_settleMerge hw h merge

end

/-! ### From an accepted plan -/

section

variable {plan : Plan.PlanContract} {archives : Prop}

theorem mem_depsOf_boot {cap : ℚ} {budgets : List (String × ℚ)} {n d : String}
    (h : d ∈ depsOf (boot plan cap budgets) n) :
    ∃ mod ∈ plan.modules, mod.id = n ∧ d ∈ mod.dependencies := by
  unfold depsOf at h
  rcases hm : (boot plan cap budgets).nodeMeta.get? n with _ | m
  · rw [hm] at h
    cases h
  · rw [hm] at h
    obtain ⟨mod, hmod, heq⟩ := List.mem_map.mp (OrdMap.mem_of_get?_ofList hm)
    cases heq
    exact ⟨mod, hmod, rfl, h⟩

theorem gated_boot (hvalid : Plan.Valid plan) (cap : ℚ) (budgets : List (String × ℚ)) :
    Gated archives (boot plan cap budgets) where
  gate := fun n hp => absurd rfl hp
  closed := by
    intro n d hd
    obtain ⟨mod, hmod, -, hdep⟩ := mem_depsOf_boot hd
    have hkeys : (boot plan cap budgets).nodeMeta.keys = plan.modules.map Plan.PlanModule.id := by
      have hnodup : ((plan.modules.map fun mod =>
          (mod.id, NodeMeta.new mod.dependencies)).map Prod.fst).Nodup := by
        rw [List.map_map]
        exact hvalid.distinct
      show (OrdMap.ofList _).keys = _
      rw [OrdMap.keys_ofList hnodup, List.map_map]
      rfl
    rw [hkeys]
    exact hvalid.known mod hmod d hdep
  acyclic := by
    refine hvalid.acyclic.map id fun n d hd => ?_
    obtain ⟨mod, hmod, rfl, hdep⟩ := mem_depsOf_boot hd
    rw [id, id, Plan.depsOf_of_mem hvalid.distinct hmod]
    exact hdep
  memory := by
    intro n target hm
    obtain ⟨m, hget, hfrom⟩ := blockedFrom_eq_some.mp hm
    obtain ⟨mod, -, heq⟩ := List.mem_map.mp (OrdMap.mem_of_get?_ofList hget)
    cases heq
    cases hfrom
  noneArchived := fun _ n d _ => NodeState.noConfusion

/-- **The dependency gate.** Over an accepted plan, in every run whose dependencies are rewired by the
conflict path only, a node leaves `pending` for anything but `cancelled` on integrated dependencies,
every dependency is a node, none depends on itself, and, unless nodes are superseded outside the
conflict path, no node depends on a superseded one. -/
theorem dependency_gate {Input : Type} {safeParse : Input → Except (List Plan.SchemaIssue)
      Plan.PlanContract} {input : Input} (haccepted : Plan.validatePlan safeParse input = .ok plan)
    (cap : ℚ) (budgets : List (String × ℚ)) (moves : List Move)
    (hrewires : ∀ op, .operation op ∈ moves → ¬ Rewires op) :
    Gate (run act (boot plan cap budgets) moves) ∧
      Closed (run act (boot plan cap budgets) moves) ∧
      Cycle.Acyclic (depsOf (run act (boot plan cap budgets) moves)) ∧
      ((∀ n, .operation (.supersede n) ∉ moves) →
        NoneArchived (run act (boot plan cap budgets) moves)) := by
  have hvalid := Plan.validatePlan_valid haccepted
  have hrun : Wf (run act (boot plan cap budgets) moves) ∧
      Gated (∃ n, .operation (.supersede n) ∈ moves) (run act (boot plan cap budgets) moves) := by
    refine run_induct (I := fun e => Wf e ∧ Gated (∃ n, .operation (.supersede n) ∈ moves) e)
      (p := fun _ move => move ∈ moves) (fun e move he hmem => ?_)
      ⟨wf_boot plan cap budgets, gated_boot hvalid cap budgets⟩ ?_
    · exact gated_act he.1 he.2 (fun op hop => hrewires op (hop ▸ hmem))
        fun n hop => ⟨n, hop ▸ hmem⟩
    · rw [along_iff_steps]
      intro pre move hpre
      exact hpre.subset (List.mem_append_right _ (List.mem_singleton_self _))
  obtain ⟨-, h⟩ := hrun
  refine ⟨h.gate, h.closed, h.acyclic, fun hnone => h.noneArchived ?_⟩
  rintro ⟨n, hn⟩
  exact hnone n hn

end

/-- Module `b` depends on module `a`. -/
def chain : Plan.PlanContract :=
  ⟨[⟨"a", "A", [], .S, .low, true⟩, ⟨"b", "B", ["a"], .S, .low, true⟩]⟩

theorem chain_accepted :
    Plan.validatePlan (fun plan : Plan.PlanContract => .ok plan) chain = .ok chain := by
  decide +kernel

def approved : List Move :=
  [.operation (.recordApproval ⟨.plan, "hash"⟩), .operation (.recordApproval ⟨.allocation, "hash"⟩),
    .operation (.start none none)]

/-- The node is run, verified and approved, and does not merge. -/
def conflicts (n : String) : List Move :=
  [.operation (.assign n), .operation (.startRun n 10), .operation (.completeRun n 5),
    .operation (.recordVerification n true), .operation (.reviewerDecision n .approve),
    .integrateNode n false false (.conflict ["f"])]

/-- The conflict node of `a` conflicts as well: `b` depends on the second one. -/
theorem dependency_gate_twice :
    Gate (run act (boot chain 100 [("a", 50), ("a-conflict", 50)])
        (approved ++ conflicts "a" ++ conflicts "a-conflict")) ∧
      depsOf (run act (boot chain 100 [("a", 50), ("a-conflict", 50)])
        (approved ++ conflicts "a" ++ conflicts "a-conflict")) "b" = ["a-conflict-conflict"] := by
  refine ⟨(dependency_gate chain_accepted 100 _ _ ?_).1, by decide +kernel⟩
  intro op hop
  simp [approved, conflicts] at hop
  rcases hop with rfl | rfl | rfl | rfl | rfl | rfl | rfl | rfl | rfl | rfl | rfl | rfl | rfl <;>
    exact fun h => h

def archivedByHand : List Move :=
  approved ++ [.operation (.assign "a"), .operation (.startRun "a" 10),
    .operation (.completeRun "a" 5), .operation (.recordVerification "a" false),
    .operation (.supersede "a")]

/-- `supersede` is public: called on a failed node, it leaves the dependents as they are. -/
theorem supersede_keeps_dependents :
    Plan.validatePlan (fun plan : Plan.PlanContract => .ok plan) chain = .ok chain ∧
      (∀ op, .operation op ∈ archivedByHand → ¬ Rewires op) ∧
      ¬ NoneArchived (run act (boot chain 100 [("a", 50)]) archivedByHand) := by
  refine ⟨chain_accepted, ?_, fun h => h "b" "a" (by decide +kernel) (by decide +kernel)⟩
  intro op hop
  simp [approved, archivedByHand] at hop
  rcases hop with rfl | rfl | rfl | rfl | rfl | rfl | rfl | rfl <;> exact fun h => h

end Norns.Engine.Conflict
