import Mathlib
import Norns.Lib.Edit
import Norns.Lib.Run
import Norns.Contracts.Plan
import Norns.Contracts.Reducer
import Norns.Engine.Budget

/-! # The workflow engine

`WorkflowEngine` of `engine/workflow.ts` together with its `BudgetLedger`. The state of a node is
never stored: `stateOf` replays the lifecycle log. A drive writes step by step and may throw in
between; what it wrote before the throw stays.

* `Op`, `step`: the public operations;
* `state`, `interrupted`: what the log says of a node, read without the reducer;
* `Wf`: what every state of an engine satisfies (`wf_run`);
* `append_cases`: an append writes one event, or throws and writes nothing. -/

namespace Norns.Engine.Workflow

open Norns.Lib Norns.Lib.Edit Norns.Lib.Run Norns.Contracts Norns.Contracts.Lifecycle
open Norns.Contracts.Reducer Norns.Engine.Budget

inductive ApprovalKind
  | plan | allocation | budget_extension | merge | review_exception
  deriving DecidableEq, Repr

structure Approval where
  kind : ApprovalKind
  content_hash : String
  deriving DecidableEq, Repr

/-- What an operation throws. -/
inductive EngineFailure
  | engineError (message : String)
  | killSwitchEngaged
  | budget (error : LedgerError)
  | typeError (error : TypeError)
  deriving DecidableEq

structure NodeMeta where
  dependencies : List String
  blockedFrom : Option NodeState
  activeReservation : Option String
  deriving DecidableEq, Repr

structure WorkflowEngine where
  log : List LifecycleEvent
  /-- `meta` -/
  nodeMeta : OrdMap String NodeMeta
  approvals : OrdMap ApprovalKind Approval
  budget : BudgetLedger
  killSwitch : Bool
  eventCounter : ℕ
  started : Bool
  deriving DecidableEq

abbrev Drive := EStateM EngineFailure WorkflowEngine

def NodeMeta.new (dependencies : List String) : NodeMeta := ⟨dependencies, none, none⟩

/-- The constructor: one entry per module. -/
def WorkflowEngine.new (plan : Plan.PlanContract) (budget : BudgetLedger) : WorkflowEngine where
  log := []
  nodeMeta := OrdMap.ofList (plan.modules.map fun mod => (mod.id, .new mod.dependencies))
  approvals := OrdMap.empty
  budget := budget
  killSwitch := false
  eventCounter := 0
  started := false

namespace WorkflowEngine

/-- Write to the entry of a node, if it has one. -/
def updateMeta (e : WorkflowEngine) (nodeId : String) (f : NodeMeta → NodeMeta) : WorkflowEngine :=
  match e.nodeMeta.get? nodeId with
  | some m => { e with nodeMeta := e.nodeMeta.set nodeId (f m) }
  | none => e

def eventId (n : ℕ) : String := "evt_" ++ toString n

/-- One more event in the log. -/
def push (e : WorkflowEngine) (nodeId : String) (target : NodeState) (reason : Option String) :
    WorkflowEngine :=
  { e with
    log := e.log ++ [⟨eventId (e.eventCounter + 1), nodeId, target, reason⟩]
    eventCounter := e.eventCounter + 1 }

end WorkflowEngine

def recordApproval (approval : Approval) : Drive Unit :=
  modify fun e => { e with approvals := e.approvals.set approval.kind approval }

def engageKillSwitch : Drive Unit := modify fun e => { e with killSwitch := true }

def disengageKillSwitch : Drive Unit := modify fun e => { e with killSwitch := false }

def requireMeta (nodeId : String) : Drive NodeMeta := do
  match (← get).nodeMeta.get? nodeId with
  | some m => return m
  | none => throw (.engineError ("unknown node " ++ nodeId))

def stateOf (nodeId : String) : Drive NodeState := do
  match reduceLifecycle (← get).log with
  | .ok reduced => return ((reduced.nodes.get? nodeId).map NodeSnapshot.state).getD .pending
  | .error e => throw (.typeError e)

def append (nodeId : String) (target : NodeState) (reason : Option String := none) :
    Drive Unit := do
  let _ ← requireMeta nodeId
  let source ← stateOf nodeId
  if !canTransition source target then
    throw (.engineError ("invalid transition " ++ source.text ++ " -> " ++ target.text ++
      " for node " ++ nodeId))
  modify fun e => e.push nodeId target reason

/-- `every` asks the dependencies in order and stops at the first that is not integrated. -/
def everyIntegrated : List String → Drive Bool
  | [] => return true
  | dep :: deps => do
    if (← stateOf dep) = .integrated then everyIntegrated deps else return false

/-- One node of the cascade: a pending node whose dependencies are integrated becomes ready. -/
def cascadeNode (nodeId : String) (m : NodeMeta) : Drive Unit := do
  if (← stateOf nodeId) = .pending then
    if ← everyIntegrated m.dependencies then append nodeId .ready

def cascadeReady : Drive Unit := do
  if (← get).started then
    (← get).nodeMeta.entries.foldlM (fun _ entry => cascadeNode entry.1 entry.2) ()

def registerNode (nodeId : String) (dependencies : List String) : Drive Unit := do
  if (← get).nodeMeta.has nodeId then
    throw (.engineError ("node " ++ nodeId ++ " already exists"))
  modify fun e => { e with nodeMeta := e.nodeMeta.set nodeId (.new dependencies) }
  cascadeReady

def replaceDependency (nodeId oldDep newDep : String) : Drive Unit := do
  let _ ← requireMeta nodeId
  modify fun e => e.updateMeta nodeId fun m =>
    { m with dependencies := m.dependencies.map fun dep => if dep = oldDep then newDep else dep }

/-- The approval gate; the expected hashes are optional. -/
def start (planHash allocationHash : Option String) : Drive Unit := do
  match (← get).approvals.get? .plan, (← get).approvals.get? .allocation with
  | some plan, some allocation =>
    if planHash.any (fun hash => plan.content_hash ≠ hash) then
      throw (.engineError
        "cannot start: plan approval hash does not match the approved plan content")
    if allocationHash.any (fun hash => allocation.content_hash ≠ hash) then
      throw (.engineError
        "cannot start: allocation approval hash does not match the approved allocation content")
    modify fun e => { e with started := true }
    cascadeReady
  | _, _ =>
    throw (.engineError "cannot start: plan and allocation approvals are required")

def assign (nodeId : String) : Drive Unit := append nodeId .assigned

def block (nodeId : String) (reason : BlockedReason) : Drive Unit := do
  let _ ← requireMeta nodeId
  let source ← stateOf nodeId
  modify fun e => e.updateMeta nodeId fun m => { m with blockedFrom := some source }
  append nodeId .blocked reason.text

/-- `budget.reserve` on the engine's ledger. -/
def reserve (nodeId : String) (maxChargeUsd : ℚ) : Drive String := do
  match (← get).budget.reserve nodeId maxChargeUsd with
  | .ok (reservationId, budget) =>
    modify fun e => { e with budget := budget }
    return reservationId
  | .error error => throw (.budget error)

/-- `budget.settle` on the engine's ledger. -/
def settle (nodeId reservationId : String) (actualUsd : ℚ) : Drive Unit := do
  match (← get).budget.settle nodeId reservationId actualUsd with
  | .ok budget => modify fun e => { e with budget := budget }
  | .error error => throw (.budget error)

/-- The `try` of `startRun`: metering before dispatch. -/
def dispatch (nodeId : String) (maxChargeUsd : ℚ) : Drive String := do
  let reservationId ← reserve nodeId maxChargeUsd
  modify fun e => e.updateMeta nodeId fun m => { m with activeReservation := some reservationId }
  append nodeId .running
  return reservationId

/-- The `catch` of `startRun`: a refused reservation blocks the node. -/
def refused (nodeId : String) (error : EngineFailure) : Drive Unit := do
  match error with
  | .budget (.budgetExceeded _ _ _ scope) =>
    block nodeId .budget
    -- a dispatch that would breach the project cap is the kill-switch threshold
    if scope = .project ∨ (← get).budget.projectHardCapReached = true then engageKillSwitch
  | _ => pure ()

def startRun (nodeId : String) (maxChargeUsd : ℚ) : Drive String := do
  if (← get).killSwitch then throw .killSwitchEngaged
  let _ ← requireMeta nodeId
  tryCatch (dispatch nodeId maxChargeUsd) fun error => do
    refused nodeId error
    throw error

def completeRun (nodeId : String) (actualUsd : ℚ) : Drive Unit := do
  let m ← requireMeta nodeId
  match m.activeReservation with
  | some reservationId =>
    settle nodeId reservationId actualUsd
    modify fun e => e.updateMeta nodeId fun m => { m with activeReservation := none }
  | none => pure ()
  append nodeId .verifying

def recordVerification (nodeId : String) (passed : Bool) : Drive Unit :=
  append nodeId (if passed then .in_review else .failed)

inductive Decision
  | approve | rework
  deriving DecidableEq, Repr

def reviewerDecision (nodeId : String) (decision : Decision) : Drive Unit :=
  append nodeId (if decision = .approve then .verified else .assigned)

/-- Clean merge into the integration branch; unlocks dependents. -/
def integrate (nodeId : String) : Drive Unit := do
  append nodeId .integrated
  cascadeReady

/-- To the state the engine remembers. -/
def resume (nodeId : String) : Drive Unit := do
  let m ← requireMeta nodeId
  match m.blockedFrom with
  | none => throw (.engineError ("node " ++ nodeId ++ " is not blocked"))
  | some target =>
    modify fun e => e.updateMeta nodeId fun m => { m with blockedFrom := none }
    append nodeId target

def cancel (nodeId : String) : Drive Unit := append nodeId .cancelled

def supersede (nodeId : String) : Drive Unit := append nodeId .superseded

/-! ### Runs -/

/-- The public operations. -/
inductive Op
  | recordApproval (approval : Approval)
  | engageKillSwitch
  | disengageKillSwitch
  | registerNode (nodeId : String) (dependencies : List String)
  | replaceDependency (nodeId oldDep newDep : String)
  | start (planHash allocationHash : Option String)
  | assign (nodeId : String)
  | startRun (nodeId : String) (maxChargeUsd : ℚ)
  | completeRun (nodeId : String) (actualUsd : ℚ)
  | recordVerification (nodeId : String) (passed : Bool)
  | reviewerDecision (nodeId : String) (decision : Decision)
  | integrate (nodeId : String)
  | block (nodeId : String) (reason : BlockedReason)
  | resume (nodeId : String)
  | cancel (nodeId : String)
  | supersede (nodeId : String)
  deriving DecidableEq

def perform : Op → Drive Unit
  | .recordApproval approval => recordApproval approval
  | .engageKillSwitch => engageKillSwitch
  | .disengageKillSwitch => disengageKillSwitch
  | .registerNode nodeId dependencies => registerNode nodeId dependencies
  | .replaceDependency nodeId oldDep newDep => replaceDependency nodeId oldDep newDep
  | .start planHash allocationHash => start planHash allocationHash
  | .assign nodeId => assign nodeId
  | .startRun nodeId maxChargeUsd => do let _ ← startRun nodeId maxChargeUsd
  | .completeRun nodeId actualUsd => completeRun nodeId actualUsd
  | .recordVerification nodeId passed => recordVerification nodeId passed
  | .reviewerDecision nodeId decision => reviewerDecision nodeId decision
  | .integrate nodeId => integrate nodeId
  | .block nodeId reason => block nodeId reason
  | .resume nodeId => resume nodeId
  | .cancel nodeId => cancel nodeId
  | .supersede nodeId => supersede nodeId

/-- The state an operation leaves behind, thrown or not. -/
def step (e : WorkflowEngine) (op : Op) : WorkflowEngine := after (perform op e)

/-- An engine over a plan, and a ledger with the project cap and the approved budgets. -/
def boot (plan : Plan.PlanContract) (projectCapUsd : ℚ) (budgets : List (String × ℚ)) :
    WorkflowEngine :=
  .new plan (budgets.foldl (fun l b => l.approve b.1 b.2) (.new projectCapUsd))

/-! ### What the log says -/

/-- The state the log gives a node. -/
def state (e : WorkflowEngine) (nodeId : String) : NodeState := (replay nodeId e.log).state

/-- The state before the current one; of a blocked node, the state that the block interrupted. -/
def interrupted (e : WorkflowEngine) (nodeId : String) : Option NodeState :=
  (replay nodeId e.log).history.dropLast.getLast?

/-- The reducer returns on the log. -/
def Legible (e : WorkflowEngine) : Prop := ¬ NamesInherited e.log

/-- The append of `target` goes through. -/
structure CanAppend (e : WorkflowEngine) (nodeId : String) (target : NodeState) : Prop where
  registered : nodeId ∈ e.nodeMeta.keys
  legible : Legible e
  allowed : canTransition (state e nodeId) target = true

/-- What every state of an engine satisfies. -/
structure Wf (e : WorkflowEngine) : Prop where
  ids : e.log.map LifecycleEvent.event_id =
    (List.range e.eventCounter).map fun k => WorkflowEngine.eventId (k + 1)
  known : ∀ event ∈ e.log, event.node_id ∈ e.nodeMeta.keys
  issued : ∀ nodeId node, e.budget.nodes.get? nodeId = some node → ∀ id ∈ node.reservations.keys,
    ∃ k ≤ e.budget.reservationCounter, id = BudgetLedger.reservationId k
  /-- A blocked node remembers what was interrupted, unless a second `block` overwrote it. -/
  remembers : ∀ nodeId m, e.nodeMeta.get? nodeId = some m → state e nodeId = .blocked →
    ∀ target, m.blockedFrom = some target →
      interrupted e nodeId = some target ∨ target = .blocked

section

variable {e : WorkflowEngine} {nodeId k : String} {target : NodeState} {f : NodeMeta → NodeMeta}

namespace WorkflowEngine

theorem eventId_injective : Function.Injective eventId := fun _ _ h =>
  Nat.repr_injective ((String.append_right_inj _).mp h)

@[simp] theorem updateMeta_log : (e.updateMeta nodeId f).log = e.log := by
  unfold updateMeta; split <;> rfl

@[simp] theorem updateMeta_budget : (e.updateMeta nodeId f).budget = e.budget := by
  unfold updateMeta; split <;> rfl

@[simp] theorem updateMeta_eventCounter :
    (e.updateMeta nodeId f).eventCounter = e.eventCounter := by
  unfold updateMeta; split <;> rfl

theorem updateMeta_get? : (e.updateMeta nodeId f).nodeMeta.get? k =
    if nodeId = k then (e.nodeMeta.get? k).map f else e.nodeMeta.get? k := by
  unfold updateMeta
  rcases hm : e.nodeMeta.get? nodeId with _ | m
  · dsimp only
    split
    · rename_i hk; rw [← hk, hm]; rfl
    · rfl
  · dsimp only
    rw [OrdMap.get?_set]
    split
    · rename_i hk; rw [← hk, hm]; rfl
    · rfl

@[simp] theorem updateMeta_mem_keys :
    k ∈ (e.updateMeta nodeId f).nodeMeta.keys ↔ k ∈ e.nodeMeta.keys := by
  rw [OrdMap.mem_keys, OrdMap.mem_keys, updateMeta_get?]
  split
  · simp
  · exact Iff.rfl

end WorkflowEngine

@[simp] theorem state_updateMeta : state (e.updateMeta nodeId f) k = state e k := by
  simp [state]

@[simp] theorem interrupted_updateMeta :
    interrupted (e.updateMeta nodeId f) k = interrupted e k := by
  simp [interrupted]

@[simp] theorem legible_updateMeta : Legible (e.updateMeta nodeId f) ↔ Legible e := by
  simp [Legible]

@[simp] theorem canAppend_updateMeta :
    CanAppend (e.updateMeta nodeId f) k target ↔ CanAppend e k target := by
  constructor
  · rintro ⟨h1, h2, h3⟩
    exact ⟨by simpa using h1, by simpa using h2, by simpa using h3⟩
  · rintro ⟨h1, h2, h3⟩
    exact ⟨by simpa using h1, by simpa using h2, by simpa using h3⟩

/-- An append in the log of its own node: `target` is the state, and the state is interrupted. -/
theorem replay_push (h : canTransition (state e nodeId) target = true) (reason : Option String) :
    replay nodeId (e.push nodeId target reason).log =
      ⟨target, (replay nodeId e.log).history ++ [target]⟩ := by
  show replay nodeId (e.log ++ [(⟨_, nodeId, target, reason⟩ : LifecycleEvent)]) = _
  rw [replay_concat_self e.log ⟨_, nodeId, target, reason⟩]
  exact if_pos h

theorem replay_push_ne (h : nodeId ≠ k) (reason : Option String) :
    replay k (e.push nodeId target reason).log = replay k e.log :=
  replay_concat_ne e.log h

theorem state_push (h : canTransition (state e nodeId) target = true) (reason : Option String) :
    state (e.push nodeId target reason) nodeId = target := by
  unfold state; rw [replay_push h]

theorem interrupted_push (h : canTransition (state e nodeId) target = true)
    (reason : Option String) :
    interrupted (e.push nodeId target reason) nodeId = some (state e nodeId) := by
  unfold interrupted
  rw [replay_push h, List.dropLast_concat]
  exact replay_history nodeId e.log

theorem state_push_ne (h : nodeId ≠ k) (reason : Option String) :
    state (e.push nodeId target reason) k = state e k := by
  unfold state; rw [replay_push_ne h]

theorem interrupted_push_ne (h : nodeId ≠ k) (reason : Option String) :
    interrupted (e.push nodeId target reason) k = interrupted e k := by
  unfold interrupted; rw [replay_push_ne h]

/-! ### Appends -/

theorem Wf.state_pending (hw : Wf e) (h : nodeId ∉ e.nodeMeta.keys) :
    state e nodeId = .pending := by
  have hnone : ∀ event ∈ e.log, event.node_id ≠ nodeId := by
    intro event hevent he
    exact h (he ▸ hw.known event hevent)
  unfold state
  rw [replay_of_notMem hnone]
  rfl

theorem Wf.firstOccurrences (hw : Wf e) : firstOccurrences e.log = e.log := by
  refine firstOccurrences_of_nodup ?_
  rw [hw.ids]
  refine List.Nodup.map (fun a b h => ?_) List.nodup_range
  have := WorkflowEngine.eventId_injective h
  omega

theorem stateOf_cases (hw : Wf e) (nodeId : String) :
    (Legible e ∧ stateOf nodeId e = .ok (state e nodeId) e) ∨
    (¬ Legible e ∧ ∃ error, (∀ l, error ≠ .budget l) ∧ stateOf nodeId e = .error error e) := by
  have hspec := reduceLifecycle_spec e.log
  rw [hw.firstOccurrences] at hspec
  unfold stateOf
  rw [get_bind]
  rcases hspec with ⟨hkey, error, hr⟩ | ⟨hnot, r, hr, hnodes⟩
  · refine .inr ⟨fun h => h hkey, .typeError error, fun l => EngineFailure.noConfusion, ?_⟩
    rw [hr]; rfl
  · refine .inl ⟨hnot, ?_⟩
    have hstate : ((r.nodes.get? nodeId).map NodeSnapshot.state).getD .pending =
        state e nodeId := by
      unfold state
      rw [← hnodes nodeId]
      rcases r.nodes.get? nodeId with _ | node <;> rfl
    rw [hr, ← hstate]; rfl

theorem requireMeta_of_mem {m : NodeMeta} (h : e.nodeMeta.get? nodeId = some m) :
    requireMeta nodeId e = .ok m e := by
  unfold requireMeta
  rw [get_bind, h]; rfl

theorem requireMeta_of_notMem (h : nodeId ∉ e.nodeMeta.keys) :
    ∃ error, (∀ l, error ≠ .budget l) ∧ requireMeta nodeId e = .error error e := by
  unfold requireMeta
  rw [get_bind, OrdMap.get?_eq_none.mpr h]
  exact ⟨_, fun l => EngineFailure.noConfusion, rfl⟩

/-- **An append** writes one event, or throws and writes nothing. -/
theorem append_cases (hw : Wf e) (nodeId : String) (target : NodeState) (reason : Option String) :
    (CanAppend e nodeId target ∧
      append nodeId target reason e = .ok () (e.push nodeId target reason)) ∨
    (¬ CanAppend e nodeId target ∧ ∃ error, (∀ l, error ≠ .budget l) ∧
      append nodeId target reason e = .error error e) := by
  unfold append
  by_cases hmem : nodeId ∈ e.nodeMeta.keys
  · obtain ⟨m, hm⟩ := OrdMap.mem_keys.mp hmem
    rw [bind_of_ok (requireMeta_of_mem hm)]
    rcases stateOf_cases hw nodeId with ⟨hleg, hs⟩ | ⟨hleg, error, herr, hs⟩
    · rw [bind_of_ok hs]
      by_cases hcan : canTransition (state e nodeId) target = true
      · refine .inl ⟨⟨hmem, hleg, hcan⟩, ?_⟩
        rw [hcan]; rfl
      · refine .inr ⟨fun h => hcan h.allowed, ?_⟩
        rw [Bool.not_eq_true _ |>.mp hcan]
        exact ⟨_, fun l => EngineFailure.noConfusion, rfl⟩
    · exact .inr ⟨fun h => hleg h.legible, error, herr, bind_of_error hs⟩
  · obtain ⟨error, herr, hr⟩ := requireMeta_of_notMem hmem
    exact .inr ⟨fun h => hmem h.registered, error, herr, bind_of_error hr⟩

/-! ### Writes that keep `Wf` -/

/-- `Wf` reads the log, the entries and the ledger only. -/
theorem Wf.of_same {e' : WorkflowEngine} (hw : Wf e) (hlog : e'.log = e.log)
    (hmeta : e'.nodeMeta = e.nodeMeta) (hbudget : e'.budget = e.budget)
    (hcounter : e'.eventCounter = e.eventCounter) : Wf e' where
  ids := by rw [hlog, hcounter]; exact hw.ids
  known := by rw [hlog, hmeta]; exact hw.known
  issued := by rw [hbudget]; exact hw.issued
  remembers := by
    unfold state interrupted
    rw [hlog, hmeta]
    exact hw.remembers

theorem Wf.setBudget (hw : Wf e) {l : BudgetLedger}
    (h : ∀ nodeId node, l.nodes.get? nodeId = some node → ∀ id ∈ node.reservations.keys,
      ∃ k ≤ l.reservationCounter, id = BudgetLedger.reservationId k) :
    Wf { e with budget := l } :=
  ⟨hw.ids, hw.known, h, hw.remembers⟩

theorem Wf.updateMeta (hw : Wf e) (hf : ∀ m, e.nodeMeta.get? nodeId = some m →
      state e nodeId = .blocked → ∀ t, (f m).blockedFrom = some t →
        interrupted e nodeId = some t ∨ t = .blocked) : Wf (e.updateMeta nodeId f) where
  ids := by simpa using hw.ids
  known := by simpa using hw.known
  issued := by simpa using hw.issued
  remembers := by
    intro k m hm hb t ht
    rw [state_updateMeta] at hb
    rw [interrupted_updateMeta]
    rw [WorkflowEngine.updateMeta_get?] at hm
    by_cases hk : nodeId = k
    · subst hk
      rw [if_pos rfl, Option.map_eq_some_iff] at hm
      obtain ⟨m', hm', rfl⟩ := hm
      exact hf m' hm' hb t ht
    · rw [if_neg hk] at hm
      exact hw.remembers k m hm hb t ht

/-- Only a `blocked` event has to agree with what the node's entry remembers. -/
theorem Wf.push (hw : Wf e) (h : CanAppend e nodeId target) (reason : Option String)
    (hb : target = .blocked → ∀ m, e.nodeMeta.get? nodeId = some m → ∀ t,
      m.blockedFrom = some t → t = state e nodeId) : Wf (e.push nodeId target reason) where
  ids := by
    show (e.log ++ [_]).map LifecycleEvent.event_id = (List.range (e.eventCounter + 1)).map _
    rw [List.map_append, hw.ids, List.range_succ, List.map_append]
    rfl
  known := by
    intro event hevent
    rcases List.mem_append.mp hevent with hevent | hevent
    · exact hw.known event hevent
    · rw [List.mem_singleton.mp hevent]; exact h.registered
  issued := hw.issued
  remembers := by
    intro k m hm hblocked t ht
    by_cases hk : nodeId = k
    · subst hk
      rw [state_push h.allowed] at hblocked
      rw [interrupted_push h.allowed, hb hblocked m hm t ht]
      exact .inl rfl
    · rw [state_push_ne hk] at hblocked
      rw [interrupted_push_ne hk]
      exact hw.remembers k m hm hblocked t ht

/-! ### The cascade -/

/-- `e'` comes from `e` by making pending nodes ready. -/
inductive Cascades (e : WorkflowEngine) : WorkflowEngine → Prop
  | refl : Cascades e e
  | ready {e' : WorkflowEngine} {nodeId : String} (h : Cascades e e')
      (can : CanAppend e' nodeId .ready) (pending : state e' nodeId = .pending) :
      Cascades e (e'.push nodeId .ready none)

theorem Cascades.wf {e' : WorkflowEngine} (h : Cascades e e') (hw : Wf e) : Wf e' := by
  induction h with
  | refl => exact hw
  | ready h can pending ih => exact ih.push can none fun hb => NodeState.noConfusion hb

/-- Reading the states of the dependencies changes nothing. -/
theorem everyIntegrated_cases (hw : Wf e) (deps : List String) :
    (∃ all, everyIntegrated deps e = .ok all e) ∨
      ∃ error, everyIntegrated deps e = .error error e := by
  induction deps with
  | nil => exact .inl ⟨true, rfl⟩
  | cons dep deps ih =>
    unfold everyIntegrated
    rcases stateOf_cases hw dep with ⟨-, hs⟩ | ⟨-, error, -, hs⟩
    · rw [bind_of_ok hs]
      split
      · exact ih
      · exact .inl ⟨false, rfl⟩
    · exact .inr ⟨error, bind_of_error hs⟩

theorem cascadeNode_sat {e' : WorkflowEngine} (h : Cascades e e') (hw : Wf e') (m : NodeMeta) :
    Sat (cascadeNode nodeId m) e' (fun _ e'' => Cascades e e'' ∧ Wf e'')
      fun _ e'' => Cascades e e'' ∧ Wf e'' := by
  unfold cascadeNode Sat
  rcases stateOf_cases hw nodeId with ⟨-, hs⟩ | ⟨-, error, -, hs⟩
  · rw [bind_of_ok hs]
    by_cases hp : state e' nodeId = .pending
    · rw [if_pos hp]
      rcases everyIntegrated_cases hw m.dependencies with ⟨all, ha⟩ | ⟨error, ha⟩
      · rw [bind_of_ok ha]
        rcases all with _ | _
        · exact ⟨h, hw⟩
        · rw [if_pos rfl]
          rcases append_cases hw nodeId .ready none with ⟨hcan, happ⟩ | ⟨-, error, -, happ⟩
          · rw [happ]
            exact ⟨h.ready hcan hp, hw.push hcan none fun hb => NodeState.noConfusion hb⟩
          · rw [happ]; exact ⟨h, hw⟩
      · rw [bind_of_error ha]; exact ⟨h, hw⟩
    · rw [if_neg hp]; exact ⟨h, hw⟩
  · rw [bind_of_error hs]; exact ⟨h, hw⟩

theorem cascadeReady_cascades (hw : Wf e) : Cascades e (after (cascadeReady e)) := by
  refine Sat.after ?_
  unfold cascadeReady
  rw [sat_bind, sat_get]
  split
  · rw [sat_bind, sat_get]
    refine (sat_foldlM (fun _ _ e' => Cascades e e' ∧ Wf e') ⟨.refl, hw⟩
      fun done entry rest b e' _ h => cascadeNode_sat h.1 h.2 entry.2).mono
      (fun _ _ h => h.1) fun _ _ h => h.1
  · exact .refl

/-! ### What an operation can do -/

theorem after_append (hw : Wf e) (nodeId : String) (target : NodeState) :
    (CanAppend e nodeId target ∧
      after (append nodeId target none e) = e.push nodeId target none) ∨
    (¬ CanAppend e nodeId target ∧ after (append nodeId target none e) = e) := by
  rcases append_cases hw nodeId target none with ⟨hcan, happ⟩ | ⟨hcan, error, -, happ⟩
  · exact .inl ⟨hcan, by rw [happ]; rfl⟩
  · exact .inr ⟨hcan, by rw [happ]; rfl⟩

/-- The entry of the node remembers the current state. -/
def WorkflowEngine.remember (e : WorkflowEngine) (nodeId : String) : WorkflowEngine :=
  e.updateMeta nodeId fun m => { m with blockedFrom := some (state e nodeId) }

theorem Wf.remember (hw : Wf e) (nodeId : String) : Wf (e.remember nodeId) :=
  hw.updateMeta fun m _ hb t ht => .inr (by rw [← hb]; exact (Option.some.inj ht).symm)

/-- What `block` can leave behind. -/
inductive Blocks (e : WorkflowEngine) (nodeId : String) : WorkflowEngine → Prop
  | refused : Blocks e nodeId e
  | remembered : Blocks e nodeId (e.remember nodeId)
  | blocked (can : CanAppend e nodeId .blocked) (reason : Option String) :
      Blocks e nodeId ((e.remember nodeId).push nodeId .blocked reason)

theorem block_sat (hw : Wf e) (nodeId : String) (reason : BlockedReason) :
    Sat (block nodeId reason) e (fun _ e' => Blocks e nodeId e') fun _ e' => Blocks e nodeId e' := by
  unfold block Sat
  by_cases hmem : nodeId ∈ e.nodeMeta.keys
  · obtain ⟨m, hm⟩ := OrdMap.mem_keys.mp hmem
    rw [bind_of_ok (requireMeta_of_mem hm)]
    rcases stateOf_cases hw nodeId with ⟨-, hs⟩ | ⟨-, error, -, hs⟩
    · rw [bind_of_ok hs, modify_bind]
      rcases append_cases (hw.remember nodeId) nodeId .blocked reason.text with
        ⟨hcan, happ⟩ | ⟨-, error, -, happ⟩
      · unfold WorkflowEngine.remember at hcan happ
        rw [happ]
        exact .blocked (canAppend_updateMeta.mp hcan) _
      · unfold WorkflowEngine.remember at happ
        rw [happ]
        exact .remembered
    · rw [bind_of_error hs]; exact .refused
  · obtain ⟨error, -, hr⟩ := requireMeta_of_notMem hmem
    rw [bind_of_error hr]; exact .refused

theorem Blocks.wf {e' : WorkflowEngine} (h : Blocks e nodeId e') (hw : Wf e) : Wf e' := by
  rcases h with _ | _ | ⟨can, reason⟩
  · exact hw
  · exact hw.remember nodeId
  · refine (hw.remember nodeId).push (canAppend_updateMeta.mpr can) _ fun _ m hm t ht => ?_
    unfold WorkflowEngine.remember at hm ⊢
    rw [WorkflowEngine.updateMeta_get?, if_pos rfl, Option.map_eq_some_iff] at hm
    obtain ⟨m', -, rfl⟩ := hm
    rw [state_updateMeta]
    exact (Option.some.inj ht).symm

/-- `meta.activeReservation = reservation`, after the ledger changed to `l`. -/
def WorkflowEngine.meter (e : WorkflowEngine) (l : BudgetLedger) (nodeId : String)
    (reservation : Option String) : WorkflowEngine :=
  { e with budget := l }.updateMeta nodeId fun m => { m with activeReservation := reservation }

theorem Wf.meter (hw : Wf e) {l : BudgetLedger} (nodeId : String) (reservation : Option String)
    (h : ∀ nodeId node, l.nodes.get? nodeId = some node → ∀ id ∈ node.reservations.keys,
      ∃ k ≤ l.reservationCounter, id = BudgetLedger.reservationId k) :
    Wf (e.meter l nodeId reservation) :=
  (hw.setBudget h).updateMeta fun m hm hb t ht => hw.remembers nodeId m hm hb t ht

theorem canAppend_meter {l : BudgetLedger} {reservation : Option String} :
    CanAppend (e.meter l nodeId reservation) k target ↔ CanAppend e k target :=
  canAppend_updateMeta.trans ⟨fun h => ⟨h.1, h.2, h.3⟩, fun h => ⟨h.1, h.2, h.3⟩⟩

theorem Wf.issued_reserve (hw : Wf e) {l : BudgetLedger} {id : String} {max : ℚ}
    (h : e.budget.reserve nodeId max = .ok (id, l)) :
    ∀ n node, l.nodes.get? n = some node → ∀ i ∈ node.reservations.keys,
      ∃ k ≤ l.reservationCounter, i = BudgetLedger.reservationId k := by
  obtain ⟨old, hold, -, -, hid, hcounter, -, hnodes⟩ := BudgetLedger.reserve_ok h
  intro n node hn i hi
  rw [hcounter]
  rw [hnodes, OrdMap.get?_set] at hn
  split at hn
  · rw [← Option.some.inj hn] at hi
    rcases OrdMap.mem_keys_set.mp hi with hi | hi
    · exact ⟨e.budget.reservationCounter + 1, le_rfl, by rw [hi]; exact hid⟩
    · obtain ⟨k, hk, he⟩ := hw.issued nodeId old hold i hi
      exact ⟨k, by omega, he⟩
  · obtain ⟨k, hk, he⟩ := hw.issued n node hn i hi
    exact ⟨k, by omega, he⟩

theorem Wf.issued_settle (hw : Wf e) {l : BudgetLedger} {id : String} {actual : ℚ}
    (h : e.budget.settle nodeId id actual = .ok l) :
    ∀ n node, l.nodes.get? n = some node → ∀ i ∈ node.reservations.keys,
      ∃ k ≤ l.reservationCounter, i = BudgetLedger.reservationId k := by
  obtain ⟨old, held, hold, -, rfl⟩ := BudgetLedger.settle_ok h
  intro n node hn i hi
  rw [OrdMap.get?_set] at hn
  split at hn
  · rw [← Option.some.inj hn] at hi
    exact hw.issued nodeId old hold i (OrdMap.mem_keys_delete.mp hi).2
  · exact hw.issued n node hn i hi

/-- What `startRun` can leave behind. -/
inductive Dispatches (e : WorkflowEngine) (nodeId : String) (max : ℚ) : WorkflowEngine → Prop
  /-- The kill switch, an unknown node, or a reservation that was refused. -/
  | refused {e' : WorkflowEngine} (h : Blocks e nodeId e') (killSwitch : Bool)
      (why : e.killSwitch = true ∨ nodeId ∉ e.nodeMeta.keys ∨
        ∃ error, e.budget.reserve nodeId max = .error error) :
      Dispatches e nodeId max { e' with killSwitch }
  | running {id : String} {l : BudgetLedger} (live : e.killSwitch = false)
      (reserved : e.budget.reserve nodeId max = .ok (id, l)) (can : CanAppend e nodeId .running) :
      Dispatches e nodeId max ((e.meter l nodeId (some id)).push nodeId .running none)
  /-- Metered, and the append threw. -/
  | stranded {id : String} {l : BudgetLedger} (live : e.killSwitch = false)
      (registered : nodeId ∈ e.nodeMeta.keys)
      (reserved : e.budget.reserve nodeId max = .ok (id, l))
      (cannot : ¬ CanAppend e nodeId .running) :
      Dispatches e nodeId max (e.meter l nodeId (some id))

theorem tryCatch_of_ok {x : Drive String} {handle : EngineFailure → Drive String} {a : String}
    {e' : WorkflowEngine} (h : x e = .ok a e') : (tryCatch x handle : Drive String) e = .ok a e' := by
  show EStateM.tryCatch x handle e = _
  unfold EStateM.tryCatch
  rw [h]

theorem tryCatch_of_error {x : Drive String} {handle : EngineFailure → Drive String}
    {error : EngineFailure} {e' : WorkflowEngine} (h : x e = .error error e') :
    (tryCatch x handle : Drive String) e = handle error e' := by
  show EStateM.tryCatch x handle e = _
  unfold EStateM.tryCatch
  rw [h]; rfl

theorem refused_sat (hw : Wf e) (nodeId : String) (error : EngineFailure) :
    Sat (refused nodeId error) e
      (fun _ e' => ∃ e'' killSwitch, Blocks e nodeId e'' ∧ e' = { e'' with killSwitch })
      fun _ e' => ∃ e'' killSwitch, Blocks e nodeId e'' ∧ e' = { e'' with killSwitch } := by
  unfold refused
  rcases error with _ | _ | error | _
  · exact ⟨e, e.killSwitch, .refused, rfl⟩
  · exact ⟨e, e.killSwitch, .refused, rfl⟩
  · rcases error with ⟨n, requested, available, scope⟩ | n | id
    · refine Sat.bind ((block_sat hw nodeId .budget).mono (fun _ _ h => h)
        fun _ e' h => ⟨e', e'.killSwitch, h, rfl⟩) fun _ e' h => ?_
      rw [sat_bind, sat_get]
      split
      · exact ⟨e', true, h, rfl⟩
      · exact ⟨e', e'.killSwitch, h, rfl⟩
    · exact ⟨e, e.killSwitch, .refused, rfl⟩
    · exact ⟨e, e.killSwitch, .refused, rfl⟩
  · exact ⟨e, e.killSwitch, .refused, rfl⟩

/-- An error that is not the ledger's is passed on as it is. -/
theorem refused_other {error : EngineFailure} (h : ∀ l, error ≠ .budget l) :
    refused nodeId error e = .ok () e := by
  unfold refused
  rcases error with _ | _ | error | _
  · rfl
  · rfl
  · exact absurd rfl (h error)
  · rfl

theorem startRun_dispatches (hw : Wf e) (nodeId : String) (max : ℚ) :
    Dispatches e nodeId max (after (startRun nodeId max e)) := by
  unfold startRun
  rw [get_bind]
  rcases hk : e.killSwitch with _ | _
  · rw [if_neg (by simp)]
    by_cases hmem : nodeId ∈ e.nodeMeta.keys
    · obtain ⟨m, hm⟩ := OrdMap.mem_keys.mp hmem
      dsimp only
      rw [bind_of_ok (requireMeta_of_mem hm)]
      rcases hres : e.budget.reserve nodeId max with error | ⟨id, l⟩
      · have hd : dispatch nodeId max e = .error (.budget error) e := by
          unfold dispatch
          refine bind_of_error ?_
          unfold reserve
          rw [get_bind, hres]; rfl
        rw [tryCatch_of_error hd]
        have hsat := refused_sat hw nodeId (.budget error)
        have hafter : Sat (do refused nodeId (.budget error); throw (.budget error) : Drive String) e
            (fun _ e' => ∃ e'' killSwitch, Blocks e nodeId e'' ∧ e' = { e'' with killSwitch })
            fun _ e' => ∃ e'' killSwitch, Blocks e nodeId e'' ∧ e' = { e'' with killSwitch } :=
          Sat.bind hsat fun _ e' h => h
        obtain ⟨e'', killSwitch, hb, he⟩ := hafter.after
        rw [he]
        exact .refused hb killSwitch (.inr (.inr ⟨error, hres⟩))
      · have hd : dispatch nodeId max e =
            (do append nodeId .running; return id : Drive String) (e.meter l nodeId (some id)) := by
          unfold dispatch
          have hr : reserve nodeId max e = .ok id { e with budget := l } := by
            unfold reserve
            rw [get_bind, hres]; rfl
          rw [bind_of_ok hr, modify_bind]
          rfl
        have hw' : Wf (e.meter l nodeId (some id)) :=
          hw.meter nodeId (some id) (hw.issued_reserve hres)
        rcases append_cases hw' nodeId .running none with ⟨hcan, happ⟩ | ⟨hcan, error, herr, happ⟩
        · rw [tryCatch_of_ok (hd.trans (bind_of_ok happ))]
          exact .running hk hres (canAppend_meter.mp hcan)
        · rw [tryCatch_of_error (hd.trans (bind_of_error happ)), bind_of_ok (refused_other herr)]
          exact .stranded hk hmem hres fun h => hcan (canAppend_meter.mpr h)
    · obtain ⟨error, -, hr⟩ := requireMeta_of_notMem hmem
      dsimp only
      rw [bind_of_error hr]
      exact .refused .refused e.killSwitch (.inr (.inl hmem))
  · exact .refused .refused e.killSwitch (.inl hk)

/-- What `completeRun` can leave behind. -/
inductive Completes (e : WorkflowEngine) (nodeId : String) (actual : ℚ) : WorkflowEngine → Prop
  | unknown (h : nodeId ∉ e.nodeMeta.keys) : Completes e nodeId actual e
  | unmetered {m : NodeMeta} {e' : WorkflowEngine} (hm : e.nodeMeta.get? nodeId = some m)
      (none : m.activeReservation = none) (h : (CanAppend e nodeId .verifying ∧
        e' = e.push nodeId .verifying Option.none) ∨ e' = e) : Completes e nodeId actual e'
  | unsettled {m : NodeMeta} {id : String} {error : LedgerError}
      (hm : e.nodeMeta.get? nodeId = some m) (active : m.activeReservation = some id)
      (settle : e.budget.settle nodeId id actual = .error error) : Completes e nodeId actual e
  | settled {m : NodeMeta} {id : String} {l : BudgetLedger} {e' : WorkflowEngine}
      (hm : e.nodeMeta.get? nodeId = some m) (active : m.activeReservation = some id)
      (settle : e.budget.settle nodeId id actual = .ok l)
      (h : (CanAppend e nodeId .verifying ∧
          e' = (e.meter l nodeId Option.none).push nodeId .verifying Option.none) ∨
        (¬ CanAppend e nodeId .verifying ∧ e' = e.meter l nodeId Option.none)) :
      Completes e nodeId actual e'

theorem completeRun_completes (hw : Wf e) (nodeId : String) (actual : ℚ) :
    Completes e nodeId actual (after (completeRun nodeId actual e)) := by
  unfold completeRun
  by_cases hmem : nodeId ∈ e.nodeMeta.keys
  · obtain ⟨m, hm⟩ := OrdMap.mem_keys.mp hmem
    rw [bind_of_ok (requireMeta_of_mem hm)]
    rcases ha : m.activeReservation with _ | id
    · refine .unmetered hm ha ?_
      rcases after_append hw nodeId .verifying with ⟨hcan, he⟩ | ⟨-, he⟩
      · exact .inl ⟨hcan, he⟩
      · exact .inr he
    · dsimp only
      rcases hset : e.budget.settle nodeId id actual with error | l
      · have hs : settle nodeId id actual e = .error (.budget error) e := by
          unfold settle
          rw [get_bind, hset]; rfl
        rw [bind_of_error hs]
        exact .unsettled hm ha hset
      · have hs : settle nodeId id actual e = .ok () { e with budget := l } := by
          unfold settle
          rw [get_bind, hset]; rfl
        rw [bind_of_ok hs, modify_bind]
        have hw' : Wf (e.meter l nodeId none) := hw.meter nodeId none (hw.issued_settle hset)
        refine .settled hm ha hset ?_
        rcases after_append hw' nodeId .verifying with ⟨hcan, he⟩ | ⟨hcan, he⟩
        · exact .inl ⟨canAppend_meter.mp hcan, he⟩
        · exact .inr ⟨fun h => hcan (canAppend_meter.mpr h), he⟩
  · obtain ⟨error, -, hr⟩ := requireMeta_of_notMem hmem
    rw [bind_of_error hr]
    exact .unknown hmem

/-- The remembered state is cleared. -/
def WorkflowEngine.forget (e : WorkflowEngine) (nodeId : String) : WorkflowEngine :=
  e.updateMeta nodeId fun m => { m with blockedFrom := none }

/-- What `resume` can leave behind. -/
inductive Resumes (e : WorkflowEngine) (nodeId : String) : WorkflowEngine → Prop
  | refused (h : ∀ m, e.nodeMeta.get? nodeId = some m → m.blockedFrom = none) :
      Resumes e nodeId e
  | resumed {m : NodeMeta} {target : NodeState} (hm : e.nodeMeta.get? nodeId = some m)
      (from_ : m.blockedFrom = some target) (can : CanAppend e nodeId target) :
      Resumes e nodeId ((e.forget nodeId).push nodeId target none)
  | forgotten {m : NodeMeta} {target : NodeState} (hm : e.nodeMeta.get? nodeId = some m)
      (from_ : m.blockedFrom = some target) (cannot : ¬ CanAppend e nodeId target) :
      Resumes e nodeId (e.forget nodeId)

theorem Wf.forget (hw : Wf e) (nodeId : String) : Wf (e.forget nodeId) :=
  hw.updateMeta fun m _ _ t ht => absurd ht (by simp)

theorem resume_resumes (hw : Wf e) (nodeId : String) :
    Resumes e nodeId (after (resume nodeId e)) := by
  unfold resume
  by_cases hmem : nodeId ∈ e.nodeMeta.keys
  · obtain ⟨m, hm⟩ := OrdMap.mem_keys.mp hmem
    rw [bind_of_ok (requireMeta_of_mem hm)]
    rcases hb : m.blockedFrom with _ | target
    · refine .refused fun m' hm' => ?_
      rw [← Option.some.inj (hm.symm.trans hm')]
      exact hb
    · dsimp only
      rw [modify_bind]
      rcases after_append (hw.forget nodeId) nodeId target with ⟨hcan, he⟩ | ⟨hcan, he⟩
      · unfold WorkflowEngine.forget at hcan he
        rw [he]
        exact .resumed hm hb (canAppend_updateMeta.mp hcan)
      · unfold WorkflowEngine.forget at hcan he
        rw [he]
        exact .forgotten hm hb fun h => hcan (canAppend_updateMeta.mpr h)
  · obtain ⟨error, -, hr⟩ := requireMeta_of_notMem hmem
    rw [bind_of_error hr]
    refine .refused fun m hm => ?_
    exact absurd (OrdMap.mem_keys.mpr ⟨m, hm⟩) hmem

theorem integrate_cases (hw : Wf e) (nodeId : String) :
    (CanAppend e nodeId .integrated ∧
      Cascades (e.push nodeId .integrated none) (after (integrate nodeId e))) ∨
    after (integrate nodeId e) = e := by
  unfold integrate
  rcases append_cases hw nodeId .integrated none with ⟨hcan, happ⟩ | ⟨-, error, -, happ⟩
  · rw [bind_of_ok happ]
    exact .inl ⟨hcan, cascadeReady_cascades (hw.push hcan none fun h => NodeState.noConfusion h)⟩
  · rw [bind_of_error happ]
    exact .inr rfl

theorem start_cases (hw : Wf e) (planHash allocationHash : Option String) :
    Cascades { e with started := true } (after (start planHash allocationHash e)) ∨
    after (start planHash allocationHash e) = e := by
  have hw' : Wf { e with started := true } := hw.of_same rfl rfl rfl rfl
  unfold start
  rw [get_bind, get_bind]
  rcases e.approvals.get? .plan with _ | plan
  · exact .inr rfl
  rcases e.approvals.get? .allocation with _ | allocation
  · exact .inr rfl
  dsimp only
  rcases planHash.any fun hash => plan.content_hash ≠ hash with _ | _
  · rcases allocationHash.any fun hash => allocation.content_hash ≠ hash with _ | _
    · exact .inl (cascadeReady_cascades hw')
    · exact .inr rfl
  · exact .inr rfl

/-- The node is new, and nothing was recorded for it. -/
theorem Wf.register (hw : Wf e) (hnew : nodeId ∉ e.nodeMeta.keys) (dependencies : List String) :
    Wf { e with nodeMeta := e.nodeMeta.set nodeId (.new dependencies) } where
  ids := hw.ids
  known := fun event hevent => OrdMap.mem_keys_set.mpr (.inr (hw.known event hevent))
  issued := hw.issued
  remembers := by
    intro k m hm hb t ht
    by_cases hk : nodeId = k
    · subst hk
      have hpending : state e nodeId = .pending := hw.state_pending hnew
      exact absurd (hpending.symm.trans hb) NodeState.noConfusion
    · rw [OrdMap.get?_set_ne _ _ hk] at hm
      exact hw.remembers k m hm hb t ht

theorem registerNode_cases (hw : Wf e) (nodeId : String) (dependencies : List String) :
    (nodeId ∉ e.nodeMeta.keys ∧
      Cascades { e with nodeMeta := e.nodeMeta.set nodeId (.new dependencies) }
        (after (registerNode nodeId dependencies e))) ∨
    after (registerNode nodeId dependencies e) = e := by
  unfold registerNode
  rw [get_bind]
  by_cases hmem : nodeId ∈ e.nodeMeta.keys
  · rw [if_pos (OrdMap.has_iff.mpr hmem)]
    exact .inr rfl
  · rw [if_neg fun h => hmem (OrdMap.has_iff.mp h)]
    exact .inl ⟨hmem, cascadeReady_cascades (hw.register hmem dependencies)⟩

/-- The entry of the node reads another name for a dependency. -/
def WorkflowEngine.rewire (e : WorkflowEngine) (nodeId oldDep newDep : String) : WorkflowEngine :=
  e.updateMeta nodeId fun m =>
    { m with dependencies := m.dependencies.map fun dep => if dep = oldDep then newDep else dep }

theorem Wf.rewire (hw : Wf e) (nodeId oldDep newDep : String) :
    Wf (e.rewire nodeId oldDep newDep) :=
  hw.updateMeta fun m hm hb t ht => hw.remembers nodeId m hm hb t ht

theorem replaceDependency_cases (nodeId oldDep newDep : String) :
    after (replaceDependency nodeId oldDep newDep e) = e.rewire nodeId oldDep newDep ∨
    after (replaceDependency nodeId oldDep newDep e) = e := by
  unfold replaceDependency
  by_cases hmem : nodeId ∈ e.nodeMeta.keys
  · obtain ⟨m, hm⟩ := OrdMap.mem_keys.mp hmem
    rw [bind_of_ok (requireMeta_of_mem hm)]
    exact .inl rfl
  · obtain ⟨error, -, hr⟩ := requireMeta_of_notMem hmem
    rw [bind_of_error hr]
    exact .inr rfl

theorem step_startRun (e : WorkflowEngine) (nodeId : String) (max : ℚ) :
    step e (.startRun nodeId max) = after (startRun nodeId max e) := by
  show after ((startRun nodeId max >>= fun _ => pure ()) e) = _
  rcases h : startRun nodeId max e with ⟨a, e'⟩ | ⟨error, e'⟩
  · rw [bind_of_ok h]; rfl
  · rw [bind_of_error h]; rfl

theorem Wf.after_append (hw : Wf e) (nodeId : String) (hb : target ≠ .blocked) :
    Wf (after (append nodeId target none e)) := by
  rcases Workflow.after_append hw nodeId target with ⟨hcan, he⟩ | ⟨-, he⟩
  · rw [he]; exact hw.push hcan none fun h => absurd h hb
  · rw [he]; exact hw

theorem Dispatches.wf {e' : WorkflowEngine} {max : ℚ} (h : Dispatches e nodeId max e')
    (hw : Wf e) : Wf e' := by
  rcases h with ⟨hb, killSwitch, -⟩ | ⟨-, hres, hcan⟩ | ⟨-, -, hres, -⟩
  · exact (hb.wf hw).of_same rfl rfl rfl rfl
  · exact (hw.meter nodeId _ (hw.issued_reserve hres)).push (canAppend_meter.mpr hcan) none
      fun h => NodeState.noConfusion h
  · exact hw.meter nodeId _ (hw.issued_reserve hres)

theorem Completes.wf {e' : WorkflowEngine} {actual : ℚ} (h : Completes e nodeId actual e')
    (hw : Wf e) : Wf e' := by
  rcases h with _ | ⟨-, -, h⟩ | _ | ⟨-, -, hset, h⟩
  · exact hw
  · rcases h with ⟨hcan, rfl⟩ | rfl
    · exact hw.push hcan none fun h => NodeState.noConfusion h
    · exact hw
  · exact hw
  · have hw' := hw.meter nodeId none (hw.issued_settle hset)
    rcases h with ⟨hcan, rfl⟩ | ⟨-, rfl⟩
    · exact hw'.push (canAppend_meter.mpr hcan) none fun h => NodeState.noConfusion h
    · exact hw'

theorem Resumes.wf {e' : WorkflowEngine} (h : Resumes e nodeId e') (hw : Wf e) : Wf e' := by
  rcases h with _ | ⟨hm, hfrom, hcan⟩ | ⟨hm, hfrom, -⟩
  · exact hw
  · refine (hw.forget nodeId).push (canAppend_updateMeta.mpr hcan) none fun _ m hm t ht => ?_
    unfold WorkflowEngine.forget at hm
    rw [WorkflowEngine.updateMeta_get?, if_pos rfl, Option.map_eq_some_iff] at hm
    obtain ⟨m', -, rfl⟩ := hm
    exact absurd ht (by simp)
  · exact hw.forget nodeId

/-- **Every operation keeps `Wf`**, thrown or not. -/
theorem Wf.step (hw : Wf e) (op : Op) : Wf (step e op) := by
  rcases op with approval | _ | _ | ⟨nodeId, deps⟩ | ⟨nodeId, oldDep, newDep⟩ | ⟨ph, ah⟩ | nodeId |
    ⟨nodeId, max⟩ | ⟨nodeId, actual⟩ | ⟨nodeId, passed⟩ | ⟨nodeId, decision⟩ | nodeId |
    ⟨nodeId, reason⟩ | nodeId | nodeId | nodeId
  · exact hw.of_same rfl rfl rfl rfl
  · exact hw.of_same rfl rfl rfl rfl
  · exact hw.of_same rfl rfl rfl rfl
  · rcases registerNode_cases hw nodeId deps with ⟨hnew, h⟩ | h
    · exact h.wf (hw.register hnew deps)
    · exact (congrArg Wf h).mpr hw
  · rcases replaceDependency_cases (e := e) nodeId oldDep newDep with h | h
    · exact (congrArg Wf h).mpr (hw.rewire nodeId oldDep newDep)
    · exact (congrArg Wf h).mpr hw
  · rcases start_cases hw ph ah with h | h
    · exact h.wf (hw.of_same rfl rfl rfl rfl)
    · exact (congrArg Wf h).mpr hw
  · exact hw.after_append nodeId NodeState.noConfusion
  · rw [step_startRun]
    exact (startRun_dispatches hw nodeId max).wf hw
  · exact (completeRun_completes hw nodeId actual).wf hw
  · refine hw.after_append nodeId ?_
    split <;> exact NodeState.noConfusion
  · refine hw.after_append nodeId ?_
    split <;> exact NodeState.noConfusion
  · rcases integrate_cases hw nodeId with ⟨hcan, h⟩ | h
    · exact h.wf (hw.push hcan none fun h => NodeState.noConfusion h)
    · exact (congrArg Wf h).mpr hw
  · exact ((block_sat hw nodeId reason).mono (fun _ _ h => h.wf hw) fun _ _ h => h.wf hw).after
  · exact (resume_resumes hw nodeId).wf hw
  · exact hw.after_append nodeId NodeState.noConfusion
  · exact hw.after_append nodeId NodeState.noConfusion

end

/-- No budget of a ledger that was only approved holds a reservation. -/
theorem approved_reservations (cap : ℚ) (budgets : List (String × ℚ)) (nodeId : String)
    (node : NodeBudget)
    (h : (budgets.foldl (fun l b => l.approve b.1 b.2) (BudgetLedger.new cap)).nodes.get? nodeId =
      some node) : node.reservations = OrdMap.empty := by
  induction budgets using List.reverseRecOn with
  | nil => exact absurd h (by simp [BudgetLedger.new])
  | append_singleton budgets b ih =>
    rw [List.foldl_append] at h
    have h' : ((budgets.foldl (fun l b => l.approve b.1 b.2) (BudgetLedger.new cap)).nodes.set b.1
        ⟨b.2, 0, OrdMap.empty⟩).get? nodeId = some node := h
    rw [OrdMap.get?_set] at h'
    split at h'
    · rw [← Option.some.inj h']
    · exact ih h'

theorem wf_boot (plan : Plan.PlanContract) (cap : ℚ) (budgets : List (String × ℚ)) :
    Wf (boot plan cap budgets) where
  ids := rfl
  known := fun event hevent => absurd hevent List.not_mem_nil
  issued := by
    intro nodeId node hn id hid
    rw [approved_reservations cap budgets nodeId node hn] at hid
    exact absurd hid List.not_mem_nil
  remembers := fun nodeId m _ hb => NodeState.noConfusion hb

theorem wf_run (plan : Plan.PlanContract) (cap : ℚ) (budgets : List (String × ℚ))
    (ops : List Op) : Wf (run step (boot plan cap budgets) ops) :=
  run_induct' (fun _ op hw => hw.step op) (wf_boot plan cap budgets) ops

end Norns.Engine.Workflow
