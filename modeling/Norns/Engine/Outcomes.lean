import Norns.Engine.Workflow

/-! # What a drive returns

For every drive of the engine, the result of a call: whether it returns or throws, and the engine it
leaves behind in either case. -/

namespace Norns.Engine.Workflow

open Norns.Lib Norns.Lib.Edit Norns.Contracts Norns.Contracts.Lifecycle
open Norns.Contracts.Reducer Norns.Engine.Budget

variable {e : WorkflowEngine} {n : String} {target : NodeState}

/-- The state that the entry of a node remembers. -/
def blockedFrom (e : WorkflowEngine) (nodeId : String) : Option NodeState :=
  (e.nodeMeta.get? nodeId).bind NodeMeta.blockedFrom

theorem blockedFrom_eq_some : blockedFrom e n = some target ↔
    ∃ m, e.nodeMeta.get? n = some m ∧ m.blockedFrom = some target := Option.bind_eq_some_iff

theorem mem_keys_of_blockedFrom (h : blockedFrom e n = some target) : n ∈ e.nodeMeta.keys := by
  obtain ⟨m, hm, -⟩ := blockedFrom_eq_some.mp h
  exact OrdMap.mem_keys.mpr ⟨m, hm⟩

/-! ### `block` and `resume` -/

/-- The results of `block`. -/
inductive BlockResult (e : WorkflowEngine) (n : String) (reason : BlockedReason) :
    EStateM.Result EngineFailure WorkflowEngine Unit → Prop
  | blocked (can : CanAppend e n .blocked) :
      BlockResult e n reason (.ok () ((e.remember n).push n .blocked reason.text))
  /-- The transition is refused after the state was remembered. -/
  | overwritten (error : EngineFailure) (registered : n ∈ e.nodeMeta.keys) (legible : Legible e)
      (cannot : canTransition (state e n) .blocked = false) :
      BlockResult e n reason (.error error (e.remember n))
  | refused (error : EngineFailure) (why : n ∉ e.nodeMeta.keys ∨ ¬ Legible e) :
      BlockResult e n reason (.error error e)

theorem block_result (hw : Wf e) (n : String) (reason : BlockedReason) :
    BlockResult e n reason (block n reason e) := by
  unfold block
  by_cases hmem : n ∈ e.nodeMeta.keys
  · obtain ⟨m, hm⟩ := OrdMap.mem_keys.mp hmem
    rw [bind_of_ok (requireMeta_of_mem hm)]
    rcases stateOf_cases hw n with ⟨hlegible, hs⟩ | ⟨hlegible, error, -, hs⟩
    · rw [bind_of_ok hs, modify_bind]
      rcases append_cases (hw.remember n) n .blocked reason.text with
        ⟨hcan, happ⟩ | ⟨hcannot, error, -, happ⟩
      · unfold WorkflowEngine.remember at hcan happ
        rw [happ]
        exact .blocked (canAppend_updateMeta.mp hcan)
      · unfold WorkflowEngine.remember at hcannot happ
        rw [happ]
        refine .overwritten error hmem hlegible ?_
        rw [← Bool.not_eq_true]
        exact fun hallowed => hcannot (canAppend_updateMeta.mpr ⟨hmem, hlegible, hallowed⟩)
    · rw [bind_of_error hs]
      exact .refused error (.inr hlegible)
  · obtain ⟨error, -, hr⟩ := requireMeta_of_notMem hmem
    rw [bind_of_error hr]
    exact .refused error (.inl hmem)

/-- The results of `resume`. -/
inductive ResumeResult (e : WorkflowEngine) (n : String) :
    EStateM.Result EngineFailure WorkflowEngine Unit → Prop
  | resumed (target : NodeState) (from_ : blockedFrom e n = some target)
      (can : CanAppend e n target) : ResumeResult e n (.ok () ((e.forget n).push n target none))
  /-- The transition is refused after the memory was cleared. -/
  | forgotten (error : EngineFailure) (target : NodeState) (from_ : blockedFrom e n = some target)
      (cannot : ¬ CanAppend e n target) : ResumeResult e n (.error error (e.forget n))
  | refused (error : EngineFailure) (why : blockedFrom e n = none) :
      ResumeResult e n (.error error e)

theorem resume_result (hw : Wf e) (n : String) : ResumeResult e n (resume n e) := by
  unfold resume
  by_cases hmem : n ∈ e.nodeMeta.keys
  · obtain ⟨m, hm⟩ := OrdMap.mem_keys.mp hmem
    rw [bind_of_ok (requireMeta_of_mem hm)]
    have hmemory : blockedFrom e n = m.blockedFrom := by
      unfold blockedFrom
      rw [hm]
      rfl
    rcases hb : m.blockedFrom with _ | target
    · exact .refused _ (hmemory.trans hb)
    · dsimp only
      rw [modify_bind]
      rcases append_cases (hw.forget n) n target none with ⟨hcan, happ⟩ | ⟨hcannot, error, -, happ⟩
      · unfold WorkflowEngine.forget at hcan happ
        rw [happ]
        exact .resumed target (hmemory.trans hb) (canAppend_updateMeta.mp hcan)
      · unfold WorkflowEngine.forget at hcannot happ
        rw [happ]
        exact .forgotten error target (hmemory.trans hb)
          fun hcan => hcannot (canAppend_updateMeta.mpr hcan)
  · obtain ⟨error, -, hr⟩ := requireMeta_of_notMem hmem
    rw [bind_of_error hr]
    refine .refused error ?_
    unfold blockedFrom
    rw [OrdMap.get?_eq_none.mpr hmem]
    rfl

/-! ### Metered drives -/

/-- The ledger refuses because of a limit. -/
def Exceeded (error : LedgerError) : Prop :=
  ∃ nodeId requested available scope, error = .budgetExceeded nodeId requested available scope

/-- The results of `startRun`. -/
inductive StartResult (e : WorkflowEngine) (n : String) (max : ℚ) :
    EStateM.Result EngineFailure WorkflowEngine String → Prop
  | running {id : String} {l : BudgetLedger} (live : e.killSwitch = false)
      (reserved : e.budget.reserve n max = .ok (id, l)) (can : CanAppend e n .running) :
      StartResult e n max (.ok id ((e.meter l n (some id)).push n .running none))
  /-- Metered, and the append threw. -/
  | stranded (error : EngineFailure) {id : String} {l : BudgetLedger} (live : e.killSwitch = false)
      (registered : n ∈ e.nodeMeta.keys) (reserved : e.budget.reserve n max = .ok (id, l))
      (cannot : ¬ CanAppend e n .running) :
      StartResult e n max (.error error (e.meter l n (some id)))
  /-- The refused reservation blocks the node. -/
  | blocked {error : LedgerError} (killSwitch : Bool) (live : e.killSwitch = false)
      (reserved : e.budget.reserve n max = .error error) (exceeded : Exceeded error)
      (can : CanAppend e n .blocked) :
      StartResult e n max (.error (.budget error)
        { (e.remember n).push n .blocked BlockedReason.budget.text with killSwitch })
  /-- The refused reservation finds a node that cannot be blocked. -/
  | overwritten (failure : EngineFailure) {error : LedgerError} (live : e.killSwitch = false)
      (registered : n ∈ e.nodeMeta.keys) (reserved : e.budget.reserve n max = .error error)
      (exceeded : Exceeded error) (legible : Legible e)
      (cannot : canTransition (state e n) .blocked = false) :
      StartResult e n max (.error failure (e.remember n))
  | refused (failure : EngineFailure) (why : e.killSwitch = true ∨ n ∉ e.nodeMeta.keys ∨
        ∃ error, e.budget.reserve n max = .error error ∧ (Exceeded error → ¬ Legible e)) :
      StartResult e n max (.error failure e)

theorem startRun_result (hw : Wf e) (n : String) (max : ℚ) :
    StartResult e n max (startRun n max e) := by
  unfold startRun
  rw [get_bind]
  rcases hk : e.killSwitch with _ | _
  swap
  · exact .refused _ (.inl hk)
  rw [if_neg (by simp)]
  by_cases hmem : n ∈ e.nodeMeta.keys
  swap
  · obtain ⟨error, -, hr⟩ := requireMeta_of_notMem hmem
    dsimp only
    rw [bind_of_error hr]
    exact .refused error (.inr (.inl hmem))
  obtain ⟨m, hm⟩ := OrdMap.mem_keys.mp hmem
  dsimp only
  rw [bind_of_ok (requireMeta_of_mem hm)]
  rcases hres : e.budget.reserve n max with error | ⟨id, l⟩
  · have hd : dispatch n max e = .error (.budget error) e := by
      unfold dispatch
      refine bind_of_error ?_
      unfold reserve
      rw [get_bind, hres]; rfl
    rw [tryCatch_of_error hd]
    rcases error with ⟨nodeId, requested, available, scope⟩ | nodeId | id
    · have hexceeded : Exceeded (.budgetExceeded nodeId requested available scope) :=
        ⟨_, _, _, _, rfl⟩
      unfold refused
      dsimp only
      generalize hblock : block n .budget e = r
      have hresult := block_result hw n .budget
      rw [hblock] at hresult
      rcases hresult with hcan | ⟨failure, -, hlegible, hcannot⟩ | ⟨failure, hwhy⟩
      · have hswitch : ∃ killSwitch, (do
            block n .budget
            if scope = .project ∨ (← get).budget.projectHardCapReached = true then
              engageKillSwitch : Drive Unit) e = .ok ()
              { (e.remember n).push n .blocked BlockedReason.budget.text with killSwitch } := by
          rw [bind_of_ok hblock, get_bind]
          split
          · exact ⟨true, rfl⟩
          · exact ⟨((e.remember n).push n .blocked BlockedReason.budget.text).killSwitch, rfl⟩
        obtain ⟨killSwitch, hswitch⟩ := hswitch
        rw [bind_of_ok hswitch]
        exact .blocked killSwitch hk hres hexceeded hcan
      · have herror : (do
            block n .budget
            if scope = .project ∨ (← get).budget.projectHardCapReached = true then
              engageKillSwitch : Drive Unit) e = .error failure (e.remember n) :=
          bind_of_error hblock
        rw [bind_of_error herror]
        exact .overwritten failure hk hmem hres hexceeded hlegible hcannot
      · have herror : (do
            block n .budget
            if scope = .project ∨ (← get).budget.projectHardCapReached = true then
              engageKillSwitch : Drive Unit) e = .error failure e := bind_of_error hblock
        rw [bind_of_error herror]
        exact .refused failure (.inr (.inr ⟨_, hres, fun _ => hwhy.resolve_left (not_not.mpr hmem)⟩))
    · refine .refused _ (.inr (.inr ⟨_, hres, ?_⟩))
      rintro ⟨_, _, _, _, h⟩
      cases h
    · refine .refused _ (.inr (.inr ⟨_, hres, ?_⟩))
      rintro ⟨_, _, _, _, h⟩
      cases h
  · have hd : dispatch n max e =
        (do append n .running; return id : Drive String) (e.meter l n (some id)) := by
      unfold dispatch
      have hr : reserve n max e = .ok id { e with budget := l } := by
        unfold reserve
        rw [get_bind, hres]; rfl
      rw [bind_of_ok hr, modify_bind]
      rfl
    have hw' : Wf (e.meter l n (some id)) := hw.meter n (some id) (hw.issued_reserve hres)
    rcases append_cases hw' n .running none with ⟨hcan, happ⟩ | ⟨hcannot, error, herr, happ⟩
    · rw [tryCatch_of_ok (hd.trans (bind_of_ok happ))]
      exact .running hk hres (canAppend_meter.mp hcan)
    · rw [tryCatch_of_error (hd.trans (bind_of_error happ)), bind_of_ok (refused_other herr)]
      exact .stranded error hk hmem hres fun h => hcannot (canAppend_meter.mpr h)

/-- The results of `completeRun`. -/
inductive CompleteResult (e : WorkflowEngine) (n : String) (actual : ℚ) :
    EStateM.Result EngineFailure WorkflowEngine Unit → Prop
  | unmetered {m : NodeMeta} (hm : e.nodeMeta.get? n = some m) (none : m.activeReservation = none)
      (can : CanAppend e n .verifying) :
      CompleteResult e n actual (.ok () (e.push n .verifying Option.none))
  | settled {m : NodeMeta} {id : String} {l : BudgetLedger} (hm : e.nodeMeta.get? n = some m)
      (active : m.activeReservation = some id) (settle : e.budget.settle n id actual = .ok l)
      (can : CanAppend e n .verifying) :
      CompleteResult e n actual (.ok () ((e.meter l n Option.none).push n .verifying Option.none))
  /-- Settled, and the append threw. -/
  | lost (error : EngineFailure) {m : NodeMeta} {id : String} {l : BudgetLedger}
      (hm : e.nodeMeta.get? n = some m) (active : m.activeReservation = some id)
      (settle : e.budget.settle n id actual = .ok l) (cannot : ¬ CanAppend e n .verifying) :
      CompleteResult e n actual (.error error (e.meter l n Option.none))
  | refused (error : EngineFailure) (why :
        (¬ CanAppend e n .verifying ∧ ∀ m, e.nodeMeta.get? n = some m → m.activeReservation = none) ∨
        ∃ m id error, e.nodeMeta.get? n = some m ∧ m.activeReservation = some id ∧
          e.budget.settle n id actual = .error error) :
      CompleteResult e n actual (.error error e)

theorem completeRun_result (hw : Wf e) (n : String) (actual : ℚ) :
    CompleteResult e n actual (completeRun n actual e) := by
  unfold completeRun
  by_cases hmem : n ∈ e.nodeMeta.keys
  · obtain ⟨m, hm⟩ := OrdMap.mem_keys.mp hmem
    rw [bind_of_ok (requireMeta_of_mem hm)]
    rcases ha : m.activeReservation with _ | id
    · rcases append_cases hw n .verifying none with ⟨hcan, happ⟩ | ⟨hcannot, error, -, happ⟩
      · show CompleteResult e n actual (append n .verifying none e)
        rw [happ]
        exact .unmetered hm ha hcan
      · show CompleteResult e n actual (append n .verifying none e)
        rw [happ]
        refine .refused error (.inl ⟨hcannot, fun m' hm' => ?_⟩)
        cases hm.symm.trans hm'
        exact ha
    · dsimp only
      rcases hset : e.budget.settle n id actual with error | l
      · have hs : settle n id actual e = .error (.budget error) e := by
          unfold settle
          rw [get_bind, hset]; rfl
        rw [bind_of_error hs]
        exact .refused _ (.inr ⟨m, id, error, hm, ha, hset⟩)
      · have hs : settle n id actual e = .ok () { e with budget := l } := by
          unfold settle
          rw [get_bind, hset]; rfl
        rw [bind_of_ok hs, modify_bind]
        have hw' : Wf (e.meter l n none) := hw.meter n none (hw.issued_settle hset)
        rcases append_cases hw' n .verifying none with ⟨hcan, happ⟩ | ⟨hcannot, error, -, happ⟩
        · show CompleteResult e n actual (append n .verifying none (e.meter l n none))
          rw [happ]
          exact .settled hm ha hset (canAppend_meter.mp hcan)
        · show CompleteResult e n actual (append n .verifying none (e.meter l n none))
          rw [happ]
          exact .lost error hm ha hset fun h => hcannot (canAppend_meter.mpr h)
  · obtain ⟨error, -, hr⟩ := requireMeta_of_notMem hmem
    rw [bind_of_error hr]
    refine .refused error (.inl ⟨fun can => hmem can.registered, fun m hm => ?_⟩)
    exact absurd (OrdMap.mem_keys.mpr ⟨m, hm⟩) hmem

end Norns.Engine.Workflow
