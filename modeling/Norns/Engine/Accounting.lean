import Mathlib
import Norns.Engine.BudgetCap
import Norns.Engine.Workflow

/-! # Held money follows the node lifecycle

A node is *holding* while it runs, and while it is blocked with the block having interrupted a run.
`Accounted` says that exactly the holding nodes have a reservation: one, the active one.

Leaving `running` any other way than through `completeRun` never touches the ledger, and `startRun`
reserves before the append that may throw. `Keeps` is the condition on an operation and the state
before it under which the books stay right; the run law `accounted_run` says that it is exact. -/

namespace Norns.Engine.Accounting

open Norns.Lib Norns.Lib.Edit Norns.Lib.Run Norns.Contracts Norns.Contracts.Lifecycle
open Norns.Engine.Budget Norns.Engine.Workflow

def activeReservation (e : WorkflowEngine) (nodeId : String) : Option String :=
  (e.nodeMeta.get? nodeId).bind NodeMeta.activeReservation

/-- The reservations the ledger holds for the node. -/
def reservations (e : WorkflowEngine) (nodeId : String) : List String :=
  match e.budget.nodes.get? nodeId with
  | some node => node.reservations.keys
  | none => []

/-- Running, or blocked with the block having interrupted running. -/
def Holding (e : WorkflowEngine) (nodeId : String) : Prop :=
  state e nodeId = .running ∨ (state e nodeId = .blocked ∧ interrupted e nodeId = some .running)

instance (e : WorkflowEngine) (nodeId : String) : Decidable (Holding e nodeId) :=
  inferInstanceAs (Decidable (_ ∨ _))

def AccountedAt (e : WorkflowEngine) (nodeId : String) : Prop :=
  if Holding e nodeId then
    ∃ id, activeReservation e nodeId = some id ∧ reservations e nodeId = [id]
  else activeReservation e nodeId = none ∧ reservations e nodeId = []

/-- **Budget accounting follows the node lifecycle.** -/
def Accounted (e : WorkflowEngine) : Prop := ∀ nodeId, AccountedAt e nodeId

/-- The operation keeps the books right. -/
def Keeps (e : WorkflowEngine) : Op → Prop
  | .assign n => CanAppend e n .assigned → ¬ Holding e n
  | .recordVerification n passed =>
    CanAppend e n (if passed then .in_review else .failed) → ¬ Holding e n
  | .reviewerDecision n decision =>
    CanAppend e n (if decision = .approve then .verified else .assigned) → ¬ Holding e n
  | .cancel n => CanAppend e n .cancelled → ¬ Holding e n
  | .supersede n => CanAppend e n .superseded → ¬ Holding e n
  -- a metered run has to reach `running`
  | .startRun n max => ∀ id l, e.killSwitch = false → n ∈ e.nodeMeta.keys →
      e.budget.reserve n max = .ok (id, l) → ¬ Holding e n ∧ CanAppend e n .running
  -- the money is settled before the append
  | .completeRun n _ => Holding e n → Legible e
  -- a stale memory must not move a node into or out of `running`
  | .resume n => ∀ m target, e.nodeMeta.get? n = some m → m.blockedFrom = some target →
      CanAppend e n target → state e n ≠ .blocked →
        target ≠ .running ∧ (state e n = .running → target = .blocked)
  | .recordApproval _ | .engageKillSwitch | .disengageKillSwitch | .registerNode _ _
  | .replaceDependency _ _ _ | .start _ _ | .integrate _ | .block _ _ => True

section

variable {e e' : WorkflowEngine} {n k : String} {target : NodeState}

/-! ### Frames -/

/-- The books of a node depend on its state and on its two entries. -/
theorem accountedAt_congr (hstate : state e' k = state e k)
    (hinterrupted : interrupted e' k = interrupted e k)
    (hactive : activeReservation e' k = activeReservation e k)
    (hreservations : reservations e' k = reservations e k) :
    AccountedAt e' k ↔ AccountedAt e k := by
  have hhold : Holding e' k ↔ Holding e k := by
    unfold Holding
    rw [hstate, hinterrupted]
  unfold AccountedAt
  rw [hactive, hreservations]
  by_cases h : Holding e k
  · rw [if_pos h, if_pos (hhold.mpr h)]
  · rw [if_neg h, if_neg fun h' => h (hhold.mp h')]

theorem accountedAt_of_holding (h : Holding e n) :
    AccountedAt e n ↔ ∃ id, activeReservation e n = some id ∧ reservations e n = [id] := by
  unfold AccountedAt; rw [if_pos h]

theorem accountedAt_of_not_holding (h : ¬ Holding e n) :
    AccountedAt e n ↔ activeReservation e n = none ∧ reservations e n = [] := by
  unfold AccountedAt; rw [if_neg h]

theorem activeReservation_updateMeta {f : NodeMeta → NodeMeta}
    (hf : ∀ m, (f m).activeReservation = m.activeReservation) :
    activeReservation (e.updateMeta n f) k = activeReservation e k := by
  unfold activeReservation
  rw [WorkflowEngine.updateMeta_get?]
  split
  · rcases e.nodeMeta.get? k with _ | m
    · rfl
    · exact hf m
  · rfl

/-- A write to an entry that leaves its reservation alone. -/
theorem accounted_updateMeta {f : NodeMeta → NodeMeta}
    (hf : ∀ m, (f m).activeReservation = m.activeReservation) :
    Accounted (e.updateMeta n f) ↔ Accounted e := by
  refine forall_congr' fun k => accountedAt_congr ?_ ?_ (activeReservation_updateMeta hf) ?_
  · exact state_updateMeta
  · exact interrupted_updateMeta
  · unfold reservations; rw [WorkflowEngine.updateMeta_budget]

/-- An event concerns its own node only. -/
theorem accounted_push (h : ∀ k, n ≠ k → AccountedAt e k) (reason : Option String) :
    Accounted (e.push n target reason) ↔ AccountedAt (e.push n target reason) n := by
  refine ⟨fun hall => hall n, fun hn k => ?_⟩
  by_cases hk : n = k
  · exact hk ▸ hn
  · exact (accountedAt_congr (state_push_ne hk reason) (interrupted_push_ne hk reason)
      rfl rfl).mpr (h k hk)

/-- After an event, the node holds exactly if it runs, or if it was blocked while running. -/
theorem holding_push (h : canTransition (state e n) target = true) (reason : Option String) :
    Holding (e.push n target reason) n ↔
      target = .running ∨ (target = .blocked ∧ state e n = .running) := by
  unfold Holding
  rw [state_push h, interrupted_push h, Option.some.injEq]

/-- **Leaving without the ledger.** A node that goes anywhere but to `running` or `blocked` must not
have been holding. -/
theorem accounted_push_iff (ha : Accounted e) (h : canTransition (state e n) target = true)
    (hr : target ≠ .running) (hb : target ≠ .blocked) (reason : Option String) :
    Accounted (e.push n target reason) ↔ ¬ Holding e n := by
  have hnot : ¬ Holding (e.push n target reason) n := by
    rw [holding_push h]
    exact fun hh => hh.elim hr fun hh => hb hh.1
  rw [accounted_push (fun k _ => ha k), accountedAt_of_not_holding hnot]
  constructor
  · intro hnone hold
    obtain ⟨id, hactive, -⟩ := (accountedAt_of_holding hold).mp (ha n)
    exact absurd (hactive.symm.trans hnone.1) (by simp)
  · intro hold
    exact (accountedAt_of_not_holding hold).mp (ha n)

theorem accounted_append (hw : Wf e) (ha : Accounted e) (hr : target ≠ .running)
    (hb : target ≠ .blocked) :
    Accounted (after (append n target none e)) ↔ (CanAppend e n target → ¬ Holding e n) := by
  rcases after_append hw n target with ⟨hcan, he⟩ | ⟨hcan, he⟩
  · rw [he, accounted_push_iff ha hcan.allowed hr hb]
    exact ⟨fun h _ => h, fun h => h hcan⟩
  · rw [he]
    exact ⟨fun _ h => absurd h hcan, fun _ => ha⟩

theorem not_holding_of_state (hr : state e n ≠ .running) (hb : state e n ≠ .blocked) :
    ¬ Holding e n := fun h => h.elim hr fun h => hb h.1

theorem cascades_accounted (h : Cascades e e') (ha : Accounted e) : Accounted e' := by
  induction h with
  | refl => exact ha
  | ready h can pending ih =>
    refine (accounted_push_iff ih can.allowed NodeState.noConfusion NodeState.noConfusion none).mpr
      (not_holding_of_state ?_ ?_)
    · rw [pending]; exact NodeState.noConfusion
    · rw [pending]; exact NodeState.noConfusion

/-- `block` keeps the books: the reservation of an interrupted run stays with the node. -/
theorem blocks_accounted (h : Blocks e n e') (ha : Accounted e) : Accounted e' := by
  have hrem : Accounted (e.remember n) :=
    (accounted_updateMeta (f := fun m => { m with blockedFrom := some (state e n) })
      fun _ => rfl).mpr ha
  rcases h with _ | _ | ⟨can, reason⟩
  · exact ha
  · exact hrem
  · have hcan : canTransition (state (e.remember n) n) .blocked = true := by
      unfold WorkflowEngine.remember
      rw [state_updateMeta]
      exact can.allowed
    rw [accounted_push (fun k _ => hrem k)]
    have hne : state (e.remember n) n ≠ .blocked := by
      intro hb
      rw [hb] at hcan
      exact absurd hcan (by decide)
    by_cases hrun : state (e.remember n) n = .running
    · have hold : Holding ((e.remember n).push n .blocked reason) n :=
        (holding_push hcan reason).mpr (.inr ⟨rfl, hrun⟩)
      exact (accountedAt_of_holding hold).mpr ((accountedAt_of_holding (.inl hrun)).mp (hrem n))
    · have hold : ¬ Holding ((e.remember n).push n .blocked reason) n := by
        rw [holding_push hcan reason]
        exact fun hh => hh.elim NodeState.noConfusion fun hh => hrun hh.2
      exact (accountedAt_of_not_holding hold).mpr
        ((accountedAt_of_not_holding (not_holding_of_state hrun hne)).mp (hrem n))

/-! ### Metering -/

variable {l : BudgetLedger} {id : String} {max : ℚ} {reservation : Option String}

theorem activeReservation_meter (h : n ∈ e.nodeMeta.keys) :
    activeReservation (e.meter l n reservation) n = reservation := by
  obtain ⟨m, hm⟩ := OrdMap.mem_keys.mp h
  unfold activeReservation WorkflowEngine.meter
  rw [WorkflowEngine.updateMeta_get?, if_pos rfl]
  show ((e.nodeMeta.get? n).map _).bind _ = _
  rw [hm]; rfl

/-- The reservations of the other nodes are the same in `l`. -/
def SameElsewhere (e : WorkflowEngine) (l : BudgetLedger) (n : String) : Prop :=
  ∀ k, n ≠ k → l.nodes.get? k = e.budget.nodes.get? k

theorem reservations_meter (h : SameElsewhere e l n) (hk : n ≠ k) :
    reservations (e.meter l n reservation) k = reservations e k := by
  unfold reservations WorkflowEngine.meter
  rw [WorkflowEngine.updateMeta_budget]
  show (match l.nodes.get? k with | some node => node.reservations.keys | none => []) = _
  rw [h k hk]

theorem state_meter : state (e.meter l n reservation) k = state e k := state_updateMeta

theorem interrupted_meter : interrupted (e.meter l n reservation) k = interrupted e k :=
  interrupted_updateMeta

theorem holding_meter : Holding (e.meter l n reservation) k ↔ Holding e k := by
  unfold Holding
  rw [state_meter, interrupted_meter]

theorem accountedAt_meter (ha : Accounted e) (h : SameElsewhere e l n) (hk : n ≠ k) :
    AccountedAt (e.meter l n reservation) k := by
  have hactive : activeReservation (e.meter l n reservation) k = activeReservation e k := by
    unfold activeReservation WorkflowEngine.meter
    rw [WorkflowEngine.updateMeta_get?, if_neg hk]
  exact (accountedAt_congr state_meter interrupted_meter hactive (reservations_meter h hk)).mpr
    (ha k)

/-- A reservation that was granted is a new one. -/
theorem reservations_reserve (reservation : Option String) (hw : Wf e)
    (h : e.budget.reserve n max = .ok (id, l)) :
    SameElsewhere e l n ∧
      reservations (e.meter l n reservation) n = reservations e n ++ [id] := by
  obtain ⟨node, hnode, -, -, hid, -, -, hnodes⟩ := BudgetLedger.reserve_ok h
  refine ⟨fun k hk => by rw [hnodes, OrdMap.get?_set_ne _ _ hk], ?_⟩
  have hfresh : id ∉ node.reservations.keys := by
    intro hmem
    obtain ⟨k, hk, he⟩ := hw.issued n node hnode id hmem
    have := BudgetCap.reservationId_injective (hid.symm.trans he)
    omega
  unfold reservations WorkflowEngine.meter
  rw [WorkflowEngine.updateMeta_budget]
  show (match l.nodes.get? n with | some node => node.reservations.keys | none => []) = _
  rw [hnodes, OrdMap.get?_set_self, hnode]
  dsimp only
  rw [OrdMap.keys_set, if_neg hfresh]

theorem reservations_eq_nil (ha : Accounted e) : reservations e n = [] ↔ ¬ Holding e n := by
  constructor
  · intro hnil hold
    obtain ⟨id, -, hid⟩ := (accountedAt_of_holding hold).mp (ha n)
    rw [hnil] at hid
    exact absurd hid (by simp)
  · intro hold
    exact ((accountedAt_of_not_holding hold).mp (ha n)).2

/-- `startRun`: the metered run has to reach `running`, and no other reservation may be open. -/
theorem startRun_accounted (hw : Wf e) (ha : Accounted e) (h : Dispatches e n max e') :
    Accounted e' ↔ Keeps e (.startRun n max) := by
  rcases h with ⟨hb, killSwitch, why⟩ | ⟨live, reserved, can⟩ | ⟨live, registered, reserved, cannot⟩
  · have hbooks := blocks_accounted hb ha
    refine iff_of_true hbooks fun id l hlive hmem hres => ?_
    rcases why with hk | hk | ⟨error, herror⟩
    · exact absurd (hk.symm.trans hlive) (by simp)
    · exact absurd hmem hk
    · exact absurd (herror.symm.trans hres) (by simp)
  · rename_i id l
    obtain ⟨hsame, hres⟩ := reservations_reserve (some id) hw reserved
    have hcan : canTransition (state (e.meter l n (some id)) n) .running = true := by
      rw [state_meter]; exact can.allowed
    have hold : Holding ((e.meter l n (some id)).push n .running none) n :=
      (holding_push hcan none).mpr (.inl rfl)
    have hkeeps : Keeps e (.startRun n max) ↔ ¬ Holding e n :=
      ⟨fun h => (h id l live can.registered reserved).1, fun h _ _ _ _ _ => ⟨h, can⟩⟩
    have hbooks : (∃ id', some id = some id' ∧ reservations e n ++ [id] = [id']) ↔
        reservations e n = [] := by
      constructor
      · rintro ⟨id', -, hlist⟩
        have hlen := congrArg List.length hlist
        rw [List.length_append, List.length_singleton, List.length_singleton] at hlen
        exact List.length_eq_zero_iff.mp (by omega)
      · intro hnil
        exact ⟨id, rfl, by rw [hnil]; rfl⟩
    rw [accounted_push fun k hk => accountedAt_meter ha hsame hk, accountedAt_of_holding hold, hkeeps,
      ← reservations_eq_nil ha, ← hbooks, ← hres]
    show (∃ id', activeReservation (e.meter l n (some id)) n = some id' ∧ _) ↔ _
    rw [activeReservation_meter can.registered]
    exact Iff.rfl
  · rename_i id l
    obtain ⟨-, hres⟩ := reservations_reserve (some id) hw reserved
    refine iff_of_false (fun hall => ?_) fun h => cannot (h id l live registered reserved).2
    by_cases hold : Holding e n
    · obtain ⟨id', -, hid'⟩ := (accountedAt_of_holding (holding_meter.mpr hold)).mp (hall n)
      obtain ⟨id'', -, hid''⟩ := (accountedAt_of_holding hold).mp (ha n)
      rw [hres, hid''] at hid'
      exact absurd hid' (by simp)
    · have hnone := (accountedAt_of_not_holding fun h => hold (holding_meter.mp h)).mp (hall n)
      rw [activeReservation_meter registered] at hnone
      exact absurd hnone.1 (by simp)

/-- A settled reservation is gone. -/
theorem reservations_settle (reservation : Option String)
    (h : e.budget.settle n id max = .ok l) :
    SameElsewhere e l n ∧ reservations (e.meter l n reservation) n =
      (reservations e n).filter fun id' => decide (id' ≠ id) := by
  obtain ⟨node, held, hnode, -, hl⟩ := BudgetLedger.settle_ok h
  refine ⟨fun k hk => by rw [hl]; exact OrdMap.get?_set_ne _ _ hk, ?_⟩
  unfold reservations WorkflowEngine.meter
  rw [WorkflowEngine.updateMeta_budget]
  show (match l.nodes.get? n with | some node => node.reservations.keys | none => []) = _
  rw [hl, hnode]
  dsimp only
  rw [OrdMap.get?_set_self]
  show (node.reservations.delete id).entries.map Prod.fst = node.reservations.keys.filter _
  unfold OrdMap.keys
  rw [OrdMap.entries_delete, List.filter_map]
  rfl

/-- The one reservation of a holding node can be settled. -/
theorem settle_of_accounted (ha : Accounted e) (hold : Holding e n)
    (h : activeReservation e n = some id) (actual : ℚ) :
    ∃ l, e.budget.settle n id actual = .ok l := by
  obtain ⟨id', hactive, hres⟩ := (accountedAt_of_holding hold).mp (ha n)
  obtain rfl := Option.some.inj (h.symm.trans hactive)
  unfold reservations at hres
  rcases hn : e.budget.nodes.get? n with _ | node
  · rw [hn] at hres; exact absurd hres (by simp)
  · rw [hn] at hres
    have hmem : id ∈ node.reservations.keys := by
      rw [show node.reservations.keys = [id] from hres]
      exact List.mem_singleton_self id
    obtain ⟨held, hheld⟩ := OrdMap.mem_keys.mp hmem
    exact BudgetLedger.settle_of_held hn hheld actual

theorem activeReservation_of_get? {m : NodeMeta} (hm : e.nodeMeta.get? n = some m) :
    activeReservation e n = m.activeReservation := by
  unfold activeReservation; rw [hm]; rfl

/-- `completeRun` settles before the append, which can only throw on an illegible log. -/
theorem completeRun_accounted (hw : Wf e) (ha : Accounted e) {actual : ℚ}
    (h : Completes e n actual e') : Accounted e' ↔ Keeps e (.completeRun n actual) := by
  -- a node without a reservation is not holding, one with a reservation is
  have hactive : ∀ m, e.nodeMeta.get? n = some m →
      (Holding e n ↔ m.activeReservation.isSome = true) := by
    intro m hm
    have hm' := activeReservation_of_get? hm
    by_cases hold : Holding e n
    · obtain ⟨id, hid, -⟩ := (accountedAt_of_holding hold).mp (ha n)
      exact iff_of_true hold (by rw [← hm', hid]; rfl)
    · obtain ⟨hid, -⟩ := (accountedAt_of_not_holding hold).mp (ha n)
      exact iff_of_false hold (by rw [← hm', hid]; simp)
  rcases h with hunknown | ⟨hm, hnone, h⟩ | ⟨hm, hid, hset⟩ | ⟨hm, hid, hset, h⟩
  · refine iff_of_true ha fun hold => absurd hold (not_holding_of_state ?_ ?_)
    · rw [hw.state_pending hunknown]; exact NodeState.noConfusion
    · rw [hw.state_pending hunknown]; exact NodeState.noConfusion
  · rename_i m
    have hold : ¬ Holding e n := by rw [hactive m hm, hnone]; simp
    refine iff_of_true ?_ fun h => absurd h hold
    rcases h with ⟨hcan, rfl⟩ | rfl
    · exact (accounted_push_iff ha hcan.allowed NodeState.noConfusion NodeState.noConfusion
        none).mpr hold
    · exact ha
  · rename_i m id error
    have hold : Holding e n := by rw [hactive m hm, hid]; rfl
    obtain ⟨l, hl⟩ := settle_of_accounted ha hold ((activeReservation_of_get? hm).trans hid) actual
    exact absurd (hset.symm.trans hl) (by simp)
  · rename_i m id l
    have hold : Holding e n := by rw [hactive m hm, hid]; rfl
    have hreg : n ∈ e.nodeMeta.keys := OrdMap.mem_keys.mpr ⟨m, hm⟩
    obtain ⟨hsame, hres⟩ := reservations_settle none hset
    have hempty : reservations (e.meter l n none) n = [] := by
      obtain ⟨id', hid', hone⟩ := (accountedAt_of_holding hold).mp (ha n)
      rw [activeReservation_of_get? hm, hid] at hid'
      rw [hres, hone, Option.some.inj hid']
      simp
    rcases h with ⟨hcan, rfl⟩ | ⟨hcan, rfl⟩
    · refine iff_of_true ?_ fun _ => hcan.legible
      have hcan' : canTransition (state (e.meter l n none) n) .verifying = true := by
        rw [state_meter]; exact hcan.allowed
      have hnot : ¬ Holding ((e.meter l n none).push n .verifying none) n := by
        rw [holding_push hcan']
        exact fun hh => hh.elim NodeState.noConfusion fun hh => NodeState.noConfusion hh.1
      rw [accounted_push fun k hk => accountedAt_meter ha hsame hk,
        accountedAt_of_not_holding hnot]
      exact ⟨activeReservation_meter hreg, hempty⟩
    · refine iff_of_false (fun hall => ?_) fun hkeeps => ?_
      · obtain ⟨id', -, hid'⟩ := (accountedAt_of_holding (holding_meter.mpr hold)).mp (hall n)
        rw [hempty] at hid'
        exact absurd hid' (by simp)
      · refine hcan ⟨hreg, hkeeps hold, ?_⟩
        rcases hold with hrun | ⟨hblocked, -⟩
        · rw [hrun]; rfl
        · rw [hblocked]; rfl

/-- An event keeps the books of its node exactly if the node holds afterwards as it did before. -/
theorem accountedAt_push_iff {reason : Option String} (ha : AccountedAt e n) :
    AccountedAt (e.push n target reason) n ↔ (Holding (e.push n target reason) n ↔ Holding e n) := by
  by_cases hold : Holding e n
  · obtain ⟨id, hactive, hres⟩ := (accountedAt_of_holding hold).mp ha
    by_cases hnew : Holding (e.push n target reason) n
    · rw [accountedAt_of_holding hnew]
      exact iff_of_true ⟨id, hactive, hres⟩ (iff_of_true hnew hold)
    · rw [accountedAt_of_not_holding hnew]
      refine iff_of_false (fun h => ?_) fun h => hnew (h.mpr hold)
      exact absurd (hactive.symm.trans h.1) (by simp)
  · obtain ⟨hactive, hres⟩ := (accountedAt_of_not_holding hold).mp ha
    by_cases hnew : Holding (e.push n target reason) n
    · rw [accountedAt_of_holding hnew]
      refine iff_of_false (fun h => ?_) fun h => hold (h.mp hnew)
      obtain ⟨id, hid, -⟩ := h
      exact absurd (hactive.symm.trans hid) (by simp)
    · rw [accountedAt_of_not_holding hnew]
      exact iff_of_true ⟨hactive, hres⟩ (iff_of_false hnew hold)

/-- A stale memory: the node is not blocked, and the transition is one the table allows. -/
theorem stale_resume {source : NodeState} (h : canTransition source target = true) :
    ((target = .running ∨ (target = .blocked ∧ source = .running)) ↔ source = .running) ↔
      target ≠ .running ∧ (source = .running → target = .blocked) := by
  by_cases hs : source = .running
  · have ht : target ≠ .running := by
      rintro rfl
      exact absurd h (by rw [hs]; decide)
    simp [hs, ht]
  · simp [hs]

/-- `resume` from a block goes back to what was interrupted. -/
theorem resume_accounted (hw : Wf e) (ha : Accounted e) (h : Resumes e n e') :
    Accounted e' ↔ Keeps e (.resume n) := by
  have hforget : Accounted (e.forget n) :=
    (accounted_updateMeta (f := fun m => { m with blockedFrom := none }) fun _ => rfl).mpr ha
  have hstate : state (e.forget n) n = state e n := state_updateMeta
  have hholding : Holding (e.forget n) n ↔ Holding e n := by
    unfold Holding WorkflowEngine.forget
    rw [state_updateMeta, interrupted_updateMeta]
  rcases h with hnone | ⟨hm, hfrom, hcan⟩ | ⟨hm, hfrom, hcannot⟩
  · refine iff_of_true ha fun m target hm hfrom => ?_
    exact absurd (hfrom.symm.trans (hnone m hm)) (by simp)
  · rename_i m target
    have hcan' : canTransition (state (e.forget n) n) target = true := by
      rw [hstate]; exact hcan.allowed
    have hkeeps : Keeps e (.resume n) ↔ (state e n ≠ .blocked →
        target ≠ .running ∧ (state e n = .running → target = .blocked)) := by
      refine ⟨fun h => h m target hm hfrom hcan, fun h m' target' hm' hfrom' _ => ?_⟩
      obtain rfl := Option.some.inj (hm.symm.trans hm')
      obtain rfl := Option.some.inj (hfrom.symm.trans hfrom')
      exact h
    rw [accounted_push (fun k _ => hforget k), accountedAt_push_iff (hforget n),
      holding_push hcan', hholding, hstate, hkeeps]
    by_cases hblocked : state e n = .blocked
    · -- what the node remembers is what was interrupted
      have hmemory := hw.remembers n m hm hblocked target hfrom
      have hne : target ≠ .blocked := by
        rintro rfl
        exact absurd hcan.allowed (by rw [hblocked]; decide)
      have hint : interrupted e n = some target := hmemory.resolve_right hne
      refine iff_of_true ?_ fun h => absurd hblocked h
      unfold Holding
      rw [hblocked, hint, Option.some.injEq]
      constructor
      · exact fun h => .inr ⟨rfl, h.resolve_right fun hh => hne hh.1⟩
      · exact fun h => .inl (h.resolve_left NodeState.noConfusion).2
    · rw [show Holding e n ↔ state e n = .running from
        ⟨fun h => h.resolve_right fun hh => hblocked hh.1, .inl⟩, stale_resume hcan.allowed]
      exact ⟨fun h _ => h, fun h => h hblocked⟩
  · rename_i m target
    refine iff_of_true hforget fun m' target' hm' hfrom' hcan => ?_
    obtain rfl := Option.some.inj (hm.symm.trans hm')
    obtain rfl := Option.some.inj (hfrom.symm.trans hfrom')
    exact absurd hcan hcannot

theorem integrate_accounted (hw : Wf e) (ha : Accounted e) :
    Accounted (after (integrate n e)) := by
  rcases integrate_cases hw n with ⟨hcan, h⟩ | h
  · refine cascades_accounted h ((accounted_push_iff ha hcan.allowed NodeState.noConfusion
      NodeState.noConfusion none).mpr ?_)
    -- only a verified node is integrated
    rintro (hrun | ⟨hblocked, -⟩)
    · exact absurd hcan.allowed (by rw [hrun]; decide)
    · exact absurd hcan.allowed (by rw [hblocked]; decide)
  · exact (congrArg Accounted h).mpr ha

theorem registerNode_accounted (hw : Wf e) (ha : Accounted e) (dependencies : List String) :
    Accounted (after (registerNode n dependencies e)) := by
  rcases registerNode_cases hw n dependencies with ⟨hnew, h⟩ | h
  · have hactive : ∀ k, activeReservation
        { e with nodeMeta := e.nodeMeta.set n (.new dependencies) } k = activeReservation e k := by
      intro k
      show ((e.nodeMeta.set n (.new dependencies)).get? k).bind _ = (e.nodeMeta.get? k).bind _
      rw [OrdMap.get?_set]
      split
      · rename_i hk
        rw [← hk, OrdMap.get?_eq_none.mpr hnew]; rfl
      · rfl
    have hregistered : Accounted { e with nodeMeta := e.nodeMeta.set n (.new dependencies) } := by
      intro k
      refine (accountedAt_congr ?_ ?_ (hactive k) ?_).mpr (ha k)
      all_goals rfl
    exact cascades_accounted h hregistered
  · exact (congrArg Accounted h).mpr ha

/-- **One operation** keeps the books right exactly when it meets the condition. -/
theorem step_accounted (hw : Wf e) (ha : Accounted e) (op : Op) :
    Accounted (step e op) ↔ Keeps e op := by
  rcases op with approval | _ | _ | ⟨n, deps⟩ | ⟨n, oldDep, newDep⟩ | ⟨ph, ah⟩ | n | ⟨n, max⟩ |
    ⟨n, actual⟩ | ⟨n, passed⟩ | ⟨n, decision⟩ | n | ⟨n, reason⟩ | n | n | n
  · exact iff_of_true ha trivial
  · exact iff_of_true ha trivial
  · exact iff_of_true ha trivial
  · exact iff_of_true (registerNode_accounted hw ha deps) trivial
  · refine iff_of_true ?_ trivial
    rcases replaceDependency_cases (e := e) n oldDep newDep with h | h
    · exact (congrArg Accounted h).mpr ((accounted_updateMeta (f := fun m => { m with
        dependencies := m.dependencies.map fun dep => if dep = oldDep then newDep else dep })
          fun _ => rfl).mpr ha)
    · exact (congrArg Accounted h).mpr ha
  · refine iff_of_true ?_ trivial
    rcases start_cases hw ph ah with h | h
    · exact cascades_accounted h ha
    · exact (congrArg Accounted h).mpr ha
  · exact accounted_append hw ha NodeState.noConfusion NodeState.noConfusion
  · rw [step_startRun]
    exact startRun_accounted hw ha (startRun_dispatches hw n max)
  · exact completeRun_accounted hw ha (completeRun_completes hw n actual)
  · refine accounted_append hw ha ?_ ?_ <;> split <;> exact NodeState.noConfusion
  · refine accounted_append hw ha ?_ ?_ <;> split <;> exact NodeState.noConfusion
  · exact iff_of_true (integrate_accounted hw ha) trivial
  · refine iff_of_true ?_ trivial
    exact ((block_sat hw n reason).mono (fun _ _ h => blocks_accounted h ha)
      fun _ _ h => blocks_accounted h ha).after
  · exact resume_accounted hw ha (resume_resumes hw n)
  · exact accounted_append hw ha NodeState.noConfusion NodeState.noConfusion
  · exact accounted_append hw ha NodeState.noConfusion NodeState.noConfusion

end

/-! ### Runs -/

theorem accounted_boot (plan : Plan.PlanContract) (cap : ℚ) (budgets : List (String × ℚ)) :
    Accounted (boot plan cap budgets) := by
  intro n
  refine (accountedAt_of_not_holding (not_holding_of_state ?_ ?_)).mpr ⟨?_, ?_⟩
  · exact NodeState.noConfusion
  · exact NodeState.noConfusion
  · unfold activeReservation
    rcases hm : (boot plan cap budgets).nodeMeta.get? n with _ | m
    · rfl
    · obtain ⟨mod, -, heq⟩ := List.mem_map.mp (OrdMap.mem_of_get?_ofList hm)
      rw [← (Prod.mk.inj heq).2]; rfl
  · unfold reservations
    split
    · rename_i node hnode
      rw [approved_reservations cap budgets n node hnode]; rfl
    · rfl

/-- **Budget accounting follows the node lifecycle**, in every state of a run, exactly when every
operation of the run meets the condition. -/
theorem accounted_run (plan : Plan.PlanContract) (cap : ℚ) (budgets : List (String × ℚ))
    (ops : List Op) :
    (∀ pre, pre <+: ops → Accounted (run step (boot plan cap budgets) pre)) ↔
      Along step Keeps (boot plan cap budgets) ops :=
  prefixes_iff_along (J := Wf) (fun _ op hw => hw.step op)
    (fun _ op hw ha => step_accounted hw ha op) (wf_boot plan cap budgets)
    (accounted_boot plan cap budgets)

def oneModule : Plan.PlanContract := ⟨[⟨"a", "A", [], .S, .low, true⟩]⟩

/-- Approved and started, assigned and dispatched for ten dollars, then cancelled. -/
def cancelledRun : WorkflowEngine :=
  run step (boot oneModule 100 [("a", 50)])
    [.recordApproval ⟨.plan, "hash"⟩, .recordApproval ⟨.allocation, "hash"⟩, .start none none,
      .assign "a", .startRun "a" 10, .cancel "a"]

/-- The cancelled node still has its reservation. -/
theorem cancelled_holds_money :
    state cancelledRun "a" = .cancelled ∧ activeReservation cancelledRun "a" = some "res_1" ∧
      reservations cancelledRun "a" = ["res_1"] ∧ ¬ Accounted cancelledRun := by
  have hstate : state cancelledRun "a" = .cancelled := by decide +kernel
  have hactive : activeReservation cancelledRun "a" = some "res_1" := by decide +kernel
  refine ⟨hstate, hactive, by decide +kernel, fun hall => ?_⟩
  have hnot : ¬ Holding cancelledRun "a" := by
    refine not_holding_of_state ?_ ?_
    · rw [hstate]; exact NodeState.noConfusion
    · rw [hstate]; exact NodeState.noConfusion
  have hnone := (accountedAt_of_not_holding hnot).mp (hall "a")
  exact absurd (hactive.symm.trans hnone.1) (by simp)

end Norns.Engine.Accounting
