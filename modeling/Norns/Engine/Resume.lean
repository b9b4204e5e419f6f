import Norns.Engine.Outcomes

/-! # Block and resume

`blockedFrom` is kept beside the log: `block` writes it before the transition is checked, and only
`resume` clears it. A node that remembers a state without being blocked is *stale* if its lifecycle
allows that state: then `resume` moves it. `Tidy` says which operations leave no stale node and
overwrite no memory; the run law `resume_law` says that the condition is exact. -/

namespace Norns.Engine.Resume

open Norns.Lib Norns.Lib.Edit Norns.Lib.Run Norns.Contracts Norns.Contracts.Lifecycle
open Norns.Contracts.Reducer Norns.Engine.Budget Norns.Engine.Workflow

/-- Whatever `resume` moves was blocked, and goes back to what its block interrupted. -/
def ResumeLaw (e : WorkflowEngine) : Prop :=
  ∀ n e', resume n e = .ok () e' → state e n = .blocked ∧ interrupted e n = some (state e' n)

/-- A block that meets a blocked node leaves what the node remembers; `startRun` blocks a node whose
reservation is refused. -/
def KeepsMemory (e : WorkflowEngine) (op : Op) : Prop :=
  ∀ n, ((∃ reason, op = .block n reason) ∨ ∃ max, op = .startRun n max) → state e n = .blocked →
    blockedFrom (step e op) n = blockedFrom e n

/-! ### The condition -/

/-- The operation appends `target` to the events of the node; not for `block` and `resume`. -/
inductive Moves (e : WorkflowEngine) : Op → String → NodeState → Prop
  | assign (n : String) : CanAppend e n .assigned → Moves e (.assign n) n .assigned
  | startRun (n : String) (max : ℚ) : CanAppend e n .running → e.killSwitch = false →
      (∃ id l, e.budget.reserve n max = .ok (id, l)) → Moves e (.startRun n max) n .running
  | completeRun (n : String) (actual : ℚ) : CanAppend e n .verifying →
      (∀ m id, e.nodeMeta.get? n = some m → m.activeReservation = some id →
        ∃ l, e.budget.settle n id actual = .ok l) → Moves e (.completeRun n actual) n .verifying
  | recordVerification (n : String) (passed : Bool) :
      CanAppend e n (if passed then .in_review else .failed) →
      Moves e (.recordVerification n passed) n (if passed then .in_review else .failed)
  | reviewerDecision (n : String) (decision : Decision) :
      CanAppend e n (if decision = .approve then .verified else .assigned) →
      Moves e (.reviewerDecision n decision) n (if decision = .approve then .verified else .assigned)
  | integrate (n : String) : CanAppend e n .integrated → Moves e (.integrate n) n .integrated
  | cancel (n : String) : CanAppend e n .cancelled → Moves e (.cancel n) n .cancelled
  | supersede (n : String) : CanAppend e n .superseded → Moves e (.supersede n) n .superseded

/-- The operation attempts a block of the node. -/
inductive Attempts (e : WorkflowEngine) : Op → String → Prop
  | block (n : String) (reason : BlockedReason) : Attempts e (.block n reason) n
  | startRun (n : String) (max : ℚ) (error : LedgerError) : e.killSwitch = false →
      e.budget.reserve n max = .error error → Exceeded error → Attempts e (.startRun n max) n

/-- No node that remembers a state is moved to where that state may follow, unless nothing can be
appended any more. -/
def LeavesNoneStale (e : WorkflowEngine) (op : Op) : Prop :=
  ∀ n target, Moves e op n target → n ∉ objectPrototypeKeys →
    ∀ m, blockedFrom e n = some m → canTransition target m = false

/-- No block is attempted on a blocked node that remembers another state. -/
def OverwritesNothing (e : WorkflowEngine) (op : Op) : Prop :=
  ∀ n, Attempts e op n → n ∈ e.nodeMeta.keys → Legible e → state e n = .blocked →
    blockedFrom e n = some .blocked

/-- **The condition.** -/
def Tidy (e : WorkflowEngine) (op : Op) : Prop := LeavesNoneStale e op ∧ OverwritesNothing e op

section

variable {e e' : WorkflowEngine} {n k : String} {target m : NodeState}

/-! ### Stale nodes -/

def Stale (e : WorkflowEngine) (n : String) : Prop :=
  ∃ target, blockedFrom e n = some target ∧ canTransition (state e n) target = true ∧
    state e n ≠ .blocked

def NoneStale (e : WorkflowEngine) : Prop := Legible e → ∀ n, ¬ Stale e n

/-- No node goes back to `pending`, so that a pending one remembers that at most. -/
def PendingFresh (e : WorkflowEngine) : Prop :=
  ∀ n target, blockedFrom e n = some target → state e n = .pending → target = .pending

theorem no_loop (s : NodeState) : canTransition s s = false := by
  cases s <;> rfl

theorem no_way_back (s : NodeState) : canTransition s .pending = false := by
  cases s <;> rfl

theorem resumeLaw_iff (hw : Wf e) : ResumeLaw e ↔ NoneStale e := by
  constructor
  · rintro hlaw hlegible n ⟨target, hfrom, hcan, hblocked⟩
    have hresult := resume_result hw n
    generalize hr : resume n e = r at hresult
    rcases hresult with ⟨target', hfrom', hcan'⟩ | ⟨error, target', hfrom', hcannot⟩ | ⟨error, hnone⟩
    · exact hblocked (hlaw n _ hr).1
    · cases hfrom.symm.trans hfrom'
      exact hcannot ⟨mem_keys_of_blockedFrom hfrom, hlegible, hcan⟩
    · rw [hfrom] at hnone
      cases hnone
  · intro hstale n e' hr
    have hresult := resume_result hw n
    rw [hr] at hresult
    generalize hok : (.ok () e' : EStateM.Result EngineFailure WorkflowEngine Unit) = r at hresult
    rcases hresult with ⟨target, hfrom, hcan⟩ | ⟨error, target, hfrom, hcannot⟩ | ⟨error, hnone⟩
    · cases hok
      have hblocked : state e n = .blocked := by
        by_contra hne
        exact hstale hcan.legible n ⟨target, hfrom, hcan.allowed, hne⟩
      obtain ⟨m, hm, hfrom'⟩ := blockedFrom_eq_some.mp hfrom
      have hstate : state ((e.forget n).push n target none) n = target :=
        state_push (canAppend_updateMeta.mpr hcan).allowed none
      refine ⟨hblocked, ?_⟩
      rw [hstate]
      refine (hw.remembers n m hm hblocked target hfrom').resolve_right ?_
      rintro rfl
      have hallowed := hcan.allowed
      rw [hblocked] at hallowed
      cases hallowed
    · cases hok
    · cases hok

/-! ### Frames -/

theorem blockedFrom_updateMeta (f : NodeMeta → NodeMeta) :
    blockedFrom (e.updateMeta n f) k =
      if n = k then (e.nodeMeta.get? k).bind fun m => (f m).blockedFrom else blockedFrom e k := by
  unfold blockedFrom
  rw [WorkflowEngine.updateMeta_get?]
  split
  · rcases e.nodeMeta.get? k with _ | m
    · rfl
    · rfl
  · rfl

/-- A write to an entry that leaves its memory alone. -/
theorem blockedFrom_keep {f : NodeMeta → NodeMeta} (hf : ∀ m, (f m).blockedFrom = m.blockedFrom) :
    blockedFrom (e.updateMeta n f) k = blockedFrom e k := by
  rw [blockedFrom_updateMeta]
  split
  · unfold blockedFrom
    rcases e.nodeMeta.get? k with _ | m
    · rfl
    · exact hf m
  · rfl

theorem blockedFrom_remember (h : n ∈ e.nodeMeta.keys) :
    blockedFrom (e.remember n) n = some (state e n) := by
  obtain ⟨m, hm⟩ := OrdMap.mem_keys.mp h
  unfold WorkflowEngine.remember
  rw [blockedFrom_updateMeta, if_pos rfl, hm]
  rfl

theorem blockedFrom_remember_ne (h : n ≠ k) : blockedFrom (e.remember n) k = blockedFrom e k := by
  unfold WorkflowEngine.remember
  rw [blockedFrom_updateMeta, if_neg h]

theorem blockedFrom_meter {l : BudgetLedger} {reservation : Option String} :
    blockedFrom (e.meter l n reservation) k = blockedFrom e k :=
  blockedFrom_keep (e := { e with budget := l }) fun _ => rfl

theorem stale_congr (hstate : state e' k = state e k) (hmemory : blockedFrom e' k = blockedFrom e k) :
    Stale e' k ↔ Stale e k := by
  unfold Stale
  rw [hstate, hmemory]

/-- Both laws read the log and what the nodes remember. -/
theorem noneStale_congr (hlog : e'.log = e.log) (h : ∀ k, blockedFrom e' k = blockedFrom e k) :
    NoneStale e' ↔ NoneStale e := by
  have hstate : ∀ k, state e' k = state e k := by
    intro k
    unfold state
    rw [hlog]
  unfold NoneStale Legible
  rw [hlog]
  exact imp_congr Iff.rfl (forall_congr' fun k => not_congr (stale_congr (hstate k) (h k)))

theorem pendingFresh_congr (hlog : e'.log = e.log) (h : ∀ k, blockedFrom e' k = blockedFrom e k) :
    PendingFresh e' ↔ PendingFresh e := by
  have hstate : ∀ k, state e' k = state e k := by
    intro k
    unfold state
    rw [hlog]
  unfold PendingFresh
  refine forall_congr' fun k => ?_
  rw [h k, hstate k]

theorem legible_push (reason : Option String) :
    Legible (e.push n target reason) ↔ Legible e ∧ n ∉ objectPrototypeKeys := by
  unfold Legible NamesInherited WorkflowEngine.push
  constructor
  · intro h
    refine ⟨?_, fun hn => h ⟨_, List.mem_append_right _ (List.mem_singleton_self _), hn⟩⟩
    rintro ⟨event, hevent, hn⟩
    exact h ⟨event, List.mem_append_left _ hevent, hn⟩
  · rintro ⟨hlog, hn⟩ ⟨event, hevent, hkey⟩
    rcases List.mem_append.mp hevent with hevent | hevent
    · exact hlog ⟨event, hevent, hkey⟩
    · rw [List.mem_singleton.mp hevent] at hkey
      exact hn hkey

/-! ### Events -/

theorem pendingFresh_push (h : PendingFresh e) (can : canTransition (state e n) target = true)
    (reason : Option String) : PendingFresh (e.push n target reason) := by
  intro k m hm hpending
  by_cases hk : n = k
  · subst hk
    rw [state_push can] at hpending
    rw [hpending, no_way_back] at can
    cases can
  · rw [state_push_ne hk] at hpending
    exact h k m hm hpending

/-- **An event** leaves no node stale exactly if its own node remembers nothing that may follow. -/
theorem noneStale_push (h : NoneStale e) (can : CanAppend e n target) (hb : target ≠ .blocked)
    (reason : Option String) :
    NoneStale (e.push n target reason) ↔
      (n ∉ objectPrototypeKeys → ∀ m, blockedFrom e n = some m → canTransition target m = false) := by
  unfold NoneStale
  rw [legible_push]
  constructor
  · intro hstale hkey m hm
    rw [← Bool.not_eq_true]
    intro hallowed
    refine hstale ⟨can.legible, hkey⟩ n ⟨m, hm, ?_, ?_⟩
    · rw [state_push can.allowed]
      exact hallowed
    · rw [state_push can.allowed]
      exact hb
  · rintro hmemory ⟨hlegible, hkey⟩ k ⟨m, hm, hallowed, hblocked⟩
    by_cases hk : n = k
    · subst hk
      rw [state_push can.allowed, hmemory hkey m hm] at hallowed
      cases hallowed
    · rw [state_push_ne hk] at hallowed hblocked
      exact h hlegible k ⟨m, hm, hallowed, hblocked⟩

theorem noneStale_blocked (h : NoneStale e) (can : canTransition (state e n) .blocked = true)
    (reason : Option String) : NoneStale ((e.remember n).push n .blocked reason) := by
  intro hlegible k
  rintro ⟨m, hm, hallowed, hblocked⟩
  have hcan : canTransition (state (e.remember n) n) .blocked = true := by
    unfold WorkflowEngine.remember
    rw [state_updateMeta]
    exact can
  by_cases hk : n = k
  · subst hk
    exact hblocked (state_push hcan reason)
  · rw [state_push_ne hk, WorkflowEngine.remember, state_updateMeta] at hallowed hblocked
    refine h ?_ k ⟨m, ?_, hallowed, hblocked⟩
    · have := ((legible_push reason).mp hlegible).1
      unfold WorkflowEngine.remember at this
      exact legible_updateMeta.mp this
    · rw [← blockedFrom_remember_ne hk]
      exact hm

/-- A block that is refused: the node remembers the state it has. -/
theorem noneStale_remember (h : NoneStale e) (hn : n ∈ e.nodeMeta.keys) :
    NoneStale (e.remember n) := by
  intro hlegible k
  rintro ⟨m, hm, hallowed, hblocked⟩
  have hstate : state (e.remember n) k = state e k := state_updateMeta
  rw [hstate] at hallowed hblocked
  by_cases hk : n = k
  · subst hk
    rw [blockedFrom_remember hn] at hm
    rw [← Option.some.inj hm, no_loop] at hallowed
    cases hallowed
  · rw [blockedFrom_remember_ne hk] at hm
    exact h (legible_updateMeta.mp hlegible) k ⟨m, hm, hallowed, hblocked⟩

theorem pendingFresh_remember (h : PendingFresh e) (hn : n ∈ e.nodeMeta.keys) :
    PendingFresh (e.remember n) := by
  intro k m hm hpending
  have hstate : state (e.remember n) k = state e k := state_updateMeta
  rw [hstate] at hpending
  by_cases hk : n = k
  · subst hk
    rw [blockedFrom_remember hn] at hm
    rw [← Option.some.inj hm]
    exact hpending
  · rw [blockedFrom_remember_ne hk] at hm
    exact h k m hm hpending

theorem blockedFrom_forget : blockedFrom (e.forget n) k =
    if n = k then none else blockedFrom e k := by
  unfold WorkflowEngine.forget
  rw [blockedFrom_updateMeta]
  split
  · rcases e.nodeMeta.get? k with _ | m
    · rfl
    · rfl
  · rfl

theorem noneStale_forget (h : NoneStale e) : NoneStale (e.forget n) := by
  intro hlegible k
  rintro ⟨m, hm, hallowed, hblocked⟩
  have hstate : state (e.forget n) k = state e k := state_updateMeta
  rw [hstate] at hallowed hblocked
  rw [blockedFrom_forget] at hm
  split at hm
  · cases hm
  · exact h (legible_updateMeta.mp hlegible) k ⟨m, hm, hallowed, hblocked⟩

theorem pendingFresh_forget (h : PendingFresh e) : PendingFresh (e.forget n) := by
  intro k m hm hpending
  have hstate : state (e.forget n) k = state e k := state_updateMeta
  rw [hstate] at hpending
  rw [blockedFrom_forget] at hm
  split at hm
  · cases hm
  · exact h k m hm hpending

theorem cascades_laws (h : Cascades e e') (hs : NoneStale e) (hf : PendingFresh e) :
    NoneStale e' ∧ PendingFresh e' := by
  induction h with
  | refl => exact ⟨hs, hf⟩
  | ready _ can pending ih =>
    refine ⟨(noneStale_push ih.1 can NodeState.noConfusion none).mpr fun _ m hm => ?_,
      pendingFresh_push ih.2 can.allowed none⟩
    rw [ih.2 _ m hm pending]
    exact no_way_back .ready

/-! ### Operations -/

/-- What an event of the node may leave behind. -/
def Harmless (e : WorkflowEngine) (n : String) (target : NodeState) : Prop :=
  n ∉ objectPrototypeKeys → ∀ m, blockedFrom e n = some m → canTransition target m = false

theorem noneStale_append (hw : Wf e) (hs : NoneStale e) (hb : target ≠ .blocked) :
    NoneStale (after (append n target none e)) ↔ (CanAppend e n target → Harmless e n target) := by
  rcases after_append hw n target with ⟨can, h⟩ | ⟨cannot, h⟩
  · rw [h, noneStale_push hs can hb none]
    exact ⟨fun hm _ => hm, fun hm => hm can⟩
  · rw [h]
    exact iff_of_true hs fun can => absurd can cannot

theorem pendingFresh_append (hw : Wf e) (hf : PendingFresh e) :
    PendingFresh (after (append n target none e)) := by
  rcases after_append hw n target with ⟨can, h⟩ | ⟨-, h⟩
  · rw [h]
    exact pendingFresh_push hf can.allowed none
  · rw [h]
    exact hf

theorem startRun_laws {max : ℚ} (hw : Wf e) (hs : NoneStale e) (hf : PendingFresh e) :
    (NoneStale (after (startRun n max e)) ↔ (CanAppend e n .running → e.killSwitch = false →
      (∃ id l, e.budget.reserve n max = .ok (id, l)) → Harmless e n .running)) ∧
    PendingFresh (after (startRun n max e)) := by
  have hresult := startRun_result hw n max
  generalize startRun n max e = r at hresult
  rcases hresult with ⟨live, reserved, can⟩ | ⟨error, live, registered, reserved, cannot⟩ |
    ⟨killSwitch, live, reserved, -, can⟩ | ⟨failure, live, registered, reserved, -, legible, cannot⟩ |
    ⟨failure, why⟩
  · rename_i id l
    have hmeter : ∀ k, blockedFrom (e.meter l n (some id)) k = blockedFrom e k :=
      fun k => blockedFrom_meter
    have hs' : NoneStale (e.meter l n (some id)) :=
      (noneStale_congr WorkflowEngine.updateMeta_log hmeter).mpr hs
    have hf' : PendingFresh (e.meter l n (some id)) :=
      (pendingFresh_congr WorkflowEngine.updateMeta_log hmeter).mpr hf
    refine ⟨?_, pendingFresh_push hf' (canAppend_meter.mpr can).allowed none⟩
    show NoneStale ((e.meter l n (some id)).push n .running none) ↔ _
    rw [noneStale_push hs' (canAppend_meter.mpr can) NodeState.noConfusion none, hmeter n]
    exact ⟨fun h _ _ _ => h, fun h => h can live ⟨_, _, reserved⟩⟩
  · rename_i id l
    have hmeter : ∀ k, blockedFrom (e.meter l n (some id)) k = blockedFrom e k :=
      fun k => blockedFrom_meter
    refine ⟨iff_of_true ?_ fun can => absurd can cannot, ?_⟩
    · exact (noneStale_congr WorkflowEngine.updateMeta_log hmeter).mpr hs
    · exact (pendingFresh_congr WorkflowEngine.updateMeta_log hmeter).mpr hf
  · refine ⟨iff_of_true ?_ ?_, ?_⟩
    · exact (noneStale_congr rfl fun _ => rfl).mpr (noneStale_blocked hs can.allowed _)
    · rintro - - ⟨id, l, hok⟩
      rw [reserved] at hok
      cases hok
    · refine (pendingFresh_congr rfl fun _ => rfl).mpr (pendingFresh_push
        (pendingFresh_remember hf can.registered) ?_ BlockedReason.budget.text)
      exact (canAppend_updateMeta.mpr can).allowed
  · refine ⟨iff_of_true (noneStale_remember hs registered) ?_, pendingFresh_remember hf registered⟩
    rintro - - ⟨id, l, hok⟩
    rw [reserved] at hok
    cases hok
  · refine ⟨iff_of_true hs fun can live hok => ?_, hf⟩
    exfalso
    rcases why with hkill | hn | ⟨error, herror, -⟩
    · rw [live] at hkill
      cases hkill
    · exact hn can.registered
    · obtain ⟨id, l, hok⟩ := hok
      rw [herror] at hok
      cases hok

theorem completeRun_laws {actual : ℚ} (hw : Wf e) (hs : NoneStale e) (hf : PendingFresh e) :
    (NoneStale (after (completeRun n actual e)) ↔ (CanAppend e n .verifying →
      (∀ m id, e.nodeMeta.get? n = some m → m.activeReservation = some id →
        ∃ l, e.budget.settle n id actual = .ok l) → Harmless e n .verifying)) ∧
    PendingFresh (after (completeRun n actual e)) := by
  have hresult := completeRun_result hw n actual
  generalize completeRun n actual e = r at hresult
  rcases hresult with ⟨hm, none, can⟩ | ⟨hm, active, settle, can⟩ | ⟨error, hm, active, settle, cannot⟩ |
    ⟨error, why⟩
  · refine ⟨?_, pendingFresh_push hf can.allowed Option.none⟩
    show NoneStale (e.push n .verifying Option.none) ↔ _
    rw [noneStale_push hs can NodeState.noConfusion Option.none]
    refine ⟨fun h _ _ => h, fun h => h can fun m' id hm' hid => ?_⟩
    cases hm.symm.trans hm'
    rw [none] at hid
    cases hid
  · rename_i id l
    have hmeter : ∀ k, blockedFrom (e.meter l n Option.none) k = blockedFrom e k :=
      fun k => blockedFrom_meter
    have hs' : NoneStale (e.meter l n Option.none) :=
      (noneStale_congr WorkflowEngine.updateMeta_log hmeter).mpr hs
    have hf' : PendingFresh (e.meter l n Option.none) :=
      (pendingFresh_congr WorkflowEngine.updateMeta_log hmeter).mpr hf
    refine ⟨?_, pendingFresh_push hf' (canAppend_meter.mpr can).allowed Option.none⟩
    show NoneStale ((e.meter l n Option.none).push n .verifying Option.none) ↔ _
    rw [noneStale_push hs' (canAppend_meter.mpr can) NodeState.noConfusion Option.none, hmeter n]
    refine ⟨fun h _ _ => h, fun h => h can fun m' id' hm' hid => ?_⟩
    cases hm.symm.trans hm'
    cases active.symm.trans hid
    exact ⟨l, settle⟩
  · rename_i id l
    have hmeter : ∀ k, blockedFrom (e.meter l n Option.none) k = blockedFrom e k :=
      fun k => blockedFrom_meter
    refine ⟨iff_of_true ?_ fun can => absurd can cannot, ?_⟩
    · exact (noneStale_congr WorkflowEngine.updateMeta_log hmeter).mpr hs
    · exact (pendingFresh_congr WorkflowEngine.updateMeta_log hmeter).mpr hf
  · refine ⟨iff_of_true hs fun can hsettles => ?_, hf⟩
    exfalso
    rcases why with ⟨cannot, -⟩ | ⟨m, id, error, hm, hid, hset⟩
    · exact cannot can
    · obtain ⟨l, hok⟩ := hsettles m id hm hid
      rw [hset] at hok
      cases hok

theorem block_laws {reason : BlockedReason} (hw : Wf e) (hs : NoneStale e) (hf : PendingFresh e) :
    NoneStale (after (block n reason e)) ∧ PendingFresh (after (block n reason e)) := by
  have hresult := block_result hw n reason
  generalize block n reason e = r at hresult
  rcases hresult with can | ⟨error, registered, legible, cannot⟩ | ⟨error, why⟩
  · exact ⟨noneStale_blocked hs can.allowed _, pendingFresh_push
      (pendingFresh_remember hf can.registered) (canAppend_updateMeta.mpr can).allowed reason.text⟩
  · exact ⟨noneStale_remember hs registered, pendingFresh_remember hf registered⟩
  · exact ⟨hs, hf⟩

theorem resume_laws (hw : Wf e) (hs : NoneStale e) (hf : PendingFresh e) :
    NoneStale (after (resume n e)) ∧ PendingFresh (after (resume n e)) := by
  have hresult := resume_result hw n
  generalize resume n e = r at hresult
  rcases hresult with ⟨target, from_, can⟩ | ⟨error, target, from_, cannot⟩ | ⟨error, why⟩
  · have can' : CanAppend (e.forget n) n target := canAppend_updateMeta.mpr can
    refine ⟨?_, pendingFresh_push (pendingFresh_forget hf) can'.allowed none⟩
    show NoneStale ((e.forget n).push n target none)
    by_cases hb : target = .blocked
    · -- to `blocked`, from a node that was stale
      intro hlegible k
      rintro ⟨m, hm, hallowed, hblocked⟩
      by_cases hk : n = k
      · subst hk
        exact hblocked ((state_push can'.allowed none).trans hb)
      · rw [state_push_ne hk] at hallowed hblocked
        exact noneStale_forget hs ((legible_push none).mp hlegible).1 k ⟨m, hm, hallowed, hblocked⟩
    · refine (noneStale_push (noneStale_forget hs) can' hb none).mpr fun _ m hm => ?_
      rw [blockedFrom_forget, if_pos rfl] at hm
      cases hm
  · exact ⟨noneStale_forget hs, pendingFresh_forget hf⟩
  · exact ⟨hs, hf⟩

theorem registerNode_laws {deps : List String} (hw : Wf e) (hs : NoneStale e)
    (hf : PendingFresh e) :
    NoneStale (after (registerNode n deps e)) ∧ PendingFresh (after (registerNode n deps e)) := by
  rcases registerNode_cases hw n deps with ⟨hnew, h⟩ | h
  · have hmemory : ∀ k, blockedFrom { e with nodeMeta := e.nodeMeta.set n (.new deps) } k =
        blockedFrom e k := by
      intro k
      unfold blockedFrom
      by_cases hk : n = k
      · subst hk
        rw [OrdMap.get?_set_self, OrdMap.get?_eq_none.mpr hnew]
        rfl
      · rw [OrdMap.get?_set_ne _ _ hk]
    have hlog : { e with nodeMeta := e.nodeMeta.set n (.new deps) }.log = e.log := rfl
    exact cascades_laws h ((noneStale_congr hlog hmemory).mpr hs)
      ((pendingFresh_congr hlog hmemory).mpr hf)
  · rw [h]
    exact ⟨hs, hf⟩

theorem replaceDependency_laws {oldDep newDep : String} (hs : NoneStale e) (hf : PendingFresh e) :
    NoneStale (after (replaceDependency n oldDep newDep e)) ∧
      PendingFresh (after (replaceDependency n oldDep newDep e)) := by
  rcases replaceDependency_cases (e := e) n oldDep newDep with h | h
  · have hmemory : ∀ k, blockedFrom (e.rewire n oldDep newDep) k = blockedFrom e k :=
      fun k => blockedFrom_keep fun _ => rfl
    rw [h]
    exact ⟨(noneStale_congr WorkflowEngine.updateMeta_log hmemory).mpr hs,
      (pendingFresh_congr WorkflowEngine.updateMeta_log hmemory).mpr hf⟩
  · rw [h]
    exact ⟨hs, hf⟩

/-- The condition for an operation that appends one event. -/
theorem leavesNoneStale_iff {op : Op} {p : Prop}
    (hmoves : ∀ k t, Moves e op k t ↔ k = n ∧ t = target ∧ p) :
    LeavesNoneStale e op ↔ (p → Harmless e n target) := by
  constructor
  · intro h hp
    exact h n target ((hmoves n target).mpr ⟨rfl, rfl, hp⟩)
  · intro h k t hmove
    obtain ⟨rfl, rfl, hp⟩ := (hmoves k t).mp hmove
    exact h hp

theorem leavesNoneStale_of_forall {op : Op} (h : ∀ k t, ¬ Moves e op k t) : LeavesNoneStale e op :=
  fun k t hmove => absurd hmove (h k t)

/-- **One operation** leaves no node stale exactly when it meets the condition. -/
theorem step_noneStale (hw : Wf e) (hs : NoneStale e) (hf : PendingFresh e) (op : Op) :
    NoneStale (step e op) ↔ LeavesNoneStale e op := by
  rcases op with approval | _ | _ | ⟨n, deps⟩ | ⟨n, oldDep, newDep⟩ | ⟨ph, ah⟩ | n | ⟨n, max⟩ |
    ⟨n, actual⟩ | ⟨n, passed⟩ | ⟨n, decision⟩ | n | ⟨n, reason⟩ | n | n | n
  · exact iff_of_true hs (leavesNoneStale_of_forall fun k t h => by cases h)
  · exact iff_of_true hs (leavesNoneStale_of_forall fun k t h => by cases h)
  · exact iff_of_true hs (leavesNoneStale_of_forall fun k t h => by cases h)
  · exact iff_of_true (registerNode_laws hw hs hf).1
      (leavesNoneStale_of_forall fun k t h => by cases h)
  · exact iff_of_true (replaceDependency_laws hs hf).1
      (leavesNoneStale_of_forall fun k t h => by cases h)
  · refine iff_of_true ?_ (leavesNoneStale_of_forall fun k t h => by cases h)
    rcases start_cases hw ph ah with h | h
    · exact (cascades_laws h ((noneStale_congr rfl fun _ => rfl).mpr hs)
        ((pendingFresh_congr rfl fun _ => rfl).mpr hf)).1
    · exact (congrArg NoneStale h).mpr hs
  · refine (noneStale_append hw hs NodeState.noConfusion).trans (leavesNoneStale_iff ?_).symm
    intro k t
    constructor
    · rintro ⟨⟩
      exact ⟨rfl, rfl, ‹_›⟩
    · rintro ⟨rfl, rfl, can⟩
      exact .assign _ can
  · rw [step_startRun]
    refine (startRun_laws hw hs hf).1.trans ?_
    rw [leavesNoneStale_iff (p := CanAppend e n .running ∧ e.killSwitch = false ∧
      ∃ id l, e.budget.reserve n max = .ok (id, l))]
    · exact ⟨fun h hp => h hp.1 hp.2.1 hp.2.2, fun h h₁ h₂ h₃ => h ⟨h₁, h₂, h₃⟩⟩
    · intro k t
      constructor
      · rintro ⟨⟩
        exact ⟨rfl, rfl, ‹_›, ‹_›, ‹_›⟩
      · rintro ⟨rfl, rfl, can, live, reserved⟩
        exact .startRun _ _ can live reserved
  · refine (completeRun_laws hw hs hf).1.trans ?_
    rw [leavesNoneStale_iff (p := CanAppend e n .verifying ∧ ∀ m id, e.nodeMeta.get? n = some m →
      m.activeReservation = some id → ∃ l, e.budget.settle n id actual = .ok l)]
    · exact ⟨fun h hp => h hp.1 hp.2, fun h h₁ h₂ => h ⟨h₁, h₂⟩⟩
    · intro k t
      constructor
      · rintro ⟨⟩
        exact ⟨rfl, rfl, ‹_›, ‹_›⟩
      · rintro ⟨rfl, rfl, can, settles⟩
        exact .completeRun _ _ can settles
  · have hb : (if passed then NodeState.in_review else .failed) ≠ .blocked := by
      split <;> exact NodeState.noConfusion
    refine (noneStale_append hw hs hb).trans (leavesNoneStale_iff ?_).symm
    intro k t
    constructor
    · rintro ⟨⟩
      exact ⟨rfl, rfl, ‹_›⟩
    · rintro ⟨rfl, rfl, can⟩
      exact .recordVerification _ _ can
  · have hb : (if decision = .approve then NodeState.verified else .assigned) ≠ .blocked := by
      split <;> exact NodeState.noConfusion
    refine (noneStale_append hw hs hb).trans (leavesNoneStale_iff ?_).symm
    intro k t
    constructor
    · rintro ⟨⟩
      exact ⟨rfl, rfl, ‹_›⟩
    · rintro ⟨rfl, rfl, can⟩
      exact .reviewerDecision _ _ can
  · -- nothing follows `integrated`
    refine iff_of_true ?_ fun k t hmove _ m _ => ?_
    · rcases integrate_cases hw n with ⟨can, h⟩ | h
      · exact (cascades_laws h ((noneStale_push hs can NodeState.noConfusion none).mpr
          fun _ m _ => rfl) (pendingFresh_push hf can.allowed none)).1
      · exact (congrArg NoneStale h).mpr hs
    · cases hmove
      rfl
  · exact iff_of_true (block_laws hw hs hf).1 (leavesNoneStale_of_forall fun k t h => by cases h)
  · exact iff_of_true (resume_laws hw hs hf).1 (leavesNoneStale_of_forall fun k t h => by cases h)
  · refine (noneStale_append hw hs NodeState.noConfusion).trans (leavesNoneStale_iff ?_).symm
    intro k t
    constructor
    · rintro ⟨⟩
      exact ⟨rfl, rfl, ‹_›⟩
    · rintro ⟨rfl, rfl, can⟩
      exact .cancel _ can
  · refine (noneStale_append hw hs NodeState.noConfusion).trans (leavesNoneStale_iff ?_).symm
    intro k t
    constructor
    · rintro ⟨⟩
      exact ⟨rfl, rfl, ‹_›⟩
    · rintro ⟨rfl, rfl, can⟩
      exact .supersede _ can

theorem step_pendingFresh (hw : Wf e) (hs : NoneStale e) (hf : PendingFresh e) (op : Op) :
    PendingFresh (step e op) := by
  rcases op with approval | _ | _ | ⟨n, deps⟩ | ⟨n, oldDep, newDep⟩ | ⟨ph, ah⟩ | n | ⟨n, max⟩ |
    ⟨n, actual⟩ | ⟨n, passed⟩ | ⟨n, decision⟩ | n | ⟨n, reason⟩ | n | n | n
  · exact hf
  · exact hf
  · exact hf
  · exact (registerNode_laws hw hs hf).2
  · exact (replaceDependency_laws hs hf).2
  · rcases start_cases hw ph ah with h | h
    · exact (cascades_laws h ((noneStale_congr rfl fun _ => rfl).mpr hs)
        ((pendingFresh_congr rfl fun _ => rfl).mpr hf)).2
    · exact (congrArg PendingFresh h).mpr hf
  · exact pendingFresh_append hw hf
  · rw [step_startRun]
    exact (startRun_laws hw hs hf).2
  · exact (completeRun_laws hw hs hf).2
  · exact pendingFresh_append hw hf
  · exact pendingFresh_append hw hf
  · rcases integrate_cases hw n with ⟨can, h⟩ | h
    · exact (cascades_laws h ((noneStale_push hs can NodeState.noConfusion none).mpr
        fun _ m _ => rfl) (pendingFresh_push hf can.allowed none)).2
    · exact (congrArg PendingFresh h).mpr hf
  · exact (block_laws hw hs hf).2
  · exact (resume_laws hw hs hf).2
  · exact pendingFresh_append hw hf
  · exact pendingFresh_append hw hf

/-! ### The memory of a blocked node -/

theorem keepsMemory_block (hw : Wf e) (reason : BlockedReason) :
    KeepsMemory e (.block n reason) ↔ OverwritesNothing e (.block n reason) := by
  have hresult := block_result hw n reason
  have hstep : step e (.block n reason) = after (block n reason e) := rfl
  constructor
  · rintro hkeep k ⟨⟩ hn hlegible hblocked
    have h := hkeep n (.inl ⟨reason, rfl⟩) hblocked
    rw [hstep] at h
    generalize block n reason e = r at hresult h
    rcases hresult with can | ⟨error, -, -, -⟩ | ⟨error, why⟩
    · have hallowed := can.allowed
      rw [hblocked] at hallowed
      cases hallowed
    · rw [← h, ← hblocked]
      exact blockedFrom_remember hn
    · exact absurd (why.resolve_left (not_not.mpr hn)) (not_not.mpr hlegible)
  · intro hcondition k hop hblocked
    have hk : k = n := by
      rcases hop with ⟨r, h⟩ | ⟨max, h⟩
      · cases h
        rfl
      · cases h
    subst hk
    rw [hstep]
    generalize block k reason e = r at hresult
    rcases hresult with can | ⟨error, hn, hlegible, -⟩ | ⟨error, -⟩
    · have hallowed := can.allowed
      rw [hblocked] at hallowed
      cases hallowed
    · rw [hcondition k (.block k reason) hn hlegible hblocked]
      exact (blockedFrom_remember hn).trans (congrArg some hblocked)
    · rfl

theorem keepsMemory_startRun (hw : Wf e) (max : ℚ) :
    KeepsMemory e (.startRun n max) ↔ OverwritesNothing e (.startRun n max) := by
  have hresult := startRun_result hw n max
  have hstep : step e (.startRun n max) = after (startRun n max e) := step_startRun e n max
  constructor
  · rintro hkeep k hattempt hn hlegible hblocked
    rcases hattempt with _ | ⟨_, _, error, live, reserved, exceeded⟩
    have h := hkeep n (.inr ⟨max, rfl⟩) hblocked
    rw [hstep] at h
    generalize startRun n max e = r at hresult h
    rcases hresult with ⟨-, hok, -⟩ | ⟨-, -, -, hok, -⟩ | ⟨-, -, -, -, can⟩ | ⟨_, -, -, -, -, -, -⟩ |
      ⟨-, why⟩
    · rw [reserved] at hok
      cases hok
    · rw [reserved] at hok
      cases hok
    · have hallowed := can.allowed
      rw [hblocked] at hallowed
      cases hallowed
    · rw [← h, ← hblocked]
      exact blockedFrom_remember hn
    · exfalso
      rcases why with hkill | hn' | ⟨error', herror, hillegible⟩
      · rw [live] at hkill
        cases hkill
      · exact hn' hn
      · cases reserved.symm.trans herror
        exact hillegible exceeded hlegible
  · intro hcondition k hop hblocked
    have hk : k = n := by
      rcases hop with ⟨r, h⟩ | ⟨max, h⟩
      · cases h
      · cases h
        rfl
    subst hk
    rw [hstep]
    generalize startRun k max e = r at hresult
    rcases hresult with ⟨-, -, -⟩ | ⟨-, -, -, -, -⟩ | ⟨-, -, -, -, can⟩ |
      ⟨-, live, hn, reserved, exceeded, hlegible, -⟩ | ⟨-, -⟩
    · exact blockedFrom_meter
    · exact blockedFrom_meter
    · have hallowed := can.allowed
      rw [hblocked] at hallowed
      cases hallowed
    · rw [hcondition k (.startRun k max _ live reserved exceeded) hn hlegible hblocked]
      exact (blockedFrom_remember hn).trans (congrArg some hblocked)
    · rfl

theorem keepsMemory_iff (hw : Wf e) (op : Op) : KeepsMemory e op ↔ OverwritesNothing e op := by
  have hother : (∀ n, ¬ ((∃ reason, op = .block n reason) ∨ ∃ max, op = .startRun n max)) →
      (∀ n, ¬ Attempts e op n) → (KeepsMemory e op ↔ OverwritesNothing e op) :=
    fun hop hattempts => iff_of_true (fun n h => absurd h (hop n)) fun n h => absurd h (hattempts n)
  rcases op with approval | _ | _ | ⟨n, deps⟩ | ⟨n, oldDep, newDep⟩ | ⟨ph, ah⟩ | n | ⟨n, max⟩ |
    ⟨n, actual⟩ | ⟨n, passed⟩ | ⟨n, decision⟩ | n | ⟨n, reason⟩ | n | n | n
  case startRun => exact keepsMemory_startRun hw max
  case block => exact keepsMemory_block hw reason
  all_goals exact hother (by simp) fun n h => by cases h

end

/-! ### Runs -/

theorem blockedFrom_boot (plan : Plan.PlanContract) (cap : ℚ) (budgets : List (String × ℚ))
    (n : String) : blockedFrom (boot plan cap budgets) n = none := by
  unfold blockedFrom
  rcases hm : (boot plan cap budgets).nodeMeta.get? n with _ | m
  · rfl
  · obtain ⟨mod, -, heq⟩ := List.mem_map.mp (OrdMap.mem_of_get?_ofList hm)
    rw [← (Prod.mk.inj heq).2]
    rfl

/-- **Block and resume.** In every state of a run `resume` moves a blocked node only, back to what its
last block interrupted, and no block of the run overwrites what a blocked node remembers, exactly
when every operation of the run meets the condition. -/
theorem resume_law (plan : Plan.PlanContract) (cap : ℚ) (budgets : List (String × ℚ))
    (ops : List Op) :
    ((∀ pre, pre <+: ops → ResumeLaw (run step (boot plan cap budgets) pre)) ∧
      ∀ pre op, pre ++ [op] <+: ops → KeepsMemory (run step (boot plan cap budgets) pre) op) ↔
      Along step Tidy (boot plan cap budgets) ops := by
  have hlaw : ∀ pre, ResumeLaw (run step (boot plan cap budgets) pre) ↔
      NoneStale (run step (boot plan cap budgets) pre) :=
    fun pre => resumeLaw_iff (wf_run plan cap budgets pre)
  have hmemory : ∀ pre op, KeepsMemory (run step (boot plan cap budgets) pre) op ↔
      OverwritesNothing (run step (boot plan cap budgets) pre) op :=
    fun pre op => keepsMemory_iff (wf_run plan cap budgets pre) op
  have hfresh : ∀ pre, (∀ pre', pre' <+: pre →
      NoneStale (run step (boot plan cap budgets) pre')) →
        PendingFresh (run step (boot plan cap budgets) pre) := by
    intro pre
    induction pre using List.reverseRecOn with
    | nil =>
      intro _ n target hfrom
      rw [run_nil, blockedFrom_boot] at hfrom
      cases hfrom
    | append_singleton pre op ih =>
      intro hstale
      rw [run_concat]
      refine step_pendingFresh (wf_run plan cap budgets pre) (hstale pre (List.prefix_append ..))
        (ih fun pre' hpre' => hstale pre' (hpre'.trans (List.prefix_append ..))) op
  have hstart : NoneStale (boot plan cap budgets) := by
    rintro - n ⟨target, hfrom, -⟩
    rw [blockedFrom_boot] at hfrom
    cases hfrom
  have hexact : (∀ pre, pre <+: ops → NoneStale (run step (boot plan cap budgets) pre) ∧
      PendingFresh (run step (boot plan cap budgets) pre)) ↔
        Along step LeavesNoneStale (boot plan cap budgets) ops :=
    prefixes_iff_along (J := Wf) (I := fun e => NoneStale e ∧ PendingFresh e)
      (fun _ op hw => hw.step op)
      (fun e op hw h => (and_iff_left (step_pendingFresh hw h.1 h.2 op)).trans
        (step_noneStale hw h.1 h.2 op)) (wf_boot plan cap budgets)
      ⟨hstart, hfresh [] fun pre hpre => by rw [List.prefix_nil.mp hpre]; exact hstart⟩
  rw [show Along step Tidy (boot plan cap budgets) ops ↔ _ from along_and, ← hexact, along_iff_steps]
  refine and_congr ?_ (forall_congr' fun pre => forall_congr' fun op => imp_congr Iff.rfl
    (hmemory pre op))
  constructor
  · intro h pre hpre
    have hstale : ∀ pre', pre' <+: pre → NoneStale (run step (boot plan cap budgets) pre') :=
      fun pre' hpre' => (hlaw pre').mp (h pre' (hpre'.trans hpre))
    exact ⟨hstale pre (List.prefix_refl pre), hfresh pre hstale⟩
  · intro h pre hpre
    exact (hlaw pre).mpr (h pre hpre).1

/-- Blocked while assigned, then sent back by the reviewer: the memory stays, and a later `resume`
takes the node out of review. -/
def sentBack : List Op :=
  [.recordApproval ⟨.plan, "hash"⟩, .recordApproval ⟨.allocation, "hash"⟩, .start none none,
    .assign "a", .block "a" .runner, .reviewerDecision "a" .rework, .startRun "a" 10,
    .completeRun "a" 10, .recordVerification "a" true]

theorem resume_leaves_review :
    ¬ ResumeLaw (run step (boot ⟨[⟨"a", "A", [], .S, .low, true⟩]⟩ 100 [("a", 50)]) sentBack) := by
  intro h
  have hw := wf_run ⟨[⟨"a", "A", [], .S, .low, true⟩]⟩ 100 [("a", 50)] sentBack
  refine (resumeLaw_iff hw).mp h ?_ "a" ⟨.assigned, by decide +kernel, by decide +kernel,
    by decide +kernel⟩
  rintro ⟨event, hevent, hkey⟩
  have hnode : ∀ event ∈ (run step (boot ⟨[⟨"a", "A", [], .S, .low, true⟩]⟩ 100 [("a", 50)])
      sentBack).log, event.node_id ∉ objectPrototypeKeys := by decide +kernel
  exact hnode event hevent hkey

end Norns.Engine.Resume
