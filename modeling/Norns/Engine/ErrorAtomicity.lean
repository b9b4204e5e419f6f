import Norns.Engine.Resume

/-! # Calls that throw

A drive writes step by step: `startRun` reserves and `completeRun` settles before the append that may
refuse the transition, `block` and `resume` write the memory before it, and a cascade may stop half
way at a node whose name an object literal inherits. `Safe` is the condition on a call and the state
before it under which a throw leaves no trace, up to the block of an assigned node that is over its
budget; the law `error_atomicity` says that it is exact. -/

namespace Norns.Engine.ErrorAtomicity

open Norns.Lib Norns.Lib.Edit Norns.Lib.Run Norns.Contracts Norns.Contracts.Lifecycle
open Norns.Contracts.Reducer Norns.Engine.Budget Norns.Engine.Workflow Norns.Engine.Resume

/-- The operations of the law. -/
def Drives : Op → Prop
  | .assign _ | .startRun _ _ | .completeRun _ _ | .recordVerification _ _ | .reviewerDecision _ _
  | .integrate _ | .block _ _ | .resume _ | .cancel _ | .supersede _ | .registerNode _ _ => True
  | .recordApproval _ | .engageKillSwitch | .disengageKillSwitch | .replaceDependency _ _ _
  | .start _ _ => False

/-- The log, the entries of the nodes, the kill switch and the ledger are as before. -/
structure Unchanged (e e' : WorkflowEngine) : Prop where
  log : e'.log = e.log
  nodeMeta : e'.nodeMeta = e.nodeMeta
  killSwitch : e'.killSwitch = e.killSwitch
  budget : e'.budget = e.budget

/-- The intended trace of a refused reservation: one event, and the memory that goes with it. -/
structure BudgetBlock (e : WorkflowEngine) (n : String) (e' : WorkflowEngine) : Prop where
  assigned : state e n = .assigned
  log : ∃ event_id, e'.log = e.log ++ [⟨event_id, n, .blocked, some BlockedReason.budget.text⟩]
  nodeMeta : e'.nodeMeta = (e.remember n).nodeMeta
  budget : e'.budget = e.budget

/-- A call that throws changes nothing, up to the block of an assigned node over its budget. -/
def Atomic (e : WorkflowEngine) (op : Op) : Prop :=
  Drives op → ∀ error e', perform op e = .error error e' →
    Unchanged e e' ∨ ∃ n max refusal, op = .startRun n max ∧ error = .budget refusal ∧
      Exceeded refusal ∧ BudgetBlock e n e'

/-! ### The condition -/

/-- The cascade makes the node ready. -/
def Qualifies (e : WorkflowEngine) (k : String) (m : NodeMeta) : Prop :=
  state e k = .pending ∧ ∀ dep ∈ m.dependencies, state e dep = .integrated

/-- Some node before the last one gets ready under a name that an object literal inherits. -/
def Derails (e : WorkflowEngine) (entries : List (String × NodeMeta)) : Prop :=
  ∃ before k m next rest, entries = before ++ (k, m) :: next :: rest ∧
    k ∈ objectPrototypeKeys ∧ Qualifies e k m

/-- The cascade throws. -/
def CascadeThrows (e : WorkflowEngine) : Prop :=
  e.started = true ∧ e.nodeMeta.entries ≠ [] ∧ (Legible e → Derails e e.nodeMeta.entries)

/-- **The condition** on a call. -/
def Safe (e : WorkflowEngine) : Op → Prop
  | .startRun n max => e.killSwitch = false → n ∈ e.nodeMeta.keys →
      (∀ id l, e.budget.reserve n max = .ok (id, l) → CanAppend e n .running) ∧
      ∀ error, e.budget.reserve n max = .error error → Exceeded error → Legible e →
        state e n = .assigned ∨
          canTransition (state e n) .blocked = false ∧ blockedFrom e n = some (state e n)
  | .completeRun n actual => ∀ m id l, e.nodeMeta.get? n = some m → m.activeReservation = some id →
      e.budget.settle n id actual = .ok l → CanAppend e n .verifying
  | .block n _ => n ∈ e.nodeMeta.keys → Legible e → canTransition (state e n) .blocked = false →
      blockedFrom e n = some (state e n)
  | .resume n => ∀ target, blockedFrom e n = some target → CanAppend e n target
  | .integrate n => CanAppend e n .integrated → ¬ CascadeThrows (e.push n .integrated none)
  | .registerNode n deps => n ∉ e.nodeMeta.keys →
      ¬ CascadeThrows { e with nodeMeta := e.nodeMeta.set n (.new deps) }
  | .assign _ | .recordVerification _ _ | .reviewerDecision _ _ | .cancel _ | .supersede _
  | .recordApproval _ | .engageKillSwitch | .disengageKillSwitch | .replaceDependency _ _ _
  | .start _ _ => True

section

variable {e e' : WorkflowEngine} {n k : String} {target : NodeState}

/-! ### The cascade -/

theorem everyIntegrated_of_legible (hw : Wf e) (hlegible : Legible e) (deps : List String) :
    everyIntegrated deps e = .ok (decide (∀ dep ∈ deps, state e dep = .integrated)) e := by
  induction deps with
  | nil => rfl
  | cons dep deps ih =>
    unfold everyIntegrated
    obtain ⟨-, hs⟩ := (stateOf_cases hw dep).resolve_right fun h => h.1 hlegible
    rw [bind_of_ok hs]
    by_cases hd : state e dep = .integrated
    · rw [if_pos hd, ih]
      simp [hd]
    · rw [if_neg hd]
      simp [hd]
      rfl

theorem cascadeNode_of_legible (hw : Wf e) (hlegible : Legible e) (hk : k ∈ e.nodeMeta.keys)
    (m : NodeMeta) :
    (Qualifies e k m ∧ cascadeNode k m e = .ok () (e.push k .ready none)) ∨
      (¬ Qualifies e k m ∧ cascadeNode k m e = .ok () e) := by
  unfold cascadeNode Qualifies
  obtain ⟨-, hs⟩ := (stateOf_cases hw k).resolve_right fun h => h.1 hlegible
  rw [bind_of_ok hs]
  by_cases hp : state e k = .pending
  · rw [if_pos hp, bind_of_ok (everyIntegrated_of_legible hw hlegible _)]
    by_cases hd : ∀ dep ∈ m.dependencies, state e dep = .integrated
    · rw [if_pos (decide_eq_true hd)]
      have hcan : CanAppend e k .ready := ⟨hk, hlegible, by rw [hp]; rfl⟩
      obtain ⟨-, happ⟩ := (append_cases hw k .ready none).resolve_right fun h => h.1 hcan
      exact .inl ⟨⟨hp, hd⟩, happ⟩
    · rw [if_neg (by simpa using hd)]
      exact .inr ⟨fun h => hd h.2, rfl⟩
  · rw [if_neg hp]
    exact .inr ⟨fun h => hp h.1, rfl⟩

theorem cascadeNode_of_not_legible (hw : Wf e) (hlegible : ¬ Legible e) (m : NodeMeta) :
    ∃ error, cascadeNode k m e = .error error e := by
  obtain ⟨-, error, -, hs⟩ := (stateOf_cases hw k).resolve_left fun h => hlegible h.1
  exact ⟨error, bind_of_error hs⟩

/-- Making one node ready changes no other node's chances. -/
theorem qualifies_push {m : NodeMeta} (hp : state e n = .pending) (hk : n ≠ k) :
    Qualifies (e.push n .ready none) k m ↔ Qualifies e k m := by
  have hcan : canTransition (state e n) .ready = true := by
    rw [hp]
    rfl
  have hdep : ∀ dep, state (e.push n .ready none) dep = .integrated ↔ state e dep = .integrated := by
    intro dep
    by_cases hd : n = dep
    · subst hd
      rw [state_push hcan, hp]
      exact iff_of_false NodeState.noConfusion NodeState.noConfusion
    · rw [state_push_ne hd]
  unfold Qualifies
  rw [state_push_ne hk]
  exact and_congr Iff.rfl (forall_congr' fun dep => imp_congr Iff.rfl (hdep dep))

theorem derails_cons {entry : String × NodeMeta} {entries : List (String × NodeMeta)} :
    Derails e (entry :: entries) ↔
      (entries ≠ [] ∧ entry.1 ∈ objectPrototypeKeys ∧ Qualifies e entry.1 entry.2) ∨
        Derails e entries := by
  constructor
  · rintro ⟨before, k, m, next, rest, heq, hk, hq⟩
    rcases before with _ | ⟨b, before⟩
    · cases heq
      exact .inl ⟨List.cons_ne_nil _ _, hk, hq⟩
    · cases heq
      exact .inr ⟨before, k, m, next, rest, rfl, hk, hq⟩
  · rintro (⟨hne, hk, hq⟩ | ⟨before, k, m, next, rest, rfl, hk, hq⟩)
    · obtain ⟨next, rest, rfl⟩ := List.exists_cons_of_ne_nil hne
      exact ⟨[], entry.1, entry.2, next, rest, rfl, hk, hq⟩
    · exact ⟨entry :: before, k, m, next, rest, rfl, hk, hq⟩

theorem derails_push {entries : List (String × NodeMeta)} (hp : state e n = .pending)
    (hn : n ∉ entries.map Prod.fst) : Derails (e.push n .ready none) entries ↔ Derails e entries := by
  unfold Derails
  refine exists_congr fun before => exists_congr fun k => exists_congr fun m =>
    exists_congr fun next => exists_congr fun rest => and_congr_right fun heq =>
      and_congr_right fun _ => qualifies_push hp ?_
  rintro rfl
  refine hn ?_
  rw [heq]
  simp

def Throws {α : Type} (r : EStateM.Result EngineFailure WorkflowEngine α) : Prop :=
  ∃ error e', r = .error error e'

/-- **The cascade** over the entries of a legible engine throws exactly if it derails. -/
theorem cascade_throws_iff {entries : List (String × NodeMeta)}
    (hnodup : (entries.map Prod.fst).Nodup) : ∀ {e : WorkflowEngine}, Wf e → Legible e →
      (∀ entry ∈ entries, entry.1 ∈ e.nodeMeta.keys) →
      (Throws (entries.foldlM (fun _ entry => cascadeNode entry.1 entry.2) () e) ↔
        Derails e entries) := by
  induction entries with
  | nil =>
    intro e _ _ _
    refine iff_of_false ?_ ?_
    · rintro ⟨error, e', h⟩
      cases h
    · rintro ⟨before, k, m, next, rest, heq, -⟩
      exact absurd heq (by simp)
  | cons entry entries ih =>
    intro e hw hlegible hkeys
    obtain ⟨hnew, hrest⟩ := List.nodup_cons.mp hnodup
    have hkeys' : ∀ entry ∈ entries, entry.1 ∈ e.nodeMeta.keys :=
      fun entry hmem => hkeys entry (List.mem_cons_of_mem _ hmem)
    rw [List.foldlM_cons, derails_cons]
    rcases cascadeNode_of_legible hw hlegible (hkeys entry (List.mem_cons_self ..)) entry.2 with
      ⟨hq, hnode⟩ | ⟨hq, hnode⟩
    · rw [bind_of_ok hnode]
      have hcan : CanAppend e entry.1 .ready :=
        ⟨hkeys entry (List.mem_cons_self ..), hlegible, by rw [hq.1]; rfl⟩
      have hw' : Wf (e.push entry.1 .ready none) := hw.push hcan none fun h => NodeState.noConfusion h
      by_cases hinherited : entry.1 ∈ objectPrototypeKeys
      · -- the next look at the log throws
        have hillegible : ¬ Legible (e.push entry.1 .ready none) :=
          fun h => ((legible_push none).mp h).2 hinherited
        rcases entries with _ | ⟨next, rest⟩
        · refine iff_of_false ?_ ?_
          · rintro ⟨error, e', h⟩
            cases h
          · rintro (⟨hne, -⟩ | ⟨before, k, m, next, rest, heq, -⟩)
            · exact hne rfl
            · exact absurd heq (by simp)
        · refine iff_of_true ?_ (.inl ⟨List.cons_ne_nil _ _, hinherited, hq⟩)
          obtain ⟨error, hthrow⟩ := cascadeNode_of_not_legible (k := next.1) hw' hillegible next.2
          rw [List.foldlM_cons, bind_of_error hthrow]
          exact ⟨error, _, rfl⟩
      · rw [ih hrest hw' ((legible_push none).mpr ⟨hlegible, hinherited⟩) hkeys',
          derails_push hq.1 hnew]
        exact ⟨.inr, fun h => h.resolve_left fun h => hinherited h.2.1⟩
    · rw [bind_of_ok hnode, ih hrest hw hlegible hkeys']
      exact ⟨.inr, fun h => h.resolve_left fun h => hq h.2.2⟩

theorem cascadeReady_throws_iff (hw : Wf e) : Throws (cascadeReady e) ↔ CascadeThrows e := by
  unfold cascadeReady CascadeThrows
  rw [get_bind]
  rcases hstarted : e.started with _ | _
  · refine iff_of_false ?_ (by simp)
    rintro ⟨error, e', h⟩
    cases h
  · show Throws (e.nodeMeta.entries.foldlM (fun _ entry => cascadeNode entry.1 entry.2) () e) ↔ _
    by_cases hlegible : Legible e
    · rw [cascade_throws_iff e.nodeMeta.nodup hw hlegible
        fun entry hmem => List.mem_map.mpr ⟨entry, hmem, rfl⟩]
      refine ⟨fun h => ⟨rfl, ?_, fun _ => h⟩, fun h => h.2.2 hlegible⟩
      obtain ⟨before, k, m, next, rest, heq, -⟩ := h
      rw [heq]
      simp
    · rcases hentries : e.nodeMeta.entries with _ | ⟨entry, entries⟩
      · refine iff_of_false ?_ fun h => h.2.1 rfl
        rintro ⟨error, e', h⟩
        cases h
      · refine iff_of_true ?_ ⟨rfl, List.cons_ne_nil _ _, fun h => absurd h hlegible⟩
        obtain ⟨error, hthrow⟩ := cascadeNode_of_not_legible (k := entry.1) hw hlegible entry.2
        rw [List.foldlM_cons, bind_of_error hthrow]
        exact ⟨error, _, rfl⟩

/-! ### What a throw left behind -/

theorem Unchanged.refl (e : WorkflowEngine) : Unchanged e e := ⟨rfl, rfl, rfl, rfl⟩

theorem not_unchanged_push {reason : Option String} {killSwitch : Bool} (hlog : e'.log = e.log) :
    ¬ Unchanged e { e'.push n target reason with killSwitch } := by
  intro h
  have hlength := congrArg List.length h.log
  rw [← hlog] at hlength
  simp [WorkflowEngine.push] at hlength

theorem unchanged_remember (hn : n ∈ e.nodeMeta.keys) :
    Unchanged e (e.remember n) ↔ blockedFrom e n = some (state e n) := by
  constructor
  · intro h
    have hmemory := blockedFrom_remember hn
    unfold blockedFrom at hmemory ⊢
    rw [h.nodeMeta] at hmemory
    exact hmemory
  · intro h
    obtain ⟨m, hm, hfrom⟩ := blockedFrom_eq_some.mp h
    refine ⟨WorkflowEngine.updateMeta_log, ?_, ?_, WorkflowEngine.updateMeta_budget⟩
    · unfold WorkflowEngine.remember WorkflowEngine.updateMeta
      rw [hm]
      refine OrdMap.set_of_get? ?_
      rw [hm, ← hfrom]
    · unfold WorkflowEngine.remember WorkflowEngine.updateMeta
      rw [hm]

theorem not_unchanged_forget (h : blockedFrom e n = some target) :
    ¬ Unchanged e (e.forget n) := by
  intro hsame
  have hmemory := blockedFrom_forget (e := e) (n := n) (k := n)
  rw [if_pos rfl] at hmemory
  unfold blockedFrom at hmemory h
  rw [hsame.nodeMeta, h] at hmemory
  cases hmemory

theorem not_unchanged_meter {l : BudgetLedger} {reservation : Option String} (h : l ≠ e.budget) :
    ¬ Unchanged e (e.meter l n reservation) :=
  fun hsame => h (WorkflowEngine.updateMeta_budget.symm.trans hsame.budget)

theorem reserve_ne {id : String} {max : ℚ} {l : BudgetLedger}
    (h : e.budget.reserve n max = .ok (id, l)) : l ≠ e.budget := by
  obtain ⟨-, -, -, -, -, hcounter, -⟩ := BudgetLedger.reserve_ok h
  rintro rfl
  omega

theorem settle_ne {id : String} {actual : ℚ} {l : BudgetLedger}
    (h : e.budget.settle n id actual = .ok l) : l ≠ e.budget := by
  obtain ⟨node, held, hnode, hheld, rfl⟩ := BudgetLedger.settle_ok h
  intro heq
  have hentry := congrArg (fun l : BudgetLedger => l.nodes.get? n) heq
  dsimp only at hentry
  rw [OrdMap.get?_set_self, hnode] at hentry
  have hreservations := congrArg NodeBudget.reservations (Option.some.inj hentry)
  dsimp only at hreservations
  rw [← hreservations, OrdMap.get?_delete_self] at hheld
  cases hheld

theorem cascades_nodeMeta (h : Cascades e e') : e'.nodeMeta = e.nodeMeta := by
  induction h with
  | refl => rfl
  | ready _ _ _ ih => exact ih

theorem cascades_log (h : Cascades e e') : e.log <+: e'.log := by
  induction h with
  | refl => exact List.prefix_refl _
  | ready _ _ _ ih => exact ih.trans (List.prefix_append ..)

/-! ### The calls -/

theorem atomic_iff_unchanged {op : Op} (hd : Drives op) (hop : ∀ n max, op ≠ .startRun n max) :
    Atomic e op ↔ ∀ error e', perform op e = .error error e' → Unchanged e e' := by
  constructor
  · intro h error e' hthrow
    refine (h hd error e' hthrow).resolve_right ?_
    rintro ⟨n, max, refusal, heq, -⟩
    exact hop n max heq
  · exact fun h _ error e' hthrow => .inl (h error e' hthrow)

/-- A drive that is one append. -/
theorem atomic_append {op : Op} (hw : Wf e) (hd : Drives op) (hop : ∀ n max, op ≠ .startRun n max)
    (hperform : perform op = append n target) : Atomic e op := by
  rw [atomic_iff_unchanged hd hop, hperform]
  intro error e' hthrow
  rcases append_cases hw n target none with ⟨-, happ⟩ | ⟨-, error', -, happ⟩
  · rw [happ] at hthrow
    cases hthrow
  · rw [happ] at hthrow
    cases hthrow
    exact .refl e

theorem atomic_block (hw : Wf e) (reason : BlockedReason) :
    Atomic e (.block n reason) ↔ Safe e (.block n reason) := by
  refine Iff.trans (atomic_iff_unchanged trivial (by simp)) ?_
  show (∀ error e', block n reason e = .error error e' → Unchanged e e') ↔ _
  have hresult := block_result hw n reason
  generalize block n reason e = r at hresult
  rcases hresult with can | ⟨error, registered, legible, cannot⟩ | ⟨error, why⟩
  · refine iff_of_true (fun error e' h => by cases h) fun _ _ hcannot => ?_
    rw [can.allowed] at hcannot
    cases hcannot
  · constructor
    · intro h _ _ _
      exact (unchanged_remember registered).mp (h _ _ rfl)
    · intro hsafe error' e' h
      cases h
      exact (unchanged_remember registered).mpr (hsafe registered legible cannot)
  · refine iff_of_true (fun error' e' h => ?_) fun registered legible => ?_
    · cases h
      exact .refl e
    · exact absurd legible (why.resolve_left (not_not.mpr registered))

theorem atomic_resume (hw : Wf e) : Atomic e (.resume n) ↔ Safe e (.resume n) := by
  refine Iff.trans (atomic_iff_unchanged trivial (by simp)) ?_
  show (∀ error e', resume n e = .error error e' → Unchanged e e') ↔ _
  have hresult := resume_result hw n
  generalize resume n e = r at hresult
  rcases hresult with ⟨target, from_, can⟩ | ⟨error, target, from_, cannot⟩ | ⟨error, why⟩
  · refine iff_of_true (fun error e' h => by cases h) fun target' hfrom => ?_
    cases from_.symm.trans hfrom
    exact can
  · exact iff_of_false (fun h => not_unchanged_forget from_ (h _ _ rfl))
      fun hsafe => cannot (hsafe target from_)
  · refine iff_of_true (fun error' e' h => ?_) fun target hfrom => ?_
    · cases h
      exact .refl e
    · rw [why] at hfrom
      cases hfrom

theorem atomic_completeRun (hw : Wf e) (actual : ℚ) :
    Atomic e (.completeRun n actual) ↔ Safe e (.completeRun n actual) := by
  refine Iff.trans (atomic_iff_unchanged trivial (by simp)) ?_
  show (∀ error e', completeRun n actual e = .error error e' → Unchanged e e') ↔ _
  have hresult := completeRun_result hw n actual
  generalize completeRun n actual e = r at hresult
  rcases hresult with ⟨hm, none, can⟩ | ⟨hm, active, settle, can⟩ |
    ⟨error, hm, active, settle, cannot⟩ | ⟨error, why⟩
  · exact iff_of_true (fun error e' h => by cases h) fun _ _ _ _ _ _ => can
  · exact iff_of_true (fun error e' h => by cases h) fun _ _ _ _ _ _ => can
  · exact iff_of_false (fun h => not_unchanged_meter (settle_ne settle) (h _ _ rfl))
      fun hsafe => cannot (hsafe _ _ _ hm active settle)
  · refine iff_of_true (fun error' e' h => ?_) fun m id l hm hid hset => ?_
    · cases h
      exact .refl e
    · rcases why with ⟨-, hnone⟩ | ⟨m', id', error', hm', hid', herror⟩
      · rw [hnone m hm] at hid
        cases hid
      · cases hm.symm.trans hm'
        cases hid.symm.trans hid'
        rw [hset] at herror
        cases herror

theorem perform_startRun_error {max : ℚ} {error : EngineFailure} :
    perform (.startRun n max) e = .error error e' ↔ startRun n max e = .error error e' := by
  show ((startRun n max >>= fun _ => pure ()) e = .error error e') ↔ _
  rcases h : startRun n max e with ⟨a, e''⟩ | ⟨error', e''⟩
  · rw [bind_of_ok h]
    exact iff_of_false (fun h' => by cases h') fun h' => by cases h'
  · rw [bind_of_error h]
    constructor
    · intro h'
      cases h'
      rfl
    · intro h'
      cases h'
      rfl

/-- A call that met neither the switch nor an unknown node, with the refusal of the ledger. -/
theorem atomic_startRun (hw : Wf e) (max : ℚ) :
    Atomic e (.startRun n max) ↔ Safe e (.startRun n max) := by
  have hatomic : Atomic e (.startRun n max) ↔ ∀ error e', startRun n max e = .error error e' →
      Unchanged e e' ∨ ∃ refusal, error = .budget refusal ∧ Exceeded refusal ∧ BudgetBlock e n e' := by
    constructor
    · intro h error e' hthrow
      refine (h trivial error e' (perform_startRun_error.mpr hthrow)).imp_right ?_
      rintro ⟨n', max', refusal, heq, herror, hexceeded, hblock⟩
      cases heq
      exact ⟨refusal, herror, hexceeded, hblock⟩
    · intro h _ error e' hthrow
      refine (h error e' (perform_startRun_error.mp hthrow)).imp_right ?_
      rintro ⟨refusal, herror, hexceeded, hblock⟩
      exact ⟨n, max, refusal, rfl, herror, hexceeded, hblock⟩
  rw [hatomic]
  have hresult := startRun_result hw n max
  generalize startRun n max e = r at hresult
  rcases hresult with ⟨live, reserved, can⟩ | ⟨error, live, registered, reserved, cannot⟩ |
    ⟨killSwitch, live, reserved, exceeded, can⟩ |
    ⟨failure, live, registered, reserved, exceeded, legible, cannot⟩ | ⟨failure, why⟩
  · refine iff_of_true (fun error e' h => by cases h) fun _ _ => ⟨fun _ _ _ => can, ?_⟩
    intro error herror
    rw [reserved] at herror
    cases herror
  · refine iff_of_false (fun h => ?_) fun hsafe => cannot ((hsafe live registered).1 _ _ reserved)
    rcases h _ _ rfl with hsame | ⟨refusal, -, -, hblock⟩
    · exact not_unchanged_meter (reserve_ne reserved) hsame
    · exact reserve_ne reserved (WorkflowEngine.updateMeta_budget.symm.trans hblock.budget)
  · have hlog : (e.remember n).log = e.log := WorkflowEngine.updateMeta_log
    constructor
    · intro h live' registered
      refine ⟨fun id l hok => ?_, fun error herror _ _ => .inl ?_⟩
      · rw [reserved] at hok
        cases hok
      · rcases h _ _ rfl with hsame | ⟨refusal, -, -, hblock⟩
        · exact absurd hsame (not_unchanged_push hlog)
        · exact hblock.assigned
    · intro hsafe error' e' h
      cases h
      refine .inr ⟨_, rfl, exceeded, ?_⟩
      rcases (hsafe live can.registered).2 _ reserved exceeded can.legible with hassigned | ⟨hno, -⟩
      · refine ⟨hassigned, ⟨WorkflowEngine.eventId ((e.remember n).eventCounter + 1), ?_⟩, rfl,
          WorkflowEngine.updateMeta_budget⟩
        show (e.remember n).log ++ _ = _
        rw [hlog]
      · rw [can.allowed] at hno
        cases hno
  · constructor
    · intro h _ _
      refine ⟨fun id l hok => ?_, fun error herror _ _ => .inr ⟨cannot, ?_⟩⟩
      · rw [reserved] at hok
        cases hok
      · rcases h _ _ rfl with hsame | ⟨refusal, -, -, hblock⟩
        · exact (unchanged_remember registered).mp hsame
        · rw [hblock.assigned] at cannot
          cases cannot
    · intro hsafe error' e' h
      cases h
      rcases (hsafe live registered).2 _ reserved exceeded legible with hassigned | ⟨-, hmemory⟩
      · rw [hassigned] at cannot
        cases cannot
      · exact .inl ((unchanged_remember registered).mpr hmemory)
  · refine iff_of_true (fun error' e' h => ?_) fun live registered => ?_
    · cases h
      exact .inl (.refl e)
    · rcases why with hkill | hn | ⟨error, herror, hillegible⟩
      · rw [live] at hkill
        cases hkill
      · exact absurd registered hn
      · refine ⟨fun id l hok => ?_, fun error' herror' hexceeded hlegible => ?_⟩
        · rw [herror] at hok
          cases hok
        · cases herror.symm.trans herror'
          exact absurd hlegible (hillegible hexceeded)

theorem atomic_integrate (hw : Wf e) : Atomic e (.integrate n) ↔ Safe e (.integrate n) := by
  refine Iff.trans (atomic_iff_unchanged trivial (by simp)) ?_
  show (∀ error e', integrate n e = .error error e' → Unchanged e e') ↔
    (CanAppend e n .integrated → ¬ CascadeThrows (e.push n .integrated none))
  unfold integrate
  rcases append_cases hw n .integrated none with ⟨can, happ⟩ | ⟨cannot, error, -, happ⟩
  · have hw' : Wf (e.push n .integrated none) := hw.push can none fun h => NodeState.noConfusion h
    rw [bind_of_ok happ, ← cascadeReady_throws_iff hw']
    constructor
    · rintro h - ⟨error, e', hthrow⟩
      have hcascade := cascadeReady_cascades hw'
      rw [hthrow] at hcascade
      have hlength := (cascades_log hcascade).length_le
      rw [show (after (.error error e' : EStateM.Result EngineFailure WorkflowEngine Unit)).log =
        e.log from (h error e' hthrow).log] at hlength
      simp [WorkflowEngine.push] at hlength
    · intro h error e' hthrow
      exact absurd ⟨error, e', hthrow⟩ (h can)
  · rw [bind_of_error happ]
    refine iff_of_true (fun error' e' h => ?_) fun can => absurd can cannot
    cases h
    exact .refl e

theorem atomic_registerNode (hw : Wf e) (deps : List String) :
    Atomic e (.registerNode n deps) ↔ Safe e (.registerNode n deps) := by
  refine Iff.trans (atomic_iff_unchanged trivial (by simp)) ?_
  show (∀ error e', registerNode n deps e = .error error e' → Unchanged e e') ↔
    (n ∉ e.nodeMeta.keys → ¬ CascadeThrows { e with nodeMeta := e.nodeMeta.set n (.new deps) })
  unfold registerNode
  rw [get_bind]
  by_cases hmem : n ∈ e.nodeMeta.keys
  · rw [if_pos (OrdMap.has_iff.mpr hmem)]
    refine iff_of_true (fun error e' h => ?_) fun hnew => absurd hmem hnew
    cases h
    exact .refl e
  · rw [if_neg fun h => hmem (OrdMap.has_iff.mp h)]
    have hw' : Wf { e with nodeMeta := e.nodeMeta.set n (.new deps) } := hw.register hmem deps
    show (∀ error e', cascadeReady { e with nodeMeta := e.nodeMeta.set n (.new deps) } =
      .error error e' → Unchanged e e') ↔ _
    rw [← cascadeReady_throws_iff hw']
    constructor
    · rintro h - ⟨error, e', hthrow⟩
      have hcascade := cascadeReady_cascades hw'
      rw [hthrow] at hcascade
      have hmeta := cascades_nodeMeta hcascade
      rw [show (after (.error error e' : EStateM.Result EngineFailure WorkflowEngine Unit)).nodeMeta =
        e.nodeMeta from (h error e' hthrow).nodeMeta] at hmeta
      rw [hmeta] at hmem
      exact hmem (OrdMap.mem_keys_set.mpr (.inl rfl))
    · intro h error e' hthrow
      exact absurd ⟨error, e', hthrow⟩ (h hmem)

theorem atomic_iff (hw : Wf e) (op : Op) : Atomic e op ↔ Safe e op := by
  rcases op with approval | _ | _ | ⟨n, deps⟩ | ⟨n, oldDep, newDep⟩ | ⟨ph, ah⟩ | n | ⟨n, max⟩ |
    ⟨n, actual⟩ | ⟨n, passed⟩ | ⟨n, decision⟩ | n | ⟨n, reason⟩ | n | n | n
  · exact iff_of_true (fun hd => hd.elim) trivial
  · exact iff_of_true (fun hd => hd.elim) trivial
  · exact iff_of_true (fun hd => hd.elim) trivial
  · exact atomic_registerNode hw deps
  · exact iff_of_true (fun hd => hd.elim) trivial
  · exact iff_of_true (fun hd => hd.elim) trivial
  · exact iff_of_true (atomic_append hw trivial (by simp) rfl) trivial
  · exact atomic_startRun hw max
  · exact atomic_completeRun hw actual
  · exact iff_of_true (atomic_append hw trivial (by simp) rfl) trivial
  · exact iff_of_true (atomic_append hw trivial (by simp) rfl) trivial
  · exact atomic_integrate hw
  · exact atomic_block hw reason
  · exact atomic_resume hw
  · exact iff_of_true (atomic_append hw trivial (by simp) rfl) trivial
  · exact iff_of_true (atomic_append hw trivial (by simp) rfl) trivial

end

/-! ### Runs -/

/-- **Errors leave no trace.** In every state that a run reaches, a call that throws leaves the engine
as it was, up to the block of an assigned node over its budget, exactly when it meets the condition. -/
theorem error_atomicity (plan : Plan.PlanContract) (cap : ℚ) (budgets : List (String × ℚ))
    (ops : List Op) (op : Op) :
    Atomic (run step (boot plan cap budgets) ops) op ↔
      Safe (run step (boot plan cap budgets) ops) op :=
  atomic_iff (wf_run plan cap budgets ops) op

/-- A started engine whose only node is ready. -/
def readyEngine : WorkflowEngine :=
  run step (boot ⟨[⟨"a", "A", [], .S, .low, true⟩]⟩ 100 [("a", 50)])
    [.recordApproval ⟨.plan, "hash"⟩, .recordApproval ⟨.allocation, "hash"⟩, .start none none]

/-- The node is not assigned: its run is refused, and the money stays reserved. -/
theorem refused_run_holds_money : ¬ Atomic readyEngine (.startRun "a" 10) := by
  have hw : Wf readyEngine := wf_run _ 100 [("a", 50)] _
  rw [atomic_iff hw]
  intro hsafe
  have hreserve : (readyEngine.budget.reserve "a" 10).toBool = true := by decide +kernel
  rcases hres : readyEngine.budget.reserve "a" 10 with error | ⟨id, l⟩
  · rw [hres] at hreserve
    cases hreserve
  · have can := (hsafe (by decide +kernel) (by decide +kernel)).1 id l hres
    have hready : state readyEngine "a" = .ready := by decide +kernel
    have hallowed := can.allowed
    rw [hready] at hallowed
    cases hallowed

end Norns.Engine.ErrorAtomicity
