import Norns.Lib.Delivery
import Norns.Lib.Run
import Norns.UsageIntelligence.Telemetry

/-! # Where the events are

The telemetry is a delivery queue: each act is some steps of the general system.

* `view`: the general state, `step_simulates`: an act is some of its steps;
* `begun_step`: a request begins with its start;
* `delivered_in_order`: in every run each event is acknowledged, pending or dropped, and the events of a request are committed in
  their order;
* `committed_and_pending`: what an append does that throws and takes effect. -/

namespace Norns.UsageIntelligence.Delivery

open Norns.Lib Norns.Lib.JsonText Norns.Lib.Utf8 Norns.Lib.Delivery Norns.UsageIntelligence.Telemetry

variable {β : Type} (options : Options)

/-! ### What the functions change -/

@[simp] theorem emitHealth_pending (force : Bool) (t : AiInvocationTelemetry β) :
    (emitHealth force t).pending = t.pending := by
  unfold emitHealth
  split_ifs <;> rfl

@[simp] theorem emitHealth_dropped (force : Bool) (t : AiInvocationTelemetry β) :
    (emitHealth force t).dropped = t.dropped := by
  unfold emitHealth
  split_ifs <;> rfl

@[simp] theorem emitHealth_reconciliation (force : Bool) (t : AiInvocationTelemetry β) :
    (emitHealth force t).reconciliation = t.reconciliation := by
  unfold emitHealth
  split_ifs <;> rfl

@[simp] theorem recordFailure_pending (now : Time) (t : AiInvocationTelemetry β) :
    (recordFailure now t).pending = t.pending := emitHealth_pending _ _

@[simp] theorem recordFailure_dropped (now : Time) (t : AiInvocationTelemetry β) :
    (recordFailure now t).dropped = t.dropped := emitHealth_dropped _ _

@[simp] theorem recordFailure_reconciliation (now : Time) (t : AiInvocationTelemetry β) :
    (recordFailure now t).reconciliation = t.reconciliation := emitHealth_reconciliation _ _

@[simp] theorem recordSuccess_pending (now : Time) (t : AiInvocationTelemetry β) :
    (recordSuccess now t).pending = t.pending := by
  unfold recordSuccess
  rw [emitHealth_pending]
  split_ifs <;> rfl

@[simp] theorem recordSuccess_dropped (now : Time) (t : AiInvocationTelemetry β) :
    (recordSuccess now t).dropped = t.dropped := by
  unfold recordSuccess
  rw [emitHealth_dropped]
  split_ifs <;> rfl

@[simp] theorem recordSuccess_reconciliation (now : Time) (t : AiInvocationTelemetry β) :
    (recordSuccess now t).reconciliation = t.reconciliation := by
  unfold recordSuccess
  rw [emitHealth_reconciliation]
  split_ifs <;> rfl

@[simp] theorem scheduleRetry_pending (t : AiInvocationTelemetry β) : (scheduleRetry options t).pending = t.pending := by
  unfold scheduleRetry
  split_ifs <;> rfl

@[simp] theorem scheduleRetry_dropped (t : AiInvocationTelemetry β) : (scheduleRetry options t).dropped = t.dropped := by
  unfold scheduleRetry
  split_ifs <;> rfl

@[simp] theorem scheduleRetry_reconciliation (t : AiInvocationTelemetry β) :
    (scheduleRetry options t).reconciliation = t.reconciliation := by
  unfold scheduleRetry
  split_ifs <;> rfl

/-- An event that is not pending goes to the end of the queue, or is dropped. -/
theorem enqueue_spec (now : Time) {call : Call β} {t : AiInvocationTelemetry β}
    (hnew : ∀ candidate ∈ t.pending, candidate.call.stableEventId ≠ call.stableEventId) :
    (enqueue options now call t).reconciliation = t.reconciliation ∧
      (((enqueue options now call t).pending = t.pending ++ [⟨call, 0⟩] ∧
          (enqueue options now call t).dropped = t.dropped) ∨
        ((enqueue options now call t).pending = t.pending ∧ (enqueue options now call t).dropped = t.dropped ++ [call])) := by
  have hany : ¬ (t.pending.any fun candidate => candidate.call.stableEventId = call.stableEventId) = true := by
    simpa using hnew
  unfold enqueue
  rw [if_neg hany]
  dsimp only
  split_ifs <;> simp

/-! ### The general state -/

/-- The events of a request are one channel. -/
def channel (call : Call β) : Text := call.event.request_id

def pendingCalls (t : AiInvocationTelemetry β) : List (Call β) := t.pending.map PendingTelemetryEvent.call

def view (w : World β) : State (Call β) where
  handed := w.handed
  direct := w.direct
  queue := pendingCalls w.telemetry
  sending := w.telemetry.reconciliation.isAppending
  acked := w.acked
  lost := w.telemetry.dropped
  sent := w.sent
  failed := w.failed
  stored := w.rows
  late := w.late

/-- The view of a world whose telemetry has ended its drain or not begun it. -/
def idleView (t : AiInvocationTelemetry β) (w : World β) : State (Call β) :=
  { view w with queue := pendingCalls t, lost := t.dropped, sending := false }

theorem drainEnd_spec (recovered : ℕ) (t : AiInvocationTelemetry β) :
    (drainEnd options recovered t).pending = t.pending ∧ (drainEnd options recovered t).dropped = t.dropped ∧
      (drainEnd options recovered t).reconciliation = .settling recovered := by
  unfold drainEnd
  split_ifs <;> simp

theorem view_drainEnd (recovered : ℕ) (t : AiInvocationTelemetry β) (w : World β) :
    view (advance (drainEnd options recovered t) w) = idleView t w := by
  obtain ⟨hpending, hdropped, hreconciliation⟩ := drainEnd_spec options recovered t
  have hadvance : advance (drainEnd options recovered t) w = { w with telemetry := drainEnd options recovered t } := by
    unfold advance
    rw [hreconciliation]
  rw [hadvance]
  unfold view idleView pendingCalls
  simp only [hpending, hdropped, hreconciliation, Reconciliation.isAppending, view]

theorem drainLoop_cases (recovered : ℕ) (t : AiInvocationTelemetry β) :
    (drainLoop options recovered t = drainEnd options recovered t) ∨
      ∃ item rest, t.pending = item :: rest ∧
        drainLoop options recovered t = { t with reconciliation := .appending recovered } := by
  unfold drainLoop
  split
  · exact Or.inl rfl
  · rename_i item rest hpending
    exact Or.inr ⟨item, rest, hpending, rfl⟩

/-- The head of the loop sends the first event, if there is one. -/
theorem drainLoop_simulates (recovered : ℕ) (t : AiInvocationTelemetry β) (w : World β) :
    Relation.ReflTransGen (Step channel) (idleView t w) (view (advance (drainLoop options recovered t) w)) := by
  rcases drainLoop_cases options recovered t with hloop | ⟨item, rest, hpending, hloop⟩
  · rw [hloop, view_drainEnd]
  · have hadvance : advance { t with reconciliation := .appending recovered } w =
        { w with telemetry := { t with reconciliation := .appending recovered }, sent := w.sent ++ [item.call] } := by
      unfold advance
      dsimp only
      split
      · rename_i hcons
        rw [hpending] at hcons
        rw [(List.cons.inj hcons).1]
      · rename_i hnone
        exact absurd hpending (hnone recovered item rest rfl)
    rw [hloop, hadvance]
    refine Relation.ReflTransGen.single ?_
    have hqueue : (idleView t w).queue = item.call :: rest.map PendingTelemetryEvent.call := by
      unfold idleView pendingCalls
      rw [hpending]
      rfl
    exact Step.send item.call _ hqueue rfl

/-! ### Events by their ids -/

theorem hasId_iff {stableEventId : Text} {calls : List (Call β)} :
    hasId stableEventId calls = true ↔ ∃ call ∈ calls, call.stableEventId = stableEventId := by
  simp [hasId]

theorem findId_spec {stableEventId : Text} {calls : List (Call β)} {call : Call β}
    (h : findId stableEventId calls = some call) : call.stableEventId = stableEventId ∧
      ∃ before after, calls = before ++ call :: after ∧ removeId stableEventId calls = before ++ after := by
  obtain ⟨hid, before, after, hsplit, hbefore⟩ := List.find?_eq_some_iff_append.mp h
  refine ⟨of_decide_eq_true hid, before, after, hsplit, ?_⟩
  unfold removeId
  have hhead : (call :: after).eraseP (fun c => decide (c.stableEventId = stableEventId)) = after :=
    List.eraseP_cons_of_pos hid
  rw [hsplit, List.eraseP_append_right _ (fun b hb => by simpa using hbefore b hb), hhead]

/-- What the runs keep: the general invariant, and ids that tell the events apart. -/
structure Kept (w : World β) : Prop where
  inv : Inv channel (view w)
  ids : (w.handed.map Call.stableEventId).Nodup

/-- Events with one id are one event. -/
theorem Kept.same {w : World β} (h : Kept w) {c d : Call β} (hc : c ∈ w.handed) (hd : d ∈ w.handed)
    (heq : c.stableEventId = d.stableEventId) : c = d :=
  List.inj_on_of_nodup_map h.ids hc hd heq

theorem Kept.row_handed {w : World β} (h : Kept w) {c : Call β} (hc : c ∈ w.rows) : c ∈ w.handed :=
  h.inv.known c (h.inv.stored c hc)

/-- A committed id is that of the event itself. -/
theorem Kept.mem_rows {w : World β} (h : Kept w) {c : Call β} (hc : c ∈ w.handed)
    (hrows : hasId c.stableEventId w.rows = true) : c ∈ w.rows := by
  obtain ⟨d, hd, heq⟩ := hasId_iff.mp hrows
  exact h.same (h.row_handed hd) hc heq ▸ hd

theorem possible_comes {w : World β} {call : Call β} (h : possible w call) : Comes channel (view w) call where
  new := by
    intro hmem
    have hid : hasId call.stableEventId w.handed = true := hasId_iff.mpr ⟨call, hmem, rfl⟩
    rw [h.1] at hid
    cases hid
  alone := h.2

/-! ### Acts are steps -/

/-- An act is some steps of the general system, and new ids come with new events. -/
structure Simulates (w w' : World β) : Prop where
  steps : Relation.ReflTransGen (Step channel) (view w) (view w')
  ids : w'.handed = w.handed ∨ ∃ call, w'.handed = w.handed ++ [call] ∧ hasId call.stableEventId w.handed = false

theorem simulates_refl (w : World β) : Simulates w w := ⟨Relation.ReflTransGen.refl, Or.inl rfl⟩

theorem Kept.step {w w' : World β} (h : Kept w) (hsim : Simulates w w') : Kept w' where
  inv := inv_steps h.inv hsim.steps
  ids := by
    rcases hsim.ids with heq | ⟨call, heq, hnew⟩
    · rw [heq]
      exact h.ids
    · rw [heq, List.map_append, List.nodup_append]
      refine ⟨h.ids, List.nodup_singleton _, fun id hid id' hid' hsame => ?_⟩
      obtain ⟨c, hc, rfl⟩ := List.mem_map.mp hid
      obtain rfl := List.mem_singleton.mp hid'
      rw [hasId_iff.mpr ⟨c, hc, hsame⟩] at hnew
      cases hnew

/-- A new event is appended, queued or dropped. -/
theorem hand_simulates (now : Time) {w : World β} (h : Kept w) {call : Call β} (hpossible : possible w call)
    (traces : OrdMap Text ℕ) : Simulates w (appendWithRecovery options now call { w with traces := traces }) := by
  have hcomes := possible_comes hpossible
  unfold appendWithRecovery
  dsimp only
  split_ifs with hpending
  · have hnew : ∀ candidate ∈ w.telemetry.pending, candidate.call.stableEventId ≠ call.stableEventId := by
      intro candidate hcandidate heq
      have hmem : candidate.call ∈ w.handed := h.inv.queue_handed (List.mem_map_of_mem hcandidate)
      have hid := hpossible.1
      rw [hasId_iff.mpr ⟨_, hmem, heq⟩] at hid
      cases hid
    refine ⟨Relation.ReflTransGen.single ?_, Or.inr ⟨call, rfl, hpossible.1⟩⟩
    obtain ⟨hreconciliation, ⟨hqueue, hdropped⟩ | ⟨hqueue, hdropped⟩⟩ := enqueue_spec options now hnew
    · have hview : view { w with telemetry := enqueue options now call w.telemetry, handed := w.handed ++ [call] } =
          { view w with handed := (view w).handed ++ [call], queue := (view w).queue ++ [call] } := by
        unfold view pendingCalls
        dsimp only
        rw [hreconciliation, hqueue, hdropped, List.map_append, List.map_singleton]
      exact hview ▸ Step.queue call hcomes
    · have hview : view { w with telemetry := enqueue options now call w.telemetry, handed := w.handed ++ [call] } =
          { view w with handed := (view w).handed ++ [call], lost := (view w).lost ++ [call] } := by
        unfold view pendingCalls
        dsimp only
        rw [hreconciliation, hqueue, hdropped]
      exact hview ▸ Step.refuse call hcomes
  · refine ⟨Relation.ReflTransGen.single ?_, Or.inr ⟨call, rfl, hpossible.1⟩⟩
    have hempty : (view w).queue = [] := by
      have hnil : w.telemetry.pending = [] := List.length_eq_zero_iff.mp (by omega)
      unfold view pendingCalls
      rw [hnil]
      rfl
    exact Step.direct call hcomes hempty

theorem view_recordFailure (now : Time) (w : World β) :
    view { w with telemetry := recordFailure now w.telemetry } = view w := by
  unfold view pendingCalls
  simp only [recordFailure_pending, recordFailure_dropped, recordFailure_reconciliation]

/-- An append takes effect. -/
theorem commit_simulates {w : World β} (h : Kept w) (stableEventId : Text) :
    Simulates w (step options w (.commit stableEventId)) := by
  unfold step
  dsimp only
  rcases hfind : findId stableEventId w.sent with _ | call
  · exact simulates_refl w
  · obtain ⟨rfl, before, after, hsplit, -⟩ := findId_spec hfind
    have hsent : call ∈ (view w).sent := by
      show call ∈ w.sent
      rw [hsplit]
      exact List.mem_append_right _ List.mem_cons_self
    have hhanded : call ∈ w.handed := h.inv.known call hsent
    dsimp only
    split_ifs with hrows hdropped
    · exact simulates_refl w
    · refine ⟨Relation.ReflTransGen.single ?_, Or.inl rfl⟩
      have hnew : call ∉ (view w).stored := fun hmem => hrows (hasId_iff.mpr ⟨call, hmem, rfl⟩)
      obtain ⟨d, hd, heq⟩ := hasId_iff.mp hdropped
      have hlost : call ∈ (view w).lost := h.same (h.inv.lost_handed hd) hhanded heq ▸ hd
      exact Step.landLate call hsent hnew hlost
    · refine ⟨Relation.ReflTransGen.single ?_, Or.inl rfl⟩
      have hnew : call ∉ (view w).stored := fun hmem => hrows (hasId_iff.mpr ⟨call, hmem, rfl⟩)
      have hkept : call ∉ (view w).lost := fun hmem => hdropped (hasId_iff.mpr ⟨call, hmem, rfl⟩)
      exact Step.land call hsent hnew hkept

/-- An append that is waited for returns. -/
theorem resolve_simulates {w : World β} (h : Kept w) (now : Time) (stableEventId : Text) :
    Simulates w (step options w (.resolve now stableEventId)) := by
  unfold step
  dsimp only
  rcases hfind : findId stableEventId w.direct with _ | call
  · exact simulates_refl w
  · obtain ⟨rfl, before, after, hsplit, hremove⟩ := findId_spec hfind
    have hdirect : call ∈ (view w).direct := by
      show call ∈ w.direct
      rw [hsplit]
      exact List.mem_append_right _ List.mem_cons_self
    dsimp only
    split_ifs with hrows
    · refine ⟨Relation.ReflTransGen.single ?_, Or.inl rfl⟩
      have hstored : call ∈ (view w).stored := h.mem_rows (h.inv.direct_handed hdirect) hrows
      have hview : view { w with
          direct := removeId call.stableEventId w.direct
          acked := w.acked ++ [call]
          telemetry := recordSuccess now w.telemetry } =
          { view w with direct := before ++ after, acked := (view w).acked ++ [call] } := by
        unfold view pendingCalls
        simp only [hremove, recordSuccess_pending, recordSuccess_dropped, recordSuccess_reconciliation]
      exact hview ▸ Step.ack call before after hsplit hstored
    · exact simulates_refl w

/-- An append that is waited for throws. -/
theorem reject_simulates {w : World β} (h : Kept w) (now : Time) (stableEventId : Text) :
    Simulates w (step options w (.reject now stableEventId)) := by
  unfold step
  dsimp only
  rcases hfind : findId stableEventId w.direct with _ | call
  · exact simulates_refl w
  · obtain ⟨rfl, before, after, hsplit, hremove⟩ := findId_spec hfind
    have hdirect : call ∈ (view w).direct := by
      show call ∈ w.direct
      rw [hsplit]
      exact List.mem_append_right _ List.mem_cons_self
    have hnew : ∀ candidate ∈ w.telemetry.pending, candidate.call.stableEventId ≠ call.stableEventId := by
      intro candidate hcandidate heq
      have hqueue : candidate.call ∈ (view w).queue := List.mem_map_of_mem hcandidate
      have hsame := h.same (h.inv.queue_handed hqueue) (h.inv.direct_handed hdirect) heq
      exact h.inv.direct_not_queue hdirect (hsame ▸ hqueue)
    refine ⟨Relation.ReflTransGen.single ?_, Or.inl rfl⟩
    obtain ⟨hreconciliation, ⟨hqueue, hdropped⟩ | ⟨hqueue, hdropped⟩⟩ := enqueue_spec options now hnew
    · have hview : view { w with
          direct := removeId call.stableEventId w.direct
          failed := w.failed ++ [call]
          telemetry := enqueue options now call w.telemetry } =
          { view w with
            direct := before ++ after, queue := (view w).queue ++ [call], failed := (view w).failed ++ [call] } := by
        unfold view pendingCalls
        dsimp only
        rw [hremove, hreconciliation, hqueue, hdropped, List.map_append, List.map_singleton]
      exact hview ▸ Step.requeue call before after hsplit
    · have hview : view { w with
          direct := removeId call.stableEventId w.direct
          failed := w.failed ++ [call]
          telemetry := enqueue options now call w.telemetry } =
          { view w with
            direct := before ++ after, lost := (view w).lost ++ [call], failed := (view w).failed ++ [call] } := by
        unfold view pendingCalls
        dsimp only
        rw [hremove, hreconciliation, hqueue, hdropped]
      exact hview ▸ Step.abandon call before after hsplit

/-! #### The drain -/

theorem advance_handed (t : AiInvocationTelemetry β) (w : World β) : (advance t w).handed = w.handed := by
  unfold advance
  split <;> rfl

/-- The head of the loop, after the answer for the first event. -/
theorem answer_simulates {w w' : World β} {t : AiInvocationTelemetry β} (recovered : ℕ)
    (hstep : Step channel (view w) (idleView t w')) (hhanded : w'.handed = w.handed) :
    Simulates w (advance (drainLoop options recovered t) w') where
  steps := (Relation.ReflTransGen.single hstep).trans (drainLoop_simulates options recovered t w')
  ids := Or.inl ((advance_handed _ w').trans hhanded)

theorem view_queue {w : World β} {item : PendingTelemetryEvent β} {rest : List (PendingTelemetryEvent β)}
    (h : w.telemetry.pending = item :: rest) : (view w).queue = item.call :: rest.map PendingTelemetryEvent.call := by
  unfold view pendingCalls
  rw [h]
  rfl

theorem view_sending {w : World β} {recovered : ℕ} (h : w.telemetry.reconciliation = .appending recovered) :
    (view w).sending = true := by
  unfold view
  rw [h]
  rfl

/-- The append of the drain returns. -/
theorem drainResolve_simulates {w : World β} (h : Kept w) (now : Time) :
    Simulates w (step options w (.drainResolve now)) := by
  unfold step
  dsimp only
  split
  · rename_i recovered item rest hreconciliation hpending
    split_ifs with hrows
    · have hqueue := view_queue hpending
      have hmem : item.call ∈ (view w).queue := hqueue ▸ List.mem_cons_self
      have hstored : item.call ∈ (view w).stored := h.mem_rows (h.inv.queue_handed hmem) hrows
      have hview : idleView (recordSuccess now { w.telemetry with pending := w.telemetry.pending.tail })
          { w with acked := w.acked ++ [item.call] } =
          { view w with
            sending := false, queue := rest.map PendingTelemetryEvent.call, acked := (view w).acked ++ [item.call] } := by
        unfold idleView view pendingCalls
        simp only [recordSuccess_pending, recordSuccess_dropped, hpending, List.tail_cons]
      refine answer_simulates options (recovered + 1) ?_ rfl
      exact hview ▸ Step.ackHead item.call _ hqueue (view_sending hreconciliation) hstored
    · exact simulates_refl w
  · exact simulates_refl w

/-- The append of the drain throws: the event is dropped, or waits for the next drain. -/
theorem drainReject_simulates (now : Time) (w : World β) : Simulates w (step options w (.drainReject now)) := by
  unfold step
  dsimp only
  split
  · rename_i recovered item rest hreconciliation hpending
    have hqueue := view_queue hpending
    have hsending := view_sending hreconciliation
    unfold drainFailed
    rw [hpending]
    dsimp only
    split_ifs with hattempts
    · refine answer_simulates options recovered ?_ rfl
      have hview : idleView (emitHealth true
          { recordFailure now { w.telemetry with pending := ⟨item.call, item.attempts + 1⟩ :: rest } with
            pending := rest
            dropped := (recordFailure now
              { w.telemetry with pending := ⟨item.call, item.attempts + 1⟩ :: rest }).dropped ++ [item.call] })
          { w with failed := w.failed ++ [item.call] } =
          { view w with
            sending := false, queue := rest.map PendingTelemetryEvent.call, lost := (view w).lost ++ [item.call],
            failed := (view w).failed ++ [item.call] } := by
        unfold idleView view pendingCalls
        simp only [emitHealth_pending, emitHealth_dropped, recordFailure_dropped]
      exact hview ▸ Step.loseHead item.call _ hqueue hsending
    · refine ⟨Relation.ReflTransGen.single ?_, Or.inl (advance_handed _ _)⟩
      rw [view_drainEnd]
      have hview : idleView (recordFailure now { w.telemetry with pending := ⟨item.call, item.attempts + 1⟩ :: rest })
          { w with failed := w.failed ++ [item.call] } =
          { view w with sending := false, failed := (view w).failed ++ [item.call] } := by
        unfold idleView view pendingCalls
        simp only [recordFailure_pending, recordFailure_dropped, hpending, List.map_cons]
      exact hview ▸ Step.failHead item.call _ hqueue hsending
  · exact simulates_refl w

/-- A drain begins. -/
theorem drain_simulates {w : World β} {t : AiInvocationTelemetry β} (hidle : w.telemetry.reconciliation = .idle)
    (hpending : t.pending = w.telemetry.pending) (hdropped : t.dropped = w.telemetry.dropped) :
    Simulates w (advance (drain options t) w) := by
  have hview : idleView { t with retryTimer := none } w = view w := by
    unfold idleView view pendingCalls
    simp only [hpending, hdropped, hidle, Reconciliation.isAppending]
  refine ⟨?_, Or.inl (advance_handed _ w)⟩
  rw [← hview]
  exact drainLoop_simulates options 0 { t with retryTimer := none } w

theorem reconcile_simulates (w : World β) : Simulates w (step options w .reconcile) := by
  unfold step
  dsimp only
  split
  · rename_i hidle
    unfold reconcile
    rw [hidle]
    exact drain_simulates options hidle rfl rfl
  · exact simulates_refl w

theorem timer_simulates (w : World β) : Simulates w (step options w .timer) := by
  unfold step
  dsimp only
  split_ifs with htimer
  · split
    · rename_i hidle
      unfold fire reconcile
      rw [hidle]
      exact drain_simulates options hidle rfl rfl
    · rename_i hbusy
      have hfire : fire options w.telemetry = { w.telemetry with retryTimer := none } := by
        unfold fire reconcile
        split
        · rename_i hidle
          exact absurd hidle hbusy
        · rfl
      rw [hfire]
      exact ⟨Relation.ReflTransGen.refl, Or.inl rfl⟩
  · exact simulates_refl w

theorem settle_simulates (w : World β) : Simulates w (step options w .settle) := by
  unfold step
  dsimp only
  split
  · rename_i recovered hsettling
    refine ⟨?_, Or.inl rfl⟩
    have hview : view { w with telemetry := { w.telemetry with reconciliation := .idle } } = view w := by
      unfold view
      simp only [hsettling, Reconciliation.isAppending, pendingCalls]
    rw [hview]
  · exact simulates_refl w

/-- **An act** is some steps of the general system. -/
theorem step_simulates {w : World β} (h : Kept w) (act : Act β) : Simulates w (step options w act) := by
  cases act with
  | start now requestId body =>
    unfold step
    dsimp only
    split_ifs with hpossible
    · exact hand_simulates options now h hpossible _
    · exact simulates_refl w
  | append now requestId eventType body =>
    unfold step
    dsimp only
    split
    · exact simulates_refl w
    · split_ifs with hpossible
      · exact hand_simulates options now h hpossible.2 _
      · exact simulates_refl w
  | lookupThrows now => exact ⟨by rw [step, view_recordFailure], Or.inl rfl⟩
  | commit stableEventId => exact commit_simulates options h stableEventId
  | resolve now stableEventId => exact resolve_simulates options h now stableEventId
  | reject now stableEventId => exact reject_simulates options h now stableEventId
  | drainResolve now => exact drainResolve_simulates options h now
  | drainReject now => exact drainReject_simulates options now w
  | reconcile => exact reconcile_simulates options w
  | timer => exact timer_simulates options w
  | settle => exact settle_simulates options w

theorem kept_initial : Kept (World.initial : World β) := ⟨inv_initial channel, List.nodup_nil⟩

/-- **Every run** keeps the invariant. -/
theorem kept_run (acts : List (Act β)) : Kept (Run.run (step options) World.initial acts) :=
  Run.run_induct' (fun _ act h => h.step (step_simulates options h act)) kept_initial acts

/-! ### The events of a request -/

/-- The place of an event in the life of its request. -/
def rank : EventType → ℕ
  | .request_started => 0
  | .usage_observed => 1
  | .request_completed | .request_failed => 2

/-- Later events of a request are not earlier in its life. -/
def InLifecycle (requestId : Text) (x y : Call β) : Prop :=
  x.event.request_id = requestId → y.event.request_id = requestId → rank x.event.event_type ≤ rank y.event.event_type

/-- A request begins with its start. -/
structure Begun (w : World β) : Prop where
  traces : ∀ requestId ordinal, w.traces.get? requestId = some ordinal →
    ∃ body, startCall requestId body ∈ w.handed
  first : w.handed.Pairwise fun x y => channel x = channel y → y.event.event_type ≠ .request_started
  handed : ∀ call ∈ w.handed, ∃ body, startCall (channel call) body ∈ w.handed

theorem begun_initial : Begun (World.initial : World β) where
  traces := fun requestId ordinal h => by
    rw [World.initial, OrdMap.get?_empty] at h
    cases h
  first := List.Pairwise.nil
  handed := fun call h => absurd h List.not_mem_nil

theorem appendWithRecovery_handed (now : Time) (call : Call β) (w : World β) :
    (appendWithRecovery options now call w).handed = w.handed ++ [call] ∧
      (appendWithRecovery options now call w).traces = w.traces := by
  unfold appendWithRecovery
  split_ifs <;> exact ⟨rfl, rfl⟩

/-- A start whose id is new is the first event of its request. -/
theorem Begun.start {w w' : World β} (h : Begun w) {requestId : Text} {body : β}
    (hpossible : possible w (startCall requestId body)) (htraces : w'.traces = w.traces.set requestId 0)
    (hhanded : w'.handed = w.handed ++ [startCall requestId body]) : Begun w' where
  traces := by
    intro r ordinal hget
    rw [hhanded]
    by_cases hr : r = requestId
    · subst hr
      exact ⟨body, List.mem_append_right _ (List.mem_singleton_self _)⟩
    · rw [htraces, OrdMap.get?_set_ne _ _ (Ne.symm hr)] at hget
      obtain ⟨body', hmem⟩ := h.traces r ordinal hget
      exact ⟨body', List.mem_append_left _ hmem⟩
  first := by
    rw [hhanded]
    refine List.pairwise_append.mpr ⟨h.first, List.pairwise_singleton _ _, fun x hx y hy hchannel => ?_⟩
    obtain rfl := List.mem_singleton.mp hy
    obtain ⟨body', hmem⟩ := h.handed x hx
    have hid : hasId (startCall requestId body).stableEventId w.handed = true := by
      refine hasId_iff.mpr ⟨_, hmem, ?_⟩
      rw [hchannel]
      rfl
    rw [hpossible.1] at hid
    cases hid
  handed := by
    rw [hhanded]
    intro call hcall
    rcases List.mem_append.mp hcall with hcall | hcall
    · obtain ⟨body', hmem⟩ := h.handed call hcall
      exact ⟨body', List.mem_append_left _ hmem⟩
    · obtain rfl := List.mem_singleton.mp hcall
      exact ⟨body, List.mem_append_right _ hcall⟩

/-- The other events come through the trace of their request. -/
theorem Begun.append {w w' : World β} (h : Begun w) {requestId : Text} {ordinal : ℕ} {eventType : EventType} {body : β}
    (hget : w.traces.get? requestId = some ordinal) (htype : eventType ≠ .request_started)
    (htraces : w'.traces = w.traces.set requestId (ordinal + 1))
    (hhanded : w'.handed = w.handed ++ [traceCall requestId (ordinal + 1) eventType body]) : Begun w' := by
  obtain ⟨startBody, hstart⟩ := h.traces requestId ordinal hget
  have hbegun : startCall requestId startBody ∈ w'.handed := by
    rw [hhanded]
    exact List.mem_append_left _ hstart
  refine ⟨?_, ?_, ?_⟩
  · intro r o hr
    by_cases heq : r = requestId
    · subst heq
      exact ⟨startBody, hbegun⟩
    · rw [htraces, OrdMap.get?_set_ne _ _ (Ne.symm heq)] at hr
      obtain ⟨body', hmem⟩ := h.traces r o hr
      rw [hhanded]
      exact ⟨body', List.mem_append_left _ hmem⟩
  · rw [hhanded]
    refine List.pairwise_append.mpr ⟨h.first, List.pairwise_singleton _ _, fun x hx y hy _ => ?_⟩
    obtain rfl := List.mem_singleton.mp hy
    exact htype
  · intro call hcall
    rw [hhanded] at hcall
    rcases List.mem_append.mp hcall with hcall | hcall
    · obtain ⟨body', hmem⟩ := h.handed call hcall
      rw [hhanded]
      exact ⟨body', List.mem_append_left _ hmem⟩
    · obtain rfl := List.mem_singleton.mp hcall
      exact ⟨startBody, hbegun⟩

theorem Begun.same {w w' : World β} (h : Begun w) (htraces : w'.traces = w.traces) (hhanded : w'.handed = w.handed) :
    Begun w' := by
  obtain ⟨h₁, h₂, h₃⟩ := h
  rw [← hhanded] at h₁ h₂ h₃
  rw [← htraces] at h₁
  exact ⟨h₁, h₂, h₃⟩

theorem advance_traces (t : AiInvocationTelemetry β) (w : World β) : (advance t w).traces = w.traces := by
  unfold advance
  split <;> rfl

/-- Only `start` and `append` hand over an event. -/
theorem begun_step {w : World β} (h : Begun w) (act : Act β) : Begun (step options w act) := by
  cases act with
  | start now requestId body =>
    unfold step
    dsimp only
    split_ifs with hpossible
    · obtain ⟨hhanded, htraces⟩ := appendWithRecovery_handed options now (startCall requestId body)
        { w with traces := w.traces.set requestId 0 }
      exact h.start hpossible htraces hhanded
    · exact h
  | append now requestId eventType body =>
    unfold step
    dsimp only
    split
    · exact h
    · rename_i ordinal hget
      split_ifs with hpossible
      · obtain ⟨hhanded, htraces⟩ := appendWithRecovery_handed options now
          (traceCall requestId (ordinal + 1) eventType body)
          { w with traces := w.traces.set requestId (ordinal + 1) }
        exact h.append hget hpossible.1 htraces hhanded
      · exact h
  | _ =>
    refine h.same ?_ ?_
    all_goals
      unfold step
      dsimp only
      repeat' split
      all_goals first
        | rfl
        | exact advance_traces _ _
        | exact advance_handed _ _

theorem begun_run (acts : List (Act β)) : Begun (Run.run (step options) World.initial acts) :=
  Run.run_induct' (I := Begun) (fun _ act h => begun_step options h act) begun_initial acts

/-! ### Every run -/

/-- No append is waited for, neither by a trace nor by the drain. -/
def Quiet (w : World β) : Prop := w.direct = [] ∧ w.telemetry.reconciliation.isAppending = false

/-- No usage is observed after the end of the request. -/
def EndsLast (requestId : Text) (calls : List (Call β)) : Prop :=
  calls.Pairwise fun x y => x.event.request_id = requestId → y.event.request_id = requestId →
    rank x.event.event_type = 2 → y.event.event_type ≠ .usage_observed

/-- What the delivery of the events comes to. -/
structure Meets (w : World β) : Prop where
  /-- Each event is acknowledged, pending or dropped, and only one of them. -/
  places : Quiet w → (w.acked ++ (pendingCalls w.telemetry ++ w.telemetry.dropped)).Perm w.handed
  ids : (w.handed.map Call.stableEventId).Nodup
  committed : ∀ call ∈ w.acked, call ∈ w.rows
  once : (w.rows.map Call.stableEventId).Nodup
  /-- What is committed and was not acknowledged is an event whose append has thrown. -/
  ambiguous : Quiet w → ∀ call ∈ w.rows, call ∈ w.handed ∧ (call ∈ w.acked ∨ call ∈ w.failed)
  late : ∀ call ∈ w.late, call ∈ w.telemetry.dropped
  order : w.rows.Pairwise fun x y => channel x = channel y → Before w.handed x y ∨ y ∈ w.late
  lifecycle : ∀ requestId, EndsLast requestId w.handed →
    w.rows.Pairwise fun x y => InLifecycle requestId x y ∨ y ∈ w.late

theorem Kept.places {w : World β} (h : Kept w) (hquiet : Quiet w) :
    (w.acked ++ (pendingCalls w.telemetry ++ w.telemetry.dropped)).Perm w.handed := by
  have hplaces : (w.direct ++ (w.acked ++ (pendingCalls w.telemetry ++ w.telemetry.dropped))).Perm w.handed := h.inv.places
  rw [hquiet.1, List.nil_append] at hplaces
  exact hplaces

theorem Kept.ambiguous {w : World β} (h : Kept w) (hquiet : Quiet w) :
    ∀ call ∈ w.rows, call ∈ w.handed ∧ (call ∈ w.acked ∨ call ∈ w.failed) := by
  intro call hcall
  refine ⟨h.row_handed hcall, ?_⟩
  rcases h.inv.answered call (h.inv.stored call hcall) with hdirect | ⟨hsending, -⟩ | hanswered
  · have hnil : call ∈ w.direct := hdirect
    rw [hquiet.1] at hnil
    exact absurd hnil List.not_mem_nil
  · have happending : w.telemetry.reconciliation.isAppending = true := hsending
    rw [hquiet.2] at happending
    cases happending
  · exact hanswered

/-- What is handed over later in a request is not earlier in its life. -/
theorem Begun.lifecycle {w : World β} (h : Begun w) {requestId : Text} (hends : EndsLast requestId w.handed) :
    w.handed.Pairwise (InLifecycle requestId) := by
  refine (h.first.and hends).imp fun {x y} hxy hx hy => ?_
  have hstart := hxy.1 (hx.trans hy.symm)
  have husage := hxy.2 hx hy
  revert hstart husage
  cases x.event.event_type
  all_goals cases y.event.event_type
  all_goals simp [rank]

theorem Meets.of_kept {w : World β} (h : Kept w) (hbegun : Begun w) : Meets w where
  places := h.places
  ids := h.ids
  committed := h.inv.acked
  once := by
    refine List.Nodup.map_on (fun c hc d hd heq => ?_) h.inv.once
    exact h.same (h.row_handed hc) (h.row_handed hd) heq
  ambiguous := h.ambiguous
  late := h.inv.late
  order := h.inv.order
  lifecycle := by
    intro requestId hends
    have hlife := hbegun.lifecycle hends
    refine h.inv.order.imp fun {x y} hxy => ?_
    by_cases hlate : y ∈ w.late
    · exact Or.inr hlate
    · refine Or.inl fun hx hy => ?_
      have hbefore := (hxy (hx.trans hy.symm)).resolve_right hlate
      have hpair := hlife.sublist hbefore
      exact (List.pairwise_cons.mp hpair).1 y (List.mem_singleton_self y) hx hy

/-- **Delivery.** In every run every event that was handed over is at a quiet moment exactly one of acknowledged, pending
and dropped, an acknowledged one is committed, once, and one that is committed all the same had an append that threw; the
events of a request are committed in the order in which they were handed over, but for one that had been dropped. -/
theorem delivered_in_order (acts : List (Act β)) : Meets (Run.run (step options) World.initial acts) :=
  Meets.of_kept (kept_run options acts) (begun_run options acts)

/-! #### Appends that throw and take effect -/

/-- A queue of one event that is tried once. -/
def oneTry : Options := ⟨1, 1, 1, by decide, by decide, by decide⟩

def started : Call Unit := startCall (units "r") ()

def observed : Call Unit := traceCall (units "r") 1 .usage_observed ()

/-- The append of the start takes effect and throws. -/
def threw : World Unit :=
  Run.run (step oneTry) World.initial
    [.start 0 (units "r") (), .commit started.stableEventId, .reject 0 started.stableEventId]

/-- The start is dropped, the usage is committed, and then the append of the start takes effect. -/
def overtaken : World Unit :=
  Run.run (step oneTry) World.initial
    [.start 0 (units "r") (), .reject 0 started.stableEventId, .timer, .drainReject 0, .settle,
      .append 0 (units "r") .usage_observed (), .commit observed.stableEventId, .resolve 0 observed.stableEventId,
      .commit started.stableEventId]

/-- Committed, pending and dropped are not three places: an event that is committed can be pending. And a dropped event
can be committed after a later one of its request. -/
theorem committed_and_pending :
    (Quiet threw ∧ ¬ (threw.rows ++ (pendingCalls threw.telemetry ++ threw.telemetry.dropped)).Perm threw.handed) ∧
      (Quiet overtaken ∧ EndsLast (units "r") overtaken.handed ∧
        ¬ overtaken.rows.Pairwise (InLifecycle (units "r"))) := by
  have hhanded : overtaken.handed = [started, observed] := rfl
  have hrows : overtaken.rows = [observed, started] := rfl
  refine ⟨⟨⟨rfl, rfl⟩, fun hperm => ?_⟩, ⟨rfl, rfl⟩, ?_, fun hlife => ?_⟩
  · have hlength : 2 = 1 := hperm.length_eq
    omega
  · rw [hhanded]
    refine List.pairwise_pair.mpr fun _ _ hend => ?_
    have hrank : rank started.event.event_type = 0 := rfl
    omega
  · rw [hrows] at hlife
    have hrank : rank EventType.usage_observed ≤ rank EventType.request_started :=
      List.pairwise_pair.mp hlife rfl rfl
    simp [rank] at hrank

end Norns.UsageIntelligence.Delivery
