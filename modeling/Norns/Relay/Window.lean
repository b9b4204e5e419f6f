import Mathlib.Data.List.Basic
import Norns.Relay.Log

/-! # The send window

What the runner may have in flight: the `sendWindow` sequences after the one the server has
acknowledged. A reconcile response rewinds the sender to the acknowledged sequence, so events are sent
again, but never further ahead.

* `Windowed`: the window and the buffer of a runner that hears no acknowledgement older than the last,
  kept by every move (`Windowed.moves`). -/

namespace Norns.Relay.Window

open Norns.Lib Norns.Contracts.Protocol Norns.Server.Stores Norns.Runner Norns.Relay.Replay
open Norns.Relay.Log

/-- **The sender's invariant.** -/
structure Windowed (s : RunnerDaemon) : Prop where
  gapless : Gapless s
  acked : s.acked = s.serverAckSeq
  window : s.highestEventSeqSent ≤ s.serverAckSeq + sendWindow
  outbox : ∀ e ∈ s.outbox, e ∈ s.created ∧ e.event_seq ≤ s.serverAckSeq + sendWindow
  buffered : ∀ e ∈ s.file.buffer, e ∈ s.created
  kept : ∀ e ∈ s.created, s.acked < e.event_seq → e ∈ s.file.buffer

section Move

variable {s₀ s s' : RunnerDaemon} {op : Op}

/-- What is sent next stays in the window. -/
theorem sendable_le (h : Windowed s) {e : EventEnvelope} (he : e ∈ s.sendable) :
    e ∈ s.file.buffer ∧ e.event_seq ≤ s.serverAckSeq + sendWindow := by
  have hmem : e ∈ s.file.buffer :=
    (List.mem_filter.mp (List.mem_filter.mp (List.take_subset _ _ he)).1).1
  refine ⟨hmem, ?_⟩
  obtain ⟨p, hp, hpa, hb⟩ := h.gapless.contiguous
  have hacked := h.acked
  have hwindow := h.window
  -- the sequences to send follow the sent ones without a gap
  let k := max s.serverAckSeq s.highestEventSeqSent
  have hseqs : s.sendable.map (·.event_seq) = (List.range' (k + 1) (lastBuffered s - k)).take
      (sendWindow - (s.highestEventSeqSent - s.serverAckSeq)) := by
    unfold RunnerDaemon.sendable
    have hfilter : ((s.file.unackedSince s.serverAckSeq).filter
        fun e => decide (s.highestEventSeqSent < e.event_seq)).map (·.event_seq) =
        ((s.file.unackedSince s.serverAckSeq).map (·.event_seq)).filter
          fun x => decide (s.highestEventSeqSent < x) := by
      rw [List.filter_map]; rfl
    rw [List.map_take, hfilter, map_unackedSince, hb, filter_range', filter_range']
    congr 2
    · omega
    · omega
  have hseq : e.event_seq ∈ s.sendable.map (·.event_seq) := List.mem_map_of_mem he
  rw [hseqs] at hseq
  obtain ⟨i, hi, hx⟩ := List.getElem_of_mem hseq
  rw [List.length_take, List.length_range'] at hi
  rw [List.getElem_take, List.getElem_range'] at hx
  omega

theorem Windowed.congr (h : Windowed s) (hg : Gapless s') (hb : s'.file.buffer = s.file.buffer)
    (hc : s'.created = s.created) (hs : s'.serverAckSeq = s.serverAckSeq) (ha : s'.acked = s.acked)
    (hw : s'.highestEventSeqSent ≤ s.serverAckSeq + sendWindow)
    (ho : ∀ e ∈ s'.outbox, e ∈ s.outbox) : Windowed s' := by
  refine ⟨hg, ?_, ?_, fun e he => ?_, ?_, ?_⟩
  · rw [ha, hs]; exact h.acked
  · rw [hs]; exact hw
  · rw [hc, hs]; exact h.outbox e (ho e he)
  · rw [hb, hc]; exact h.buffered
  · rw [ha, hb, hc]; exact h.kept

/-- A new event is created and buffered. -/
theorem Windowed.append (h : Windowed s) (hg : Gapless s') {e : EventEnvelope}
    (hb : s'.file.buffer = s.file.buffer ++ [e]) (hc : s'.created = s.created ++ [e])
    (hs : s'.serverAckSeq = s.serverAckSeq) (ha : s'.acked = s.acked)
    (hw : s'.highestEventSeqSent = s.highestEventSeqSent) (ho : s'.outbox = s.outbox) :
    Windowed s' := by
  refine ⟨hg, ?_, ?_, ?_, ?_, ?_⟩
  · rw [ha, hs]; exact h.acked
  · rw [hw, hs]; exact h.window
  · rw [ho, hc, hs]
    exact fun e' he' => ⟨List.mem_append_left _ (h.outbox e' he').1, (h.outbox e' he').2⟩
  · rw [hb, hc]
    intro e' he'
    rcases List.mem_append.mp he' with he' | he'
    · exact List.mem_append_left _ (h.buffered e' he')
    · exact List.mem_append_right _ he'
  · rw [ha, hb, hc]
    intro e' he' hlt
    rcases List.mem_append.mp he' with he' | he'
    · exact List.mem_append_left _ (h.kept e' he' hlt)
    · exact List.mem_append_right _ he'

/-- Sending fills the window. -/
theorem Windowed.send (h : Windowed s) (hg : Gapless s.sendBufferedEvents) :
    Windowed s.sendBufferedEvents ∧ s.sendBufferedEvents.serverAckSeq = s.serverAckSeq := by
  revert hg
  unfold RunnerDaemon.sendBufferedEvents
  split_ifs
  · rw [foldl_sendEvent]
    intro hg
    refine ⟨⟨hg, h.acked, ?_, ?_, h.buffered, h.kept⟩, rfl⟩
    · show (s.sendable.getLast?.map (·.event_seq)).getD _ ≤ s.serverAckSeq + sendWindow
      rcases hl : s.sendable.getLast? with _ | e
      · exact h.window
      · exact (sendable_le h (List.mem_of_getLast? hl)).2
    · intro e he
      rcases List.mem_append.mp he with he | he
      · exact h.outbox e he
      · obtain ⟨hb, hle⟩ := sendable_le h he
        exact ⟨h.buffered e hb, hle⟩
  · exact fun _ => ⟨h, rfl⟩

/-- **One move**, on a legacy connection; its acknowledgement is not older than the last. -/
theorem Windowed.move (h : Windowed s) (hop : op ≠ .authenticateDeviceExecution)
    (hack : ∀ n, op.ack? = some n → s.serverAckSeq ≤ n) (hm : Move s₀ op s s') :
    Windowed s' ∧ s.serverAckSeq ≤ s'.serverAckSeq ∧
      (∀ n, op.ack? = some n → s'.serverAckSeq ≤ n) ∧
      (op.ack? = none → s'.serverAckSeq = s.serverAckSeq) := by
  have hg := h.gapless.move hm
  -- a move that acknowledges nothing
  have same : s'.serverAckSeq = s.serverAckSeq → Windowed s' →
      Windowed s' ∧ s.serverAckSeq ≤ s'.serverAckSeq ∧
        (∀ n, op.ack? = some n → s'.serverAckSeq ≤ n) ∧
        (op.ack? = none → s'.serverAckSeq = s.serverAckSeq) := by
    intro he hw
    refine ⟨hw, he.ge, ?_, fun _ => he⟩
    rw [he]
    exact hack
  cases hm with
  | addEvent payload info =>
    exact same rfl (h.append (e := s.envelope s.file.seq payload info) hg rfl rfl rfl rfl rfl rfl)
  | addTerminalAck id state info detail =>
    exact same rfl (h.append (e := s.envelope (s.file.seq + 1) (.command_ack id state detail) info)
      hg rfl rfl rfl rfl rfl rfl)
  | acknowledge n m hn hm =>
    have hle := hack n hn
    have hacked := h.acked
    have hwindow := h.window
    have hmn : m = n := by omega
    subst hmn
    refine ⟨⟨hg, ?_, ?_, fun e he => ?_, h.buffered, fun e he hlt => ?_⟩, hle, ?_, ?_⟩
    · show max s.acked m = m; omega
    · show s.highestEventSeqSent ≤ m + sendWindow; omega
    · obtain ⟨hc, hseq⟩ := h.outbox e he
      refine ⟨hc, ?_⟩
      show e.event_seq ≤ m + sendWindow
      omega
    · have hlt : max s.acked m < e.event_seq := hlt
      exact h.kept e he (by omega)
    · intro n' hn'
      rw [hn] at hn'
      cases hn'
      exact le_rfl
    · intro hnone
      rw [hn] at hnone
      cases hnone
  | prune =>
    refine same rfl ⟨hg, h.acked, h.window, h.outbox, fun e he => ?_, fun e he hlt => ?_⟩
    · exact h.buffered e (List.mem_filter.mp he).1
    · have hlt : s.acked < e.event_seq := hlt
      rw [h.acked] at hlt
      exact List.mem_filter.mpr ⟨h.kept e he (h.acked ▸ hlt), decide_eq_true hlt⟩
  | rewind => exact same rfl (h.congr hg rfl rfl rfl rfl (Nat.le_add_right _ _) fun _ he => he)
  | advance =>
    have hwindow := h.window
    refine same rfl (h.congr hg rfl rfl rfl rfl ?_ fun _ he => he)
    show max s.highestEventSeqSent s.serverAckSeq ≤ _
    omega
  | send =>
    obtain ⟨hw, he⟩ := h.send hg
    exact same he hw
  | connect => exact same rfl (h.congr hg rfl rfl rfl rfl h.window fun _ he => by cases he)
  | disconnect =>
    exact same rfl (h.congr hg rfl rfl rfl rfl (Nat.le_add_right _ _) fun _ he => by cases he)
  | authenticate he => exact absurd he hop
  | _ => exact same rfl (h.congr hg rfl rfl rfl rfl h.window fun _ he => he)

theorem Windowed.moves (h : Windowed s₀) (hop : op ≠ .authenticateDeviceExecution)
    (hack : ∀ n, op.ack? = some n → s₀.serverAckSeq ≤ n) (hr : Moves s₀ op s) :
    Windowed s ∧ s₀.serverAckSeq ≤ s.serverAckSeq ∧
      (∀ n, op.ack? = some n → s.serverAckSeq ≤ n) ∧
      (op.ack? = none → s.serverAckSeq = s₀.serverAckSeq) := by
  induction hr with
  | refl => exact ⟨h, le_rfl, hack, fun _ => rfl⟩
  | tail _ hm ih =>
    obtain ⟨hw, hle, hn, hnone⟩ := ih
    obtain ⟨hw', hle', hn', hnone'⟩ := hw.move hop hn hm
    exact ⟨hw', hle.trans hle', hn', fun ho => (hnone' ho).trans (hnone ho)⟩

end Move

theorem windowed_paired (runner_id : String) (generation : ℕ) :
    Windowed (paired runner_id generation) := by
  refine ⟨gapless_paired runner_id generation, rfl, Nat.zero_le _, ?_, ?_, ?_⟩
  · intro e he; cases he
  · intro e he; cases he
  · intro e he; cases he

end Norns.Relay.Window
