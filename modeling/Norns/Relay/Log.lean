import Mathlib.Data.List.Basic
import Norns.Relay.Replay

/-! # The server's log of a runner

The runner numbers its events in the order in which it creates them, and the server takes the
successor of its watermark only. So whatever arrives, in whatever order and however often, the log is
an initial part of what was created.

* `Numbered`: the created events are numbered upwards, kept by every move;
* `LogOf`: the log is an initial part, kept by every ingestion (`LogOf.ingest`). -/

namespace Norns.Relay.Log

open Norns.Lib Norns.Contracts.Protocol Norns.Server.Stores Norns.Runner Norns.Relay.Replay

/-- The created events are numbered upwards, and carry the runner's identity. -/
structure Numbered (s : RunnerDaemon) : Prop where
  increasing : (s.created.map (·.event_seq)).Pairwise (· < ·)
  bounded : ∀ e ∈ s.created, 0 < e.event_seq ∧ e.event_seq ≤ lastBuffered s
  allocated : s.allocated = true → 0 < s.file.seq
  runner_id : ∀ e ∈ s.created, e.runner_id = s.file.runner_id

section Move

variable {s₀ s s' : RunnerDaemon} {op : Op}

theorem Numbered.congr (h : Numbered s) (hc : s'.created = s.created)
    (hseq : s'.file.seq = s.file.seq) (hid : s'.file.runner_id = s.file.runner_id)
    (ha : s'.allocated = s.allocated) : Numbered s' := by
  have hlast : lastBuffered s' = lastBuffered s := by unfold lastBuffered; rw [hseq, ha]
  refine ⟨hc ▸ h.increasing, ?_, ?_, ?_⟩
  · rw [hc, hlast]; exact h.bounded
  · rw [ha, hseq]; exact h.allocated
  · rw [hc, hid]; exact h.runner_id

theorem Numbered.append (h : Numbered s) {e : EventEnvelope} (he : lastBuffered s < e.event_seq)
    (hid : e.runner_id = s.file.runner_id) (hc : s'.created = s.created ++ [e])
    (hseq : s'.file.seq = e.event_seq) (hid' : s'.file.runner_id = s.file.runner_id)
    (ha : s'.allocated = false) : Numbered s' := by
  have hlast : lastBuffered s' = e.event_seq := by unfold lastBuffered; rw [ha, hseq]; rfl
  refine ⟨?_, ?_, ?_, ?_⟩
  · rw [hc, List.map_append, List.pairwise_append]
    refine ⟨h.increasing, List.pairwise_singleton _ _, fun x hx y hy => ?_⟩
    obtain ⟨e', he', rfl⟩ := List.mem_map.mp hx
    have := (h.bounded e' he').2
    have hy : y = e.event_seq := by simpa using hy
    omega
  · rw [hc, hlast]
    intro e' he'
    rcases List.mem_append.mp he' with he' | he'
    · have := h.bounded e' he'; omega
    · rw [List.mem_singleton.mp he']; omega
  · intro h; rw [ha] at h; cases h
  · rw [hc, hid']
    intro e' he'
    rcases List.mem_append.mp he' with he' | he'
    · exact h.runner_id e' he'
    · rw [List.mem_singleton.mp he']; exact hid

/-- **One move.** -/
theorem Numbered.move (h : Numbered s) (hm : Move s₀ op s s') : Numbered s' := by
  cases hm with
  | allocateSeq _ ha =>
    have hlast : lastBuffered s.allocateSeq = lastBuffered s := by
      simp [lastBuffered, RunnerDaemon.allocateSeq, ha]
    refine ⟨h.increasing, ?_, fun _ => Nat.succ_pos _, h.runner_id⟩
    rw [hlast]; exact h.bounded
  | addEvent payload info _ ha =>
    have hpos := h.allocated ha
    refine h.append (e := s.envelope s.file.seq payload info) ?_ rfl rfl rfl rfl rfl
    show lastBuffered s < s.file.seq
    unfold lastBuffered; rw [ha, if_pos rfl]; omega
  | addTerminalAck id state info detail _ ha =>
    refine h.append (e := s.envelope (s.file.seq + 1) (.command_ack id state detail) info) ?_ rfl rfl
      rfl rfl ha
    show lastBuffered s < s.file.seq + 1
    unfold lastBuffered; rw [ha, if_neg (by decide)]; omega
  | send =>
    obtain ⟨outbox, highest, he⟩ := sendBufferedEvents_eq s
    rw [he]
    exact h.congr rfl rfl rfl rfl
  | _ => exact h.congr rfl rfl rfl rfl

theorem Numbered.moves (h : Numbered s₀) (hr : Moves s₀ op s) : Numbered s := by
  induction hr with
  | refl => exact h
  | tail _ hm ih => exact ih.move hm

/-- A crash only loses the number it interrupts. -/
theorem Numbered.restart (h : Numbered s) : Numbered (restart s) := by
  refine ⟨h.increasing, fun e he => ?_, (fun ha => by cases ha), h.runner_id⟩
  obtain ⟨hpos, hle⟩ := h.bounded e he
  refine ⟨hpos, hle.trans ?_⟩
  show lastBuffered s ≤ s.file.seq
  unfold lastBuffered; omega

end Move

theorem Numbered.step (opts : DaemonOptions) {r : RunnerDaemon} (hh : Healthy r) (h : Numbered r)
    (a : Action) : Numbered (step opts r a) := by
  have h₀ : Numbered (r.begin a) := h.congr rfl rfl rfl rfl
  rcases step_cases opts hh a with ⟨s', hm, -, he, -⟩ | ⟨s', hm, he, -⟩
  · rw [he]; exact h₀.moves hm
  · rw [he]; exact (h₀.moves hm).restart

theorem numbered_paired (runner_id : String) (generation : ℕ) :
    Numbered (paired runner_id generation) := by
  refine ⟨List.Pairwise.nil, ?_, ?_, ?_⟩
  · intro e he; cases he
  · intro h; cases h
  · intro e he; cases he

/-! ### The log -/

/-- The server's log of a runner id is an initial part of the created events, and the watermark its
length. -/
structure LogOf (runner_id : String) (stores : RelayStores) (created : List EventEnvelope) :
    Prop where
  initial : stores.eventsFor runner_id <+: created
  seqs : (stores.eventsFor runner_id).map (·.event_seq) =
    List.range' 1 (stores.eventWatermark runner_id)

variable {runner_id : String} {stores : RelayStores} {created created' : List EventEnvelope}

theorem LogOf.mono (h : LogOf runner_id stores created) (hc : created <+: created') :
    LogOf runner_id stores created' := ⟨h.initial.trans hc, h.seqs⟩

theorem LogOf.congr {stores' : RelayStores} (h : LogOf runner_id stores created)
    (he : stores'.eventsFor runner_id = stores.eventsFor runner_id)
    (hw : stores'.eventWatermark runner_id = stores.eventWatermark runner_id) :
    LogOf runner_id stores' created := ⟨he ▸ h.initial, by rw [he, hw]; exact h.seqs⟩

/-- The event that follows the watermark is the one created next. -/
theorem LogOf.next (h : LogOf runner_id stores created)
    (hinc : (created.map (·.event_seq)).Pairwise (· < ·)) (hpos : ∀ e ∈ created, 0 < e.event_seq)
    {e : EventEnvelope} (he : e ∈ created)
    (hseq : e.event_seq = stores.eventWatermark runner_id + 1) :
    stores.eventsFor runner_id ++ [e] <+: created := by
  obtain ⟨rest, hrest⟩ := h.initial
  have hlog : ∀ e' ∈ stores.eventsFor runner_id,
      e'.event_seq ≤ stores.eventWatermark runner_id := by
    intro e' he'
    have hm := List.mem_map_of_mem (f := fun e : EventEnvelope => e.event_seq) he'
    rw [h.seqs, List.mem_range'_1] at hm
    omega
  rw [← hrest] at he hinc hpos ⊢
  have hin : e ∈ rest := by
    refine (List.mem_append.mp he).resolve_left fun hm => ?_
    have := hlog e hm
    omega
  rcases rest with _ | ⟨e₁, rest⟩
  · cases hin
  rw [List.map_append, List.map_cons, List.pairwise_append, List.pairwise_cons] at hinc
  obtain ⟨-, ⟨hlater, -⟩, hcross⟩ := hinc
  rcases List.mem_cons.mp hin with rfl | hin
  · exact ⟨rest, by simp⟩
  · -- a later event would leave room for the first one
    exfalso
    have hlt := hlater _ (List.mem_map_of_mem hin)
    have hge : stores.eventWatermark runner_id < e₁.event_seq := by
      rcases Nat.eq_zero_or_pos (stores.eventWatermark runner_id) with hz | hz
      · rw [hz]; exact hpos e₁ (List.mem_append_right _ List.mem_cons_self)
      · have hm : stores.eventWatermark runner_id ∈
            (stores.eventsFor runner_id).map (·.event_seq) := by
          rw [h.seqs, List.mem_range'_1]; omega
        exact hcross _ hm _ List.mem_cons_self
    omega

/-- The log holds every event up to the watermark. -/
theorem LogOf.mem (h : LogOf runner_id stores created)
    (hinc : (created.map (·.event_seq)).Pairwise (· < ·))
    (hpos : ∀ e ∈ created, 0 < e.event_seq) {e : EventEnvelope} (he : e ∈ created)
    (hle : e.event_seq ≤ stores.eventWatermark runner_id) : e ∈ stores.eventsFor runner_id := by
  obtain ⟨rest, hrest⟩ := h.initial
  rw [← hrest] at he hinc
  refine (List.mem_append.mp he).resolve_right fun hin => ?_
  -- the watermark is in the log, before the event
  have hlt := hpos e (hrest ▸ he)
  have hlast : stores.eventWatermark runner_id ∈ (stores.eventsFor runner_id).map (·.event_seq) := by
    rw [h.seqs, List.mem_range'_1]
    omega
  rw [List.map_append, List.pairwise_append] at hinc
  have hcross := hinc.2.2 _ hlast _ (List.mem_map_of_mem hin)
  omega

/-- **One ingestion**: the event is appended, or nothing changes. -/
theorem LogOf.ingest (h : LogOf runner_id stores created)
    (hinc : (created.map (·.event_seq)).Pairwise (· < ·)) (hpos : ∀ e ∈ created, 0 < e.event_seq)
    {e : EventEnvelope} (he : e ∈ created) (hid : e.runner_id = runner_id) :
    LogOf runner_id (stores.ingestEvent e).1 created ∧
      ((stores.ingestEvent e).2 = .accepted ∧
          (stores.ingestEvent e).1.eventsFor runner_id = stores.eventsFor runner_id ++ [e] ∨
        (stores.ingestEvent e).2 ≠ .accepted ∧ (stores.ingestEvent e).1 = stores) := by
  subst hid
  by_cases hnext : stores.Next e
  · obtain ⟨hacc, hw, -, hl⟩ := RelayStores.ingestEvent_accepted hnext
    have hseq := hnext.2
    refine ⟨⟨?_, ?_⟩, .inl ⟨hacc, hl⟩⟩
    · rw [hl]; exact h.next hinc hpos he hseq
    · rw [hl, hw, List.map_append, h.seqs, hseq, List.range'_concat, List.map_singleton, hseq]
      have : 1 + 1 * stores.eventWatermark e.runner_id = stores.eventWatermark e.runner_id + 1 := by
        omega
      rw [this]
  · obtain ⟨hs, hrefused, -⟩ := RelayStores.ingestEvent_refused hnext
    rw [hs]
    exact ⟨h, .inr ⟨hrefused, rfl⟩⟩

theorem logOf_new (runner_id : String) (created : List EventEnvelope) :
    LogOf runner_id RelayStores.new created := ⟨⟨created, rfl⟩, rfl⟩

end Norns.Relay.Log
