import Mathlib.Data.List.Basic
import Norns.Runner.Callbacks
import Norns.Server.Stores

/-! # Replay after a crash

The server accepts the successor of its watermark only, so what a runner still holds must follow the
acknowledged sequence without a gap. `emit` writes the new sequence and the event separately; every
other change of the buffer is one write.

* `Gapless`: the buffer without a gap, kept by every move;
* `replayable_run`: so it is between any two callbacks, if no crash struck between the two writes of
  `emit` and the id of the runner is no name that every object inherits;
* `emit_crash_leaves_gap`, `replay_inherited`: after such a crash it is not, and of such an id nothing is
  accepted. -/

namespace Norns.Relay.Replay

open Norns.Lib Norns.Contracts.Protocol Norns.Server.Stores Norns.Runner
open Norns.Contracts.Reducer (objectPrototypeKeys)

/-- Ingest the events one after the other, as long as they arrive. -/
def replay (stores : RelayStores) : List EventEnvelope → RelayStores × List IngestOutcome
  | [] => (stores, [])
  | event :: events =>
    let (stores, outcome) := stores.ingestEvent event
    let (stores, outcomes) := replay stores events
    (stores, outcome :: outcomes)

/-- What the runner holds brings a server up to its sequence. -/
structure Replayable (r : RunnerDaemon) : Prop where
  contiguous : (r.file.unackedSince r.acked).map (·.event_seq) =
    List.range' (r.acked + 1) (r.file.seq - r.acked)
  replayed : ∀ stores : RelayStores, r.acked ≤ stores.eventWatermark r.file.runner_id →
    stores.eventWatermark r.file.runner_id ≤ r.file.seq →
    let events := r.file.unackedSince (stores.eventWatermark r.file.runner_id)
    (replay stores events).2 = List.replicate events.length .accepted ∧
      (replay stores events).1.eventWatermark r.file.runner_id = r.file.seq

/-! ### Sequences -/

theorem filter_range' (k n : ℕ) : ∀ p, (List.range' (p + 1) n).filter (fun x => decide (k < x)) =
    List.range' (max p k + 1) (n - (k - p)) := by
  induction n with
  | zero => intro p; simp
  | succ n ih =>
    intro p
    rw [List.range'_succ]
    by_cases hk : k < p + 1
    · rw [List.filter_cons_of_pos (by simpa using hk), ih (p + 1)]
      have h1 : max p k = p := by omega
      have h2 : max (p + 1) k = p + 1 := by omega
      have h3 : n + 1 - (k - p) = n - (k - (p + 1)) + 1 := by omega
      rw [h1, h2, h3, List.range'_succ]
    · rw [List.filter_cons_of_neg (by simpa using hk), ih (p + 1)]
      have h1 : max (p + 1) k = max p k := by omega
      have h2 : n + 1 - (k - p) = n - (k - (p + 1)) := by omega
      rw [h1, h2]

theorem map_unackedSince (file : RunnerFile) (k : ℕ) :
    (file.unackedSince k).map (·.event_seq) =
      (file.buffer.map (·.event_seq)).filter fun x => decide (k < x) := by
  unfold RunnerFile.unackedSince
  rw [List.filter_map]
  rfl

/-- Events that follow the watermark are accepted, all of them. -/
theorem replay_accepted (runner_id : String) (events : List EventEnvelope) :
    ∀ (stores : RelayStores), stores.inheritsWatermark runner_id = false →
      (∀ e ∈ events, e.runner_id = runner_id) → events.map (·.event_seq) =
        List.range' (stores.eventWatermark runner_id + 1) events.length →
      (replay stores events).2 = List.replicate events.length .accepted ∧
        (replay stores events).1.eventWatermark runner_id =
          stores.eventWatermark runner_id + events.length := by
  induction events with
  | nil => intro stores _ _ _; exact ⟨rfl, rfl⟩
  | cons e events ih =>
    intro stores hown hid hseq
    rw [List.length_cons, List.range'_succ, List.map_cons, List.cons.injEq] at hseq
    obtain ⟨hseq, hrest⟩ := hseq
    obtain rfl := hid e List.mem_cons_self
    obtain ⟨hacc, hw, hown', -⟩ := RelayStores.ingestEvent_accepted ⟨hown, hseq⟩
    have hw : (stores.ingestEvent e).1.eventWatermark e.runner_id =
        stores.eventWatermark e.runner_id + 1 := hw.trans hseq
    obtain ⟨h1, h2⟩ := ih (stores.ingestEvent e).1 hown' (fun e' he' => hid e' (List.mem_cons_of_mem _ he'))
      (by rw [hw]; exact hrest)
    refine ⟨?_, ?_⟩
    · show (stores.ingestEvent e).2 :: (replay (stores.ingestEvent e).1 events).2 = _
      rw [hacc, h1, List.length_cons, List.replicate_succ]
    · show (replay (stores.ingestEvent e).1 events).1.eventWatermark e.runner_id = _
      rw [h2, hw, List.length_cons]
      omega

/-! ### The invariant -/

/-- The sequence of the last buffered event, if nothing was pruned. -/
def lastBuffered (s : RunnerDaemon) : ℕ := s.file.seq - (if s.allocated then 1 else 0)

/-- **The buffer has no gap**: it goes from some acknowledged sequence to the last one. -/
structure Gapless (s : RunnerDaemon) : Prop where
  contiguous : ∃ p ≤ lastBuffered s, p ≤ s.acked ∧
    s.file.buffer.map (·.event_seq) = List.range' (p + 1) (lastBuffered s - p)
  allocated : s.allocated = true → 0 < s.file.seq
  serverAck : s.serverAckSeq ≤ s.acked
  runner_id : ∀ e ∈ s.file.buffer, e.runner_id = s.file.runner_id

section Move

variable {s₀ s s' : RunnerDaemon} {op : Op}

theorem Gapless.congr (h : Gapless s) (hf : s'.file.buffer = s.file.buffer)
    (hseq : s'.file.seq = s.file.seq) (hid : s'.file.runner_id = s.file.runner_id)
    (ha : s'.allocated = s.allocated) (hack : s.acked ≤ s'.acked)
    (hserver : s'.serverAckSeq ≤ s'.acked) : Gapless s' := by
  have hlast : lastBuffered s' = lastBuffered s := by unfold lastBuffered; rw [hseq, ha]
  obtain ⟨p, hp, hpa, hb⟩ := h.contiguous
  refine ⟨⟨p, hlast ▸ hp, hpa.trans hack, ?_⟩, ?_, hserver, ?_⟩
  · rw [hf, hlast]; exact hb
  · rw [ha, hseq]; exact h.allocated
  · rw [hf, hid]; exact h.runner_id

/-- The next event goes to the end of the buffer. -/
theorem Gapless.append (h : Gapless s) {e : EventEnvelope} (he : e.event_seq = lastBuffered s + 1)
    (hid : e.runner_id = s.file.runner_id) (hb : s'.file.buffer = s.file.buffer ++ [e])
    (hseq : s'.file.seq = lastBuffered s + 1) (hid' : s'.file.runner_id = s.file.runner_id)
    (ha : s'.allocated = false) (hack : s'.acked = s.acked)
    (hserver : s'.serverAckSeq = s.serverAckSeq) : Gapless s' := by
  obtain ⟨p, hp, hpa, hmap⟩ := h.contiguous
  have hlast : lastBuffered s' = lastBuffered s + 1 := by
    unfold lastBuffered; rw [ha, hseq]; rfl
  refine ⟨⟨p, by omega, hack ▸ hpa, ?_⟩, ?_, ?_, ?_⟩
  · have hlen : lastBuffered s' - p = lastBuffered s - p + 1 := by omega
    rw [hb, List.map_append, hmap, hlen, List.range'_concat, List.map_singleton, he]
    have : p + 1 + 1 * (lastBuffered s - p) = lastBuffered s + 1 := by omega
    rw [this]
  · intro h; rw [ha] at h; cases h
  · rw [hack, hserver]; exact h.serverAck
  · rw [hb, hid']
    intro e' he'
    rcases List.mem_append.mp he' with he' | he'
    · exact h.runner_id e' he'
    · rw [List.mem_singleton.mp he']; exact hid

/-- **One move.** -/
theorem Gapless.move (h : Gapless s) (hm : Move s₀ op s s') : Gapless s' := by
  cases hm with
  | quiet => exact h.congr rfl rfl rfl rfl le_rfl h.serverAck
  | allocateSeq _ ha =>
    obtain ⟨p, hp, hpa, hb⟩ := h.contiguous
    have hlast : lastBuffered s.allocateSeq = lastBuffered s := by
      simp [lastBuffered, RunnerDaemon.allocateSeq, ha]
    refine ⟨⟨p, hlast ▸ hp, hpa, ?_⟩, fun _ => Nat.succ_pos _, h.serverAck, h.runner_id⟩
    rw [hlast]; exact hb
  | addEvent payload info _ ha =>
    have hpos := h.allocated ha
    have hlast : s.file.seq = lastBuffered s + 1 := by
      unfold lastBuffered; rw [ha, if_pos rfl]; omega
    exact h.append (e := s.envelope s.file.seq payload info) hlast rfl rfl hlast rfl rfl rfl rfl
  | addTerminalAck id state info detail _ ha =>
    have hlast : s.file.seq = lastBuffered s := by
      unfold lastBuffered; rw [ha]; rfl
    refine h.append (e := s.envelope (s.file.seq + 1) (.command_ack id state detail) info) ?_ rfl rfl
      ?_ rfl ha rfl rfl
    · show s.file.seq + 1 = _; rw [hlast]
    · show s.file.seq + 1 = _; rw [hlast]
  | entomb => exact h.congr rfl rfl rfl rfl le_rfl h.serverAck
  | begin => exact h.congr rfl rfl rfl rfl le_rfl h.serverAck
  | refuse => exact h.congr rfl rfl rfl rfl le_rfl h.serverAck
  | finish => exact h.congr rfl rfl rfl rfl le_rfl h.serverAck
  | enter => exact h.congr rfl rfl rfl rfl le_rfl h.serverAck
  | leave => exact h.congr rfl rfl rfl rfl le_rfl h.serverAck
  | start => exact h.congr rfl rfl rfl rfl le_rfl h.serverAck
  | take => exact h.congr rfl rfl rfl rfl le_rfl h.serverAck
  | acknowledge n m _ hm =>
    refine h.congr rfl rfl rfl rfl (Nat.le_max_left _ _) ?_
    have := h.serverAck
    show m ≤ max s.acked n
    omega
  | prune =>
    obtain ⟨p, hp, hpa, hb⟩ := h.contiguous
    have hserver := h.serverAck
    refine ⟨⟨max p (min s.serverAckSeq (lastBuffered s)), ?_, ?_, ?_⟩, h.allocated, hserver, ?_⟩
    · show max p (min s.serverAckSeq (lastBuffered s)) ≤ lastBuffered s; omega
    · show max p (min s.serverAckSeq (lastBuffered s)) ≤ s.acked; omega
    · show (s.file.unackedSince s.serverAckSeq).map (·.event_seq) = List.range' _ (lastBuffered s - _)
      rw [map_unackedSince, hb, filter_range']
      by_cases hall : s.serverAckSeq ≤ lastBuffered s
      · rw [Nat.min_eq_left hall]
        congr 1
        omega
      · -- everything is pruned
        have h1 : lastBuffered s - p - (s.serverAckSeq - p) = 0 := by omega
        have h2 : lastBuffered s - max p (min s.serverAckSeq (lastBuffered s)) = 0 := by omega
        rw [h1, h2, List.range'_zero, List.range'_zero]
    · exact fun e he => h.runner_id e (List.mem_filter.mp he).1
  | rewind => exact h.congr rfl rfl rfl rfl le_rfl h.serverAck
  | advance => exact h.congr rfl rfl rfl rfl le_rfl h.serverAck
  | send =>
    obtain ⟨outbox, highest, he⟩ := sendBufferedEvents_eq s
    rw [he]
    exact h.congr rfl rfl rfl rfl le_rfl h.serverAck
  | fence => exact h.congr rfl rfl rfl rfl le_rfl h.serverAck
  | connect => exact h.congr rfl rfl rfl rfl le_rfl h.serverAck
  | disconnect => exact h.congr rfl rfl rfl rfl le_rfl h.serverAck
  | authenticate => exact h.congr rfl rfl rfl rfl le_rfl (Nat.zero_le _)

end Move

/-- **The condition** on a callback: a crash does not strike while a sequence is allocated and its
event is not buffered. -/
def CrashesBetweenEvents (opts : DaemonOptions) (r : RunnerDaemon) (a : Action) : Prop :=
  match callback opts r a with
  | .ok _ _ => True
  | .error _ r' => r'.allocated = false

instance (opts : DaemonOptions) (r : RunnerDaemon) (a : Action) :
    Decidable (CrashesBetweenEvents opts r a) := by
  unfold CrashesBetweenEvents
  split <;> infer_instance

theorem Gapless.step (opts : DaemonOptions) {r : RunnerDaemon} (hh : Healthy r) (h : Gapless r)
    {a : Action} (ha : CrashesBetweenEvents opts r a) : Gapless (step opts r a) := by
  have hmoves : ∀ {s'}, Moves (r.begin a) a.op s' → Gapless s' := by
    intro s' hm
    induction hm with
    | refl => exact h.congr rfl rfl rfl rfl le_rfl h.serverAck
    | tail _ hm ih => exact ih.move hm
  rcases step_cases opts hh a with ⟨s', hm, -, he, -⟩ | ⟨s', hm, he, hc⟩
  · rw [he]; exact hmoves hm
  · unfold CrashesBetweenEvents at ha
    rw [hc] at ha
    rw [he]
    exact (hmoves hm).congr rfl rfl rfl (Eq.symm ha) le_rfl (Nat.zero_le _)

theorem gapless_paired (runner_id : String) (generation : ℕ) :
    Gapless (paired runner_id generation) := by
  refine ⟨⟨0, le_rfl, le_rfl, rfl⟩, ?_, le_rfl, ?_⟩
  · intro h; cases h
  · intro e he; cases he

/-- The id of the runner stays. -/
theorem runner_id_step (opts : DaemonOptions) {r : RunnerDaemon} (hh : Healthy r) (a : Action) :
    (step opts r a).file.runner_id = r.file.runner_id := by
  rcases step_cases opts hh a with ⟨s', hm, -, he, -⟩ | ⟨s', hm, he, -⟩
  · rw [he]
    exact hm.identity.1
  · rw [he]
    exact hm.identity.1

theorem Gapless.replayable {r : RunnerDaemon} (h : Gapless r) (ha : r.allocated = false)
    (hown : r.file.runner_id ∉ objectPrototypeKeys) : Replayable r := by
  obtain ⟨p, hp, hpa, hb⟩ := h.contiguous
  have hlast : lastBuffered r = r.file.seq := by unfold lastBuffered; rw [ha]; rfl
  rw [hlast] at hp hb
  have hafter : ∀ k, p ≤ k → (r.file.unackedSince k).map (·.event_seq) =
      List.range' (k + 1) (r.file.seq - k) := by
    intro k hk
    rw [map_unackedSince, hb, filter_range', Nat.max_eq_right hk]
    congr 1
    omega
  refine ⟨hafter _ hpa, fun stores hlo hhi => ?_⟩
  have hseq := hafter _ (hpa.trans hlo)
  have hlen := congrArg List.length hseq
  rw [List.length_map, List.length_range'] at hlen
  obtain ⟨h1, h2⟩ := replay_accepted r.file.runner_id
    (r.file.unackedSince (stores.eventWatermark r.file.runner_id)) stores
    (stores.inheritsWatermark_of_own hown) (fun e he => h.runner_id e (List.mem_filter.mp he).1) (by rw [hlen]; exact hseq)
  refine ⟨h1, ?_⟩
  rw [h2, hlen]
  omega

/-- **Crash consistency**, in every state between two callbacks of a run whose crashes strike between
events: the buffer holds every sequence after the highest acknowledged one, once and in order, and
a server at any watermark from there on accepts the replay to its end, unless the id of the runner is a
name that every object inherits. -/
theorem replayable_run (opts : DaemonOptions) (runner_id : String) (generation : ℕ)
    (hown : runner_id ∉ objectPrototypeKeys) (actions : List Action)
    (hrun : Run.Along (step opts) (CrashesBetweenEvents opts) (paired runner_id generation) actions) :
    Replayable (Run.run (step opts) (paired runner_id generation) actions) := by
  obtain ⟨hh, hg, hid⟩ := Run.run_induct
    (I := fun r => Healthy r ∧ Gapless r ∧ r.file.runner_id = runner_id)
    (fun r a h ha => ⟨h.1.step opts a, h.2.1.step opts h.1 ha, (runner_id_step opts h.1 a).trans h.2.2⟩)
    ⟨healthy_paired runner_id generation, gapless_paired runner_id generation, rfl⟩ hrun
  exact hg.replayable hh.rest.idle (by rw [hid]; exact hown)

/-- **Inherited names.** Where the watermark of the runner is a property of every object, a replay is out of
order for ever. -/
theorem replay_inherited (stores : RelayStores) {runner_id : String}
    (hinherits : stores.inheritsWatermark runner_id = true) : ∀ (events : List EventEnvelope),
    (∀ e ∈ events, e.runner_id = runner_id) →
      replay stores events = (stores, List.replicate events.length .out_of_order)
  | [], _ => rfl
  | e :: events, hid => by
    have hone : stores.ingestEvent e = (stores, .out_of_order) :=
      RelayStores.ingestEvent_inherited (by rw [hid e List.mem_cons_self]; exact hinherits)
    have hrest := replay_inherited stores hinherits events fun e' he' => hid e' (List.mem_cons_of_mem _ he')
    unfold replay
    rw [hone]
    dsimp only
    rw [hrest]
    rfl

/-- A daemon without executors that keeps no secrets. -/
def plainOptions : DaemonOptions := ⟨false, false, id⟩

/-- A heartbeat, crashing at a tick. -/
def heartbeat (crashIn : Option ℕ) : Action := ⟨.emit .heartbeat {}, 0, crashIn⟩

/-- A heartbeat, a crash before the next sequence is written, an acknowledgement, a heartbeat. -/
theorem replayable_run_acknowledged :
    Replayable (Run.run (step plainOptions) (paired "r" 1)
      [heartbeat none, heartbeat (some 0), ⟨.event_ack 1, 0, none⟩, heartbeat none]) :=
  replayable_run _ _ _ (by decide) _ ⟨trivial, rfl, trivial, trivial, trivial⟩

/-- A crash after the sequence is written and before the event is: sequence 1 is lost, and the next
event is refused for good. -/
theorem emit_crash_leaves_gap :
    ¬ ∀ (opts : DaemonOptions) (runner_id : String) (generation : ℕ) (actions : List Action),
      Replayable (Run.run (step opts) (paired runner_id generation) actions) := by
  intro hall
  have h := hall plainOptions "r" 1 [heartbeat (some 1), heartbeat none]
  have h := h.contiguous
  revert h
  decide

end Norns.Relay.Replay
