import Mathlib.Data.List.Basic
import Mathlib.Logic.Relation
import Norns.Runner.Daemon

/-! # What a callback does

Every callback, up to its end or its crash, is a sequence of `Move`s: single writes, single changes of
the process. A move says when it happens, so that an invariant of the runner is proved once for each
move and not along the methods.

* `Sound`: what the process knows of its commands, kept by every move (`Sound.move`);
* `Does`: the rules by which a method is a sequence of moves. -/

namespace Norns.Runner

open Relation Norns.Lib Norns.Lib.Edit Norns.Contracts.Protocol

/-! ### Acknowledgements -/

/-- The states acknowledged for a command, in order. -/
def acksOf (commandId : String) (events : List EventEnvelope) : List CommandState :=
  events.filterMap fun e =>
    (e.payload.ack?.filter fun a => decide (a.1 = commandId)).map Prod.snd

variable {id : String} {events events' : List EventEnvelope} {e : EventEnvelope}

@[simp] theorem acksOf_nil : acksOf id [] = [] := rfl

@[simp] theorem acksOf_append : acksOf id (events ++ events') = acksOf id events ++ acksOf id events' :=
  List.filterMap_append

theorem acksOf_singleton_none (h : e.payload.ack? = none) : acksOf id [e] = [] := by
  simp [acksOf, h]

theorem acksOf_singleton {id' : String} {state : CommandState}
    (h : e.payload.ack? = some (id', state)) :
    acksOf id [e] = if id' = id then [state] else [] := by
  by_cases hid : id' = id <;> simp [acksOf, h, hid, Option.filter]

theorem acksOf_mono (h : events <+: events') : acksOf id events <+: acksOf id events' :=
  h.filterMap _

theorem mem_acksOf {state : CommandState} :
    state ∈ acksOf id events ↔ ∃ e ∈ events, e.payload.ack? = some (id, state) := by
  simp only [acksOf, List.mem_filterMap, Option.map_eq_some_iff, Option.filter_eq_some_iff,
    decide_eq_true_eq, Prod.exists, exists_eq_right]

@[simp] theorem ack?_safePayload (opts : DaemonOptions) (payload : EventPayload) :
    (opts.safePayload payload).ack? = payload.ack? := by
  unfold DaemonOptions.safePayload
  split <;> rfl

/-! ### Moves -/

/-- The settlement refuses a control. -/
def Settlement.refuses : Settlement → Prop
  | .control _ kind _ _ (.fixture _ _) => kind = .send_message
  | .control _ _ _ _ (.live _ succeeded _) => succeeded = false
  | .control _ _ _ _ .inactive => True
  | _ => False

/-- When an event that acknowledges a command before its end is buffered: `s₀` is the state the
callback found. -/
def Announces (s₀ s : RunnerDaemon) (payload : EventPayload) : Prop :=
  ∀ id state, payload.ack? = some (id, state) →
    s.file.executionState id = some .executing ∧
      (state = .accepted ∧ acksOf id s.created = [] ∨
        state = .executing ∧
          (.accepted ∈ acksOf id s.created ∨ s₀.file.executionState id = some .executing))

/-- Why a command that was recorded as executing ends in a state. -/
inductive Ends (s₀ : RunnerDaemon) (op : Op) (s : RunnerDaemon) (id : String) :
    CommandState → Prop
  /-- It was refused as soon as it was accepted. -/
  | refused : .executing ∉ acksOf id s.created → Ends s₀ op s id .rejected
  /-- The control was refused. -/
  | declined (settlement : Settlement) : op = .settled settlement →
      settlement.promise ∈ s₀.pending → settlement.refuses →
      settlement.promise.commandId = id → acksOf id s.created = acksOf id s₀.created →
      Ends s₀ op s id .rejected
  /-- It was executed. -/
  | ran (state : CommandState) : state.isTerminal = true → state ≠ .rejected → state ≠ .expired →
      .executing ∈ acksOf id s.created ∨ s.fenced = true → Ends s₀ op s id state
  /-- Its process is gone. -/
  | reaped : s₀.file.executionState id = some .executing → id ∉ s₀.inFlightCommands →
      Ends s₀ op s id .failed

theorem Ends.isTerminal {s₀ s : RunnerDaemon} {op : Op} {id : String} {state : CommandState}
    (h : Ends s₀ op s id state) : state.isTerminal = true := by
  rcases h with _ | _ | ⟨_, ht, _⟩ | _
  · rfl
  · rfl
  · exact ht
  · rfl

/-- The commands that come with a callback. -/
def Op.commands : Op → List CommandEnvelope
  | .command c => [c]
  | .reconcile_response response => response.resend_commands
  | _ => []

/-- The callback tells the runner that another identity is current. -/
def Op.fences (r : RunnerDaemon) : Op → Prop
  | .fenced => True
  | .reconcile_response response => response.generation ≠ r.file.generation ∨
    ∃ c ∈ response.resend_commands,
      c.runner_id ≠ r.file.runner_id ∨ c.generation ≠ r.file.generation
  | .command c => c.runner_id ≠ r.file.runner_id ∨ c.generation ≠ r.file.generation
  | _ => False

theorem Op.fences_of_command {r : RunnerDaemon} {op : Op} {c : CommandEnvelope}
    (hc : c ∈ op.commands) (h : c.runner_id ≠ r.file.runner_id ∨ c.generation ≠ r.file.generation) :
    op.fences r := by
  cases op with
  | command command => rw [List.mem_singleton.mp hc] at h; exact h
  | reconcile_response response => exact .inr ⟨c, hc, h⟩
  | _ => cases hc

/-- The acknowledgement that comes with a callback. -/
def Op.ack? : Op → Option ℕ
  | .reconcile_response response => some response.ack_event_seq
  | .event_ack n => some n
  | _ => none

/-- **One move** of the callback `op` that began in `s₀`. -/
inductive Move (s₀ : RunnerDaemon) (op : Op) : RunnerDaemon → RunnerDaemon → Prop
  | quiet {s} (crashIn : Option ℕ) (executionPaused reconciled : Bool) :
      Move s₀ op s { s with crashIn, executionPaused, reconciled }
  | allocateSeq {s} : s.fenced = false → s.allocated = false → Move s₀ op s s.allocateSeq
  | addEvent {s} (payload : EventPayload) (info : Meta) : s.fenced = false → s.allocated = true →
      Announces s₀ s payload → Move s₀ op s (s.addEvent (s.envelope s.file.seq payload info))
  | addTerminalAck {s} (id : String) (state : CommandState) (info : Meta) (detail : String) :
      s.fenced = false → s.allocated = false → state.isTerminal = true →
      s.file.executionState id = some state → s.file.bufferedTerminalAck id = none →
      s.file.terminal_acks.get? id = none → Move s₀ op s (s.addTerminalAck id state info detail)
  | entomb {s} (id : String) (e : EventEnvelope) : s.file.bufferedTerminalAck id = some e →
      Move s₀ op s (s.entomb id e.event_seq)
  | begin {s} (c : CommandEnvelope) : c ∈ op.commands →
      s.file.executionState c.command_id = none → Move s₀ op s (s.record c.command_id .executing)
  | refuse {s} (c : CommandEnvelope) (state : CommandState) : c ∈ op.commands →
      s.file.executionState c.command_id = none → state = .expired ∨ state = .rejected →
      Move s₀ op s (s.record c.command_id state)
  | finish {s} (id : String) (state : CommandState) : s.file.executionState id = some .executing →
      (∀ p ∈ s.pending, p.commandId ≠ id) → Ends s₀ op s id state → Move s₀ op s (s.record id state)
  | enter {s} (id : String) :
      Move s₀ op s { s with inFlightCommands := s.inFlightCommands ++ [id] }
  | leave {s} (id : String) : (∀ p ∈ s.pending, p.commandId ≠ id) →
      Move s₀ op s { s with inFlightCommands := s.inFlightCommands.filter (· ≠ id) }
  | start {s} (id : String) (promise : Option Pending) :
      s.file.executionState id = some .executing → id ∉ s.started → id ∈ s.inFlightCommands →
      (∀ p ∈ promise, p.commandId = id ∧
        ((∃ kind run_id info, p = .control id kind run_id info) ∨
          .executing ∈ acksOf id s.created ∨ s.fenced = true)) →
      Move s₀ op s { s with
        started := s.started ++ [id], pending := s.pending ++ promise.toList }
  | take {s} (p : Pending) : Move s₀ op s { s with pending := s.pending.erase p }
  | acknowledge {s} (n m : ℕ) : op.ack? = some n → m = n ∨ m = max s.serverAckSeq n →
      Move s₀ op s { s with serverAckSeq := m, acked := max s.acked n }
  | prune {s} : Move s₀ op s (s.prune s.serverAckSeq)
  | rewind {s} : Move s₀ op s { s with highestEventSeqSent := s.serverAckSeq }
  | advance {s} :
      Move s₀ op s { s with highestEventSeqSent := max s.highestEventSeqSent s.serverAckSeq }
  | send {s} : Move s₀ op s s.sendBufferedEvents
  | fence {s} : op.fences s₀ → Move s₀ op s { s with fenced := true, executionPaused := true, connected := false }
  | connect {s} : op = .connect → Move s₀ op s { s with connected := true, outbox := [] }
  | disconnect {s} : op = .disconnect →
      Move s₀ op s { s with connected := false, highestEventSeqSent := s.serverAckSeq, outbox := [] }
  | authenticate {s} : op = .authenticateDeviceExecution →
      Move s₀ op s { s with
        connected := true, serverAckSeq := 0, highestEventSeqSent := 0, outbox := [] }

abbrev Moves (s₀ : RunnerDaemon) (op : Op) : RunnerDaemon → Prop := ReflTransGen (Move s₀ op) s₀

/-- What the process knows of its commands. -/
structure Sound (s : RunnerDaemon) : Prop where
  unseen : ∀ id, s.file.executionState id = none → acksOf id s.created = [] ∧ id ∉ s.started
  executing : ∀ id state, s.file.executionState id = some state → state.isTerminal = false →
    state = .executing
  single : (s.pending.map Pending.commandId).Nodup
  live : ∀ p ∈ s.pending, s.file.executionState p.commandId = some .executing ∧
    p.commandId ∈ s.inFlightCommands ∧ p.commandId ∈ s.started
  promised : ∀ p ∈ s.pending, (∃ kind run_id info, p = .control p.commandId kind run_id info) ∨
    .executing ∈ acksOf p.commandId s.created ∨ s.fenced = true

theorem foldl_sendEvent (events : List EventEnvelope) (r : RunnerDaemon) :
    events.foldl RunnerDaemon.sendEvent r = { r with
      outbox := r.outbox ++ events
      highestEventSeqSent := (events.getLast?.map (·.event_seq)).getD r.highestEventSeqSent } := by
  induction events generalizing r with
  | nil => simp
  | cons e events ih =>
    rw [List.foldl_cons, ih]
    rcases events with _ | ⟨e', events⟩
    · simp [RunnerDaemon.sendEvent]
    · simp [RunnerDaemon.sendEvent, List.getLast?_cons]

/-- Sending changes what was sent, and nothing else. -/
theorem sendBufferedEvents_eq (r : RunnerDaemon) : ∃ outbox highestEventSeqSent,
    r.sendBufferedEvents = { r with outbox, highestEventSeqSent } := by
  unfold RunnerDaemon.sendBufferedEvents
  split_ifs
  · exact ⟨_, _, foldl_sendEvent _ r⟩
  · exact ⟨_, _, rfl⟩

theorem tombstone_addTerminalAck (r : RunnerDaemon) (id : String) (state : CommandState)
    (info : Meta) (detail : String) (id' : String) :
    (r.addTerminalAck id state info detail).file.terminal_acks.get? id' =
      if id = id' then some (r.file.seq + 1) else r.file.terminal_acks.get? id' :=
  OrdMap.get?_set _ _ _ _

theorem tombstone_entomb (r : RunnerDaemon) (id : String) (event_seq : ℕ) (id' : String) :
    (r.entomb id event_seq).file.terminal_acks.get? id' =
      if id = id' then some event_seq else r.file.terminal_acks.get? id' :=
  OrdMap.get?_set _ _ _ _

theorem executionState_record (r : RunnerDaemon) (id : String) (state : CommandState)
    (id' : String) : (r.record id state).file.executionState id' =
      if id = id' then some state else r.file.executionState id' :=
  OrdMap.get?_set _ _ _ _

section Sound

variable {s₀ s s' : RunnerDaemon} {op : Op}

theorem Sound.congr (h : Sound s) (he : s'.file.executed = s.file.executed)
    (hp : s'.pending = s.pending) (hs : s'.started = s.started)
    (hi : ∀ id ∈ s.inFlightCommands, id ∈ s'.inFlightCommands)
    (hf : s.fenced = true → s'.fenced = true) (hc : s'.created = s.created) : Sound s' := by
  have hx : ∀ id, s'.file.executionState id = s.file.executionState id := by
    intro id; unfold RunnerFile.executionState; rw [he]
  refine ⟨fun id hid => ?_, fun id state hid => ?_, ?_, fun p hmem => ?_, fun p hmem => ?_⟩
  · rw [hc, hs]; exact h.unseen id (by rw [← hx]; exact hid)
  · exact h.executing id state (by rw [← hx]; exact hid)
  · rw [hp]; exact h.single
  · rw [hp] at hmem
    obtain ⟨h1, h2, h3⟩ := h.live p hmem
    exact ⟨(hx _).trans h1, hi _ h2, hs ▸ h3⟩
  · rw [hp] at hmem
    rw [hc]
    exact (h.promised p hmem).imp_right (Or.imp_right hf)

/-- An event of a command that the runner has seen is added. -/
theorem Sound.event (h : Sound s) {e : EventEnvelope}
    (hack : ∀ id state, e.payload.ack? = some (id, state) → s.file.executionState id ≠ none)
    (he : s'.file.executed = s.file.executed) (hp : s'.pending = s.pending)
    (hs : s'.started = s.started) (hi : s'.inFlightCommands = s.inFlightCommands)
    (hf : s'.fenced = s.fenced) (hc : s'.created = s.created ++ [e]) : Sound s' := by
  have hx : ∀ id, s'.file.executionState id = s.file.executionState id := by
    intro id; unfold RunnerFile.executionState; rw [he]
  refine ⟨fun id hid => ?_, fun id state hid => ?_, ?_, fun p hmem => ?_, fun p hmem => ?_⟩
  · rw [hx] at hid
    obtain ⟨h1, h2⟩ := h.unseen id hid
    refine ⟨?_, hs ▸ h2⟩
    rw [hc, acksOf_append, h1, List.nil_append]
    rcases ha : e.payload.ack? with _ | ⟨id', state⟩
    · exact acksOf_singleton_none ha
    · rw [acksOf_singleton ha, if_neg]
      rintro rfl
      exact hack _ _ ha hid
  · exact h.executing id state (by rw [← hx]; exact hid)
  · rw [hp]; exact h.single
  · rw [hp] at hmem
    obtain ⟨h1, h2, h3⟩ := h.live p hmem
    exact ⟨(hx _).trans h1, hi ▸ h2, hs ▸ h3⟩
  · rw [hp] at hmem
    refine (h.promised p hmem).imp_right (Or.imp ?_ ?_)
    · rw [hc, acksOf_append]; exact List.mem_append_left _
    · rw [hf]; exact id

/-- A state is recorded for a command without a promise. -/
theorem Sound.record (h : Sound s) {state : CommandState}
    (hst : state = .executing ∨ state.isTerminal = true)
    (hp : ∀ p ∈ s.pending, p.commandId ≠ id) : Sound (s.record id state) := by
  have hx := executionState_record s id state
  refine ⟨fun id' hid => ?_, fun id' state' hid hnt => ?_, h.single, fun p hmem => ?_, h.promised⟩
  · rw [hx] at hid
    split_ifs at hid
    exact h.unseen id' hid
  · rw [hx] at hid
    split_ifs at hid
    · cases hid
      exact hst.resolve_right (by simp [hnt])
    · exact h.executing id' state' hid hnt
  · rw [hx, if_neg (hp p hmem).symm]
    exact h.live p hmem

theorem Sound.move (h : Sound s) (hm : Move s₀ op s s') : Sound s' := by
  cases hm with
  | quiet => exact h.congr rfl rfl rfl (fun _ => id) id rfl
  | allocateSeq => exact h.congr rfl rfl rfl (fun _ => id) id rfl
  | addEvent payload info _ _ hann =>
    refine h.event (fun id state ha => ?_) rfl rfl rfl rfl rfl rfl
    rw [(hann id state ha).1]
    exact Option.some_ne_none _
  | addTerminalAck id state info detail _ _ _ hex =>
    refine h.event (fun id' state' ha => ?_) rfl rfl rfl rfl rfl rfl
    cases ha
    rw [hex]
    exact Option.some_ne_none _
  | entomb => exact h.congr rfl rfl rfl (fun _ => id) id rfl
  | begin c _ hn =>
    refine h.record (.inl rfl) fun p hp he => ?_
    rw [← he, (h.live p hp).1] at hn; cases hn
  | refuse c state _ hn hst =>
    refine h.record ?_ fun p hp he => ?_
    · rcases hst with rfl | rfl <;> exact .inr rfl
    · rw [← he, (h.live p hp).1] at hn; cases hn
  | finish id state _ hp hends =>
    exact h.record (.inr hends.isTerminal) hp
  | enter id => exact h.congr rfl rfl rfl (fun _ => List.mem_append_left _) (fun hf => hf) rfl
  | leave id hp =>
    refine { h with live := fun p hmem => ?_ }
    obtain ⟨h1, h2, h3⟩ := h.live p hmem
    exact ⟨h1, List.mem_filter.mpr ⟨h2, by simpa using hp p hmem⟩, h3⟩
  | start id promise hex hs hin hp =>
    have hfresh : ∀ p ∈ s.pending, p.commandId ≠ id :=
      fun p hmem he => hs (he ▸ (h.live p hmem).2.2)
    refine ⟨fun id' hid => ?_, h.executing, ?_, fun p hmem => ?_, fun p hmem => ?_⟩
    · obtain ⟨h1, h2⟩ := h.unseen id' hid
      refine ⟨h1, ?_⟩
      intro hmem
      rcases List.mem_append.mp hmem with hmem | hmem
      · exact h2 hmem
      · rw [List.mem_singleton.mp hmem] at hid
        have hid : s.file.executionState id = none := hid
        rw [hex] at hid; cases hid
    · show ((s.pending ++ promise.toList).map Pending.commandId).Nodup
      rcases promise with _ | p
      · simpa using h.single
      · rw [List.map_append]
        refine List.Nodup.append h.single (by simp) ?_
        intro x hx hx'
        obtain ⟨q, hq, rfl⟩ := List.mem_map.mp hx
        simp only [Option.toList_some, List.map_cons, List.map_nil, List.mem_singleton] at hx'
        exact hfresh q hq (hx'.trans (hp p rfl).1)
    · rcases List.mem_append.mp hmem with hmem | hmem
      · obtain ⟨h1, h2, h3⟩ := h.live p hmem
        exact ⟨h1, h2, List.mem_append_left _ h3⟩
      · have hid := (hp p (Option.mem_toList.mp hmem)).1
        rw [hid]
        exact ⟨hex, hin, List.mem_append_right _ (List.mem_singleton_self _)⟩
    · rcases List.mem_append.mp hmem with hmem | hmem
      · exact h.promised p hmem
      · obtain ⟨rfl, hp'⟩ := hp p (Option.mem_toList.mp hmem)
        exact hp'
  | take p =>
    have hsub := List.erase_sublist (a := p) (l := s.pending)
    exact ⟨h.unseen, h.executing, h.single.sublist (hsub.map _),
      fun q hq => h.live q (hsub.subset hq), fun q hq => h.promised q (hsub.subset hq)⟩
  | acknowledge => exact h.congr rfl rfl rfl (fun _ => id) id rfl
  | prune => exact h.congr rfl rfl rfl (fun _ => id) id rfl
  | rewind => exact h.congr rfl rfl rfl (fun _ => id) id rfl
  | advance => exact h.congr rfl rfl rfl (fun _ => id) id rfl
  | send =>
    obtain ⟨outbox, highest, he⟩ := sendBufferedEvents_eq s
    rw [he]
    exact h.congr rfl rfl rfl (fun _ => id) id rfl
  | fence => exact h.congr rfl rfl rfl (fun _ => id) (fun _ => rfl) rfl
  | connect => exact h.congr rfl rfl rfl (fun _ => id) id rfl
  | disconnect => exact h.congr rfl rfl rfl (fun _ => id) id rfl
  | authenticate => exact h.congr rfl rfl rfl (fun _ => id) id rfl

/-- A callback keeps the identity of the runner. -/
theorem Moves.identity (hr : Moves s₀ op s) :
    s.file.runner_id = s₀.file.runner_id ∧ s.file.generation = s₀.file.generation := by
  induction hr with
  | refl => exact ⟨rfl, rfl⟩
  | tail _ hm ih =>
    cases hm with
    | send =>
      obtain ⟨outbox, highest, he⟩ := sendBufferedEvents_eq _
      rw [he]; exact ih
    | _ => exact ih

/-- What was created stays. -/
theorem Moves.created (hr : Moves s₀ op s) : s₀.created <+: s.created := by
  induction hr with
  | refl => exact List.prefix_refl _
  | tail _ hm ih =>
    refine ih.trans ?_
    cases hm with
    | addEvent => exact List.prefix_append _ _
    | addTerminalAck => exact List.prefix_append _ _
    | send =>
      obtain ⟨outbox, highest, he⟩ := sendBufferedEvents_eq _
      exact ⟨[], by rw [he, List.append_nil]⟩
    | _ => exact List.prefix_refl _

/-- A callback without another identity does not fence. -/
theorem Moves.unfenced (hr : Moves s₀ op s) (hop : ¬ op.fences s₀) (h : s₀.fenced = false) :
    s.fenced = false := by
  induction hr with
  | refl => exact h
  | tail _ hm ih =>
    cases hm with
    | fence hf => exact absurd hf hop
    | send =>
      obtain ⟨outbox, highest, he⟩ := sendBufferedEvents_eq _
      rw [he]; exact ih
    | _ => exact ih

/-- A callback records the commands it knew and those it was given. -/
theorem Moves.known (hr : Moves s₀ op s) (id : String) (h : s.file.executionState id ≠ none) :
    s₀.file.executionState id ≠ none ∨ ∃ c ∈ op.commands, c.command_id = id := by
  induction hr with
  | refl => exact .inl h
  | @tail s s' _ hm ih =>
    have old : ∀ {id' state}, (s.record id' state).file.executionState id ≠ none → id' ≠ id →
        s.file.executionState id ≠ none := by
      intro id' state h hne
      rwa [executionState_record, if_neg hne] at h
    cases hm with
    | begin c hc =>
      by_cases he : c.command_id = id
      · exact .inr ⟨c, hc, he⟩
      · exact ih (old h he)
    | refuse c state hc =>
      by_cases he : c.command_id = id
      · exact .inr ⟨c, hc, he⟩
      · exact ih (old h he)
    | finish id' state hx =>
      by_cases he : id' = id
      · exact ih (by rw [← he, hx]; exact Option.some_ne_none _)
      · exact ih (old h he)
    | send =>
      obtain ⟨outbox, highest, he⟩ := sendBufferedEvents_eq s
      rw [he] at h; exact ih h
    | _ => exact ih h

theorem Sound.moves (h : Sound s₀) (hr : Moves s₀ op s) : Sound s := by
  induction hr with
  | refl => exact h
  | tail _ hm ih => exact ih.move hm

end Sound

/-! ### Rules -/

section Rules

variable {s₀ s : RunnerDaemon} {op : Op} {α β : Type}

/-- `m` makes moves, and `Q` holds at its end. -/
def Does (s₀ : RunnerDaemon) (op : Op) (m : Run α) (s : RunnerDaemon)
    (Q : α → RunnerDaemon → Prop) : Prop :=
  Sat m s (fun a s' => Moves s₀ op s' ∧ Q a s') fun _ s' => Moves s₀ op s'

variable {m : Run α} {Q Q' : α → RunnerDaemon → Prop}

theorem Does.bind {f : α → Run β} {Q' : β → RunnerDaemon → Prop} (h : Does s₀ op m s Q)
    (hf : ∀ a s', Moves s₀ op s' → Q a s' → Does s₀ op (f a) s' Q') :
    Does s₀ op (m >>= f) s Q' :=
  Sat.bind h fun a s' ha => hf a s' ha.1 ha.2

theorem Does.mono (h : Does s₀ op m s Q) (hok : ∀ a s', Q a s' → Q' a s') :
    Does s₀ op m s Q' :=
  Sat.mono h (fun a s' ha => ⟨ha.1, hok a s' ha.2⟩) fun _ _ he => he

theorem does_pure {a : α} (hr : Moves s₀ op s) (h : Q a s) : Does s₀ op (pure a) s Q := ⟨hr, h⟩

theorem does_get_bind {f : RunnerDaemon → Run α} (h : Does s₀ op (f s) s Q) :
    Does s₀ op (get >>= f) s Q := by
  unfold Does
  rw [sat_bind]
  exact h

theorem does_modify {f : RunnerDaemon → RunnerDaemon} {Q : PUnit → RunnerDaemon → Prop}
    (hr : Moves s₀ op s) (hm : Move s₀ op s (f s)) (h : Q ⟨⟩ (f s)) :
    Does s₀ op (modify f) s Q := ⟨hr.tail hm, h⟩

/-- A write happens, or the crash comes first. -/
theorem does_write {f : RunnerDaemon → RunnerDaemon} {Q : Unit → RunnerDaemon → Prop}
    (hr : Moves s₀ op s)
    (hm : ∀ crashIn, Move s₀ op { s with crashIn } (f { s with crashIn }))
    (h : ∀ crashIn, Q () (f { s with crashIn })) : Does s₀ op (write f) s Q := by
  have hend : ∀ crashIn, Does s₀ op (modify f) { s with crashIn } Q := by
    intro crashIn
    exact does_modify (hr.tail (.quiet crashIn s.executionPaused s.reconciled)) (hm crashIn)
      (h crashIn)
  unfold Does write tick
  simp only [sat_bind, sat_get]
  rcases hc : s.crashIn with _ | ⟨_ | n⟩
  · have := hend none
    rw [← hc] at this
    exact this
  · exact hr
  · exact hend (some n)

end Rules

end Norns.Runner
