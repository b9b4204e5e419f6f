import Norns.Lib.Run
import Norns.Runner.Moves

/-! # Callbacks are moves

One lemma for each method of the daemon, from `emit` to `perform`: it is a sequence of moves, and what
the methods around it have to know of its end.

* `AtRest`: the state a callback leaves, apart from a command it is working on;
* `callback_does`, `step_cases`: every callback, with or without a crash. -/

namespace Norns.Runner

open Norns.Lib Norns.Lib.Edit Norns.Contracts.Protocol

variable {s₀ s : RunnerDaemon} {op : Op}

/-! ### The methods -/

/-- What sending and acknowledging leave alone. -/
structure Frame (s s' : RunnerDaemon) : Prop where
  executed : s'.file.executed = s.file.executed
  runner_id : s'.file.runner_id = s.file.runner_id
  generation : s'.file.generation = s.file.generation
  fenced : s'.fenced = s.fenced
  inFlight : s'.inFlightCommands = s.inFlightCommands
  pending : s'.pending = s.pending
  started : s'.started = s.started
  allocated : s'.allocated = s.allocated
  reconciled : s'.reconciled = s.reconciled
  tombs : ∀ id, s.file.terminal_acks.get? id ≠ none → s'.file.terminal_acks.get? id ≠ none
  created : s.created <+: s'.created

theorem Frame.refl (s : RunnerDaemon) : Frame s s :=
  ⟨rfl, rfl, rfl, rfl, rfl, rfl, rfl, rfl, rfl, fun _ h => h, List.prefix_refl _⟩

theorem Frame.trans {s₁ s₂ s₃ : RunnerDaemon} (h : Frame s₁ s₂) (h' : Frame s₂ s₃) :
    Frame s₁ s₃ where
  executed := h'.executed.trans h.executed
  runner_id := h'.runner_id.trans h.runner_id
  generation := h'.generation.trans h.generation
  fenced := h'.fenced.trans h.fenced
  inFlight := h'.inFlight.trans h.inFlight
  pending := h'.pending.trans h.pending
  started := h'.started.trans h.started
  allocated := h'.allocated.trans h.allocated
  reconciled := h'.reconciled.trans h.reconciled
  tombs id ht := h'.tombs id (h.tombs id ht)
  created := h.created.trans h'.created

theorem Frame.executionState {s s' : RunnerDaemon} (h : Frame s s') (id : String) :
    s'.file.executionState id = s.file.executionState id := by
  unfold RunnerFile.executionState; rw [h.executed]

theorem Frame.mem_acks {s s' : RunnerDaemon} (h : Frame s s') {id : String} {state : CommandState}
    (hm : state ∈ acksOf id s.created) : state ∈ acksOf id s'.created :=
  (acksOf_mono h.created).subset hm

theorem frame_send (s : RunnerDaemon) :
    Frame s s.sendBufferedEvents ∧ s.sendBufferedEvents.created = s.created := by
  obtain ⟨outbox, highest, h⟩ := sendBufferedEvents_eq s
  rw [h]
  exact ⟨⟨rfl, rfl, rfl, rfl, rfl, rfl, rfl, rfl, rfl, fun _ h => h, List.prefix_refl _⟩, rfl⟩

variable {payload : EventPayload} {info : Meta} {id : String} {state : CommandState}
variable {detail : String}

theorem nextSeq_does (hr : Moves s₀ op s) (hf : s.fenced = false) (ha : s.allocated = false) :
    Does s₀ op nextSeq s fun seq s' =>
      ∃ crashIn, s' = { s with crashIn }.allocateSeq ∧ seq = s'.file.seq := by
  unfold nextSeq
  refine (does_write (Q := fun _ s' => ∃ crashIn, s' = { s with crashIn }.allocateSeq) hr
    (fun c => .allocateSeq hf ha) fun c => ⟨c, rfl⟩).bind ?_
  rintro - s' hr' ⟨c, rfl⟩
  exact does_get_bind (does_pure hr' ⟨c, rfl, rfl⟩)

/-- An event is buffered, unless the runner is fenced. -/
theorem emit_does (opts : DaemonOptions) (hr : Moves s₀ op s) (ha : s.allocated = false)
    (hp : Announces s₀ s payload) :
    Does s₀ op (emit opts payload info) s fun _ s' => Frame s s' ∧
      (s.fenced = true ∧ s'.created = s.created ∨
        s.fenced = false ∧ ∃ e : EventEnvelope, e.payload.ack? = payload.ack? ∧
          s'.created = s.created ++ [e]) := by
  unfold emit
  refine does_get_bind ?_
  rcases hf : s.fenced with _ | _
  · simp only [Bool.false_eq_true, if_false]
    refine (nextSeq_does hr hf ha).bind ?_
    rintro seq s₁ hr₁ ⟨c, rfl, rfl⟩
    refine does_get_bind ?_
    let event := s.envelope (s.file.seq + 1) (opts.safePayload payload) info
    refine Does.bind (Q := fun _ s' => Frame s s' ∧ s'.created = s.created ++ [event])
      (does_write hr₁ (fun c' => .addEvent _ info hf rfl ?_) fun c' => ⟨?_, rfl⟩) ?_
    · intro id state hack
      rw [ack?_safePayload] at hack
      exact hp id state hack
    · exact ⟨rfl, rfl, rfl, rfl, rfl, rfl, rfl, ha.symm, rfl, fun _ h => h, List.prefix_append _ _⟩
    · rintro - s₂ hr₂ ⟨hfr, hcr⟩
      refine does_modify hr₂ .send ⟨hfr.trans (frame_send s₂).1, .inr ⟨trivial, event, ?_, ?_⟩⟩
      · exact ack?_safePayload opts payload
      · rw [(frame_send s₂).2, hcr]
  · simp only [if_true]
    exact does_pure hr ⟨Frame.refl s, .inl ⟨trivial, rfl⟩⟩

theorem announces_run (event : RunEvent) : Announces s₀ s (.run event) := by
  intro id state h; cases h

/-- Events of runs acknowledge no command. -/
theorem emitAll_does (opts : DaemonOptions) (events : List (RunEvent × Meta)) :
    ∀ {s}, Moves s₀ op s → s.allocated = false →
      Does s₀ op (emitAll opts events) s fun _ s' =>
        Frame s s' ∧ ∀ id, acksOf id s'.created = acksOf id s.created := by
  induction events with
  | nil => intro s hr _; exact does_pure hr ⟨Frame.refl s, fun _ => rfl⟩
  | cons event events ih =>
    intro s hr ha
    refine (emit_does opts hr ha (announces_run event.1)).bind ?_
    rintro - s₁ hr₁ ⟨hfr, hcr⟩
    refine (ih hr₁ (hfr.allocated.trans ha)).mono ?_
    rintro - s₂ ⟨hfr₂, hacks⟩
    refine ⟨hfr.trans hfr₂, fun id => (hacks id).trans ?_⟩
    rcases hcr with ⟨-, hcr⟩ | ⟨-, e, he, hcr⟩
    · rw [hcr]
    · rw [hcr, acksOf_append, acksOf_singleton_none he, List.append_nil]

/-- A terminal acknowledgement is created once, in the recorded state. -/
theorem terminalAck_does (hr : Moves s₀ op s) (ha : s.allocated = false)
    (ht : state.isTerminal = true) (hex : s.file.executionState id = some state) :
    Does s₀ op (terminalAck id state info detail) s fun _ s' =>
      Frame s s' ∧ (s'.fenced = true ∨ s'.file.terminal_acks.get? id ≠ none) := by
  unfold terminalAck
  refine does_get_bind ?_
  rcases hf : s.fenced with _ | _
  · simp only [Bool.false_eq_true, if_false]
    refine Does.bind (Q := fun _ s' => Frame s s' ∧ s'.file.terminal_acks.get? id ≠ none) ?_ ?_
    · unfold ensureTerminalAck
      refine does_get_bind ?_
      rcases hb : s.file.bufferedTerminalAck id with _ | existing <;>
        rcases ht' : s.file.terminal_acks.get? id with _ | n <;> simp only [hb, ht']
      · refine (does_write (Q := fun _ s' => Frame s s' ∧ s'.file.terminal_acks.get? id ≠ none) hr
          (fun c => Move.addTerminalAck (s := { s with crashIn := c }) id state info detail hf ha ht hex
            hb ht') fun c => ?_).bind
          fun _ s' hr' hok => does_pure hr' hok
        refine ⟨⟨rfl, rfl, rfl, rfl, rfl, rfl, rfl, rfl, rfl, fun id' h => ?_, List.prefix_append _ _⟩, ?_⟩
        · rw [tombstone_addTerminalAck]; split_ifs
          · exact Option.some_ne_none _
          · exact h
        · rw [tombstone_addTerminalAck, if_pos rfl]; exact Option.some_ne_none _
      · exact does_pure hr ⟨Frame.refl s, by rw [ht']; exact Option.some_ne_none _⟩
      · refine (does_write (Q := fun _ s' => Frame s s' ∧ s'.file.terminal_acks.get? id ≠ none) hr
          (fun c => Move.entomb (s := { s with crashIn := c }) id existing hb) fun c => ?_).bind fun _ s' hr' hok => does_pure hr' hok
        refine ⟨⟨rfl, rfl, rfl, rfl, rfl, rfl, rfl, rfl, rfl, fun id' h => ?_, List.prefix_refl _⟩, ?_⟩
        · rw [tombstone_entomb]; split_ifs
          · exact Option.some_ne_none _
          · exact h
        · rw [tombstone_entomb, if_pos rfl]; exact Option.some_ne_none _
      · exact does_pure hr ⟨Frame.refl s, by rw [ht']; exact Option.some_ne_none _⟩
    · rintro created s' hr' ⟨hfr, htomb⟩
      rcases created with _ | _
      · exact does_pure hr' ⟨hfr, .inr htomb⟩
      · exact does_modify hr' .send ⟨hfr.trans (frame_send s').1, .inr ((frame_send s').1.tombs id htomb)⟩
  · simp only [if_true]
    exact does_pure hr ⟨Frame.refl s, .inl hf⟩

/-- What recording a state leaves alone. -/
structure Recorded (id : String) (state : CommandState) (s s' : RunnerDaemon) : Prop where
  executed : ∀ id', s'.file.executionState id' =
    if id = id' then some state else s.file.executionState id'
  runner_id : s'.file.runner_id = s.file.runner_id
  generation : s'.file.generation = s.file.generation
  fenced : s'.fenced = s.fenced
  inFlight : s'.inFlightCommands = s.inFlightCommands
  pending : s'.pending = s.pending
  started : s'.started = s.started
  allocated : s'.allocated = s.allocated
  reconciled : s'.reconciled = s.reconciled
  tombs : ∀ id, s.file.terminal_acks.get? id ≠ none → s'.file.terminal_acks.get? id ≠ none
  created : s.created <+: s'.created

theorem recordExecution_does (hr : Moves s₀ op s)
    (hm : ∀ crashIn, Move s₀ op { s with crashIn } ({ s with crashIn }.record id state)) :
    Does s₀ op (recordExecution id state) s fun _ s' =>
      Recorded id state s s' ∧ s'.created = s.created := by
  refine does_write hr hm fun c => ⟨?_, rfl⟩
  refine ⟨fun id' => ?_, rfl, rfl, rfl, rfl, rfl, rfl, rfl, rfl, fun _ h => h, List.prefix_refl _⟩
  exact OrdMap.get?_set _ _ _ _

theorem Recorded.frame {s s₁ s₂ : RunnerDaemon} (h : Recorded id state s s₁) (h' : Frame s₁ s₂) :
    Recorded id state s s₂ where
  executed id' := (h'.executionState id').trans (h.executed id')
  runner_id := h'.runner_id.trans h.runner_id
  generation := h'.generation.trans h.generation
  fenced := h'.fenced.trans h.fenced
  inFlight := h'.inFlight.trans h.inFlight
  pending := h'.pending.trans h.pending
  started := h'.started.trans h.started
  allocated := h'.allocated.trans h.allocated
  reconciled := h'.reconciled.trans h.reconciled
  tombs id ht := h'.tombs id (h.tombs id ht)
  created := h.created.trans h'.created

/-- The last state of a command was recorded, and is acknowledged if anything is. -/
structure Concluded (id : String) (state : CommandState) (s s' : RunnerDaemon) : Prop
    extends Recorded id state s s' where
  acked : s'.fenced = true ∨ s'.file.terminal_acks.get? id ≠ none

theorem conclude_does (opts : DaemonOptions) (hr : Moves s₀ op s) (ha : s.allocated = false)
    (ht : state.isTerminal = true)
    (hm : ∀ crashIn, Move s₀ op { s with crashIn } ({ s with crashIn }.record id state)) :
    Does s₀ op (conclude opts id state info detail) s fun _ s' => Concluded id state s s' := by
  unfold conclude
  refine (recordExecution_does hr hm).bind ?_
  rintro - s₁ hr₁ ⟨hrec, -⟩
  have hex : s₁.file.executionState id = some state := by rw [hrec.executed, if_pos rfl]
  unfold ack
  rw [if_pos ht]
  refine (terminalAck_does hr₁ (hrec.allocated.trans ha) ht hex).mono ?_
  rintro _ s₂ ⟨hfr, hack⟩
  exact ⟨hrec.frame hfr, hack⟩

/-- An acknowledgement on the way. -/
theorem ack_does (opts : DaemonOptions) (hr : Moves s₀ op s) (ha : s.allocated = false)
    (ht : state.isTerminal = false) (hp : Announces s₀ s (.command_ack id state detail)) :
    Does s₀ op (ack opts id state info detail) s fun _ s' => Frame s s' ∧
      (s.fenced = true ∧ s'.created = s.created ∨
        s.fenced = false ∧ ∃ e : EventEnvelope, e.payload.ack? = some (id, state) ∧
          s'.created = s.created ++ [e]) := by
  unfold ack
  rw [if_neg (by simp [ht])]
  exact emit_does opts hr ha hp

/-- `executing` is acknowledged by a command that is accepted, or was found executing. -/
theorem executing_does (opts : DaemonOptions) (hr : Moves s₀ op s) (ha : s.allocated = false)
    (hex : s.file.executionState id = some .executing)
    (hacc : s.fenced = true ∨ .accepted ∈ acksOf id s.created ∨
      s₀.file.executionState id = some .executing) :
    Does s₀ op (ack opts id .executing info detail) s fun _ s' => Frame s s' ∧
      (.executing ∈ acksOf id s'.created ∨ s'.fenced = true) := by
  rcases hf : s.fenced with _ | _
  · refine (ack_does opts hr ha rfl ?_).mono ?_
    · rintro id' state' ⟨⟩
      exact ⟨hex, .inr ⟨rfl, hacc.resolve_left (by simp [hf])⟩⟩
    · rintro - s' ⟨hfr, hcr⟩
      refine ⟨hfr, .inl ?_⟩
      rcases hcr with ⟨hf', -⟩ | ⟨-, e, he, hcr⟩
      · rw [hf] at hf'; cases hf'
      · rw [hcr, acksOf_append, acksOf_singleton he]; simp
  · -- a fenced runner says nothing
    unfold ack emit
    rw [if_neg (by decide)]
    refine does_get_bind ?_
    simp only [hf, if_true]
    exact does_pure hr ⟨Frame.refl s, .inr hf⟩

/-- The executor starts. -/
theorem startExecutor_does (promise : Option Pending) (hr : Moves s₀ op s)
    (hex : s.file.executionState id = some .executing) (hs : id ∉ s.started)
    (hin : id ∈ s.inFlightCommands)
    (hp : ∀ p ∈ promise, p.commandId = id ∧
      ((∃ kind run_id info, p = .control id kind run_id info) ∨
        .executing ∈ acksOf id s.created ∨ s.fenced = true)) :
    Does s₀ op (startExecutor id promise) s fun _ s' => ∃ crashIn, s' = { s with
      crashIn, started := s.started ++ [id], pending := s.pending ++ promise.toList } := by
  unfold startExecutor
  exact does_write hr (fun c => .start id promise hex hs hin hp) fun c => ⟨c, rfl⟩

/-! ### Between callbacks -/

/-- The state a callback leaves at its end; `busy` is the command it is working on. -/
structure AtRest (s₀ : RunnerDaemon) (busy : Option String) (s : RunnerDaemon) : Prop where
  idle : s.allocated = false
  begun : ∀ id, some id ≠ busy → s.file.executionState id = some .executing →
    s₀.file.executionState id = some .executing ∨ .accepted ∈ acksOf id s.created ∨ s.fenced = true
  entered : ∀ id, some id ≠ busy → s.file.executionState id = some .executing →
    id ∉ s.inFlightCommands → s₀.file.executionState id = some .executing ∧ id ∉ s₀.inFlightCommands
  alive : ∀ id, some id ≠ busy → s.file.executionState id = some .executing →
    id ∈ s.inFlightCommands → ∃ p ∈ s.pending, p.commandId = id
  reaped : s.reconciled = true → ∀ id, some id ≠ busy →
    s.file.executionState id = some .executing → id ∈ s.inFlightCommands
  acked : s.reconciled = true → ∀ id, some id ≠ busy → ∀ state,
    s.file.executionState id = some state → state.isTerminal = true →
    s.fenced = true ∨ s.file.terminal_acks.get? id ≠ none

variable {busy : Option String} {s' : RunnerDaemon}

theorem AtRest.but (h : AtRest s₀ none s) : AtRest s₀ busy s where
  idle := h.idle
  begun id _ := h.begun id (by simp)
  entered id _ := h.entered id (by simp)
  alive id _ := h.alive id (by simp)
  reaped hr id _ := h.reaped hr id (by simp)
  acked hr id _ := h.acked hr id (by simp)

theorem AtRest.frame (h : AtRest s₀ busy s) (hf : Frame s s') : AtRest s₀ busy s' := by
  refine ⟨hf.allocated.trans h.idle, ?_, ?_, ?_, ?_, ?_⟩ <;>
    simp only [hf.executionState, hf.fenced, hf.inFlight, hf.pending, hf.reconciled]
  · exact fun id hb hx => (h.begun id hb hx).imp_right (Or.imp_left hf.mem_acks)
  · exact h.entered
  · exact h.alive
  · exact h.reaped
  · exact fun hr id hb state hx ht => (h.acked hr id hb state hx ht).imp_right (hf.tombs id)

theorem AtRest.start (h : AtRest s₀ busy s) (crashIn : Option ℕ) (started : List String)
    (promise : Option Pending) :
    AtRest s₀ busy { s with crashIn, started, pending := s.pending ++ promise.toList } := by
  refine { h with alive := fun id hb hx hi => ?_ }
  obtain ⟨p, hp, hid⟩ := h.alive id hb hx hi
  exact ⟨p, List.mem_append_left _ hp, hid⟩

/-- The command has a promise. -/
theorem AtRest.promised (h : AtRest s₀ (some id) s) (hx : s.file.executionState id = some .executing)
    (hi : id ∈ s.inFlightCommands) (hp : ∃ p ∈ s.pending, p.commandId = id)
    (hacc : .accepted ∈ acksOf id s.created ∨ s.fenced = true) : AtRest s₀ none s := by
  have other : ∀ {id'}, id' ≠ id → some id' ≠ some id := fun hne h => hne (Option.some.inj h)
  refine ⟨h.idle, fun id' _ hx' => ?_, fun id' _ hx' hi' => ?_, fun id' _ hx' hi' => ?_,
    fun hr id' _ hx' => ?_, fun hr id' _ state hx' ht => ?_⟩ <;> by_cases he : id' = id
  · exact he ▸ .inr hacc
  · exact h.begun id' (other he) hx'
  · exact absurd hi (he ▸ hi')
  · exact h.entered id' (other he) hx' hi'
  · exact he ▸ hp
  · exact h.alive id' (other he) hx' hi'
  · exact he ▸ hi
  · exact h.reaped hr id' (other he) hx'
  · rw [he, hx] at hx'; cases hx'; cases ht
  · exact h.acked hr id' (other he) state hx' ht

/-- The command has ended. -/
theorem AtRest.ended (h : AtRest s₀ (some id) s) (hrec : Concluded id state s s')
    (ht : state.isTerminal = true) : AtRest s₀ none s' := by
  have other : ∀ id', s'.file.executionState id' = some .executing →
      some id' ≠ some id ∧ s.file.executionState id' = some .executing := by
    intro id' hx
    rw [hrec.executed] at hx
    split_ifs at hx with he
    · cases hx; cases ht
    · exact ⟨fun h => he (Option.some.inj h).symm, hx⟩
  refine ⟨hrec.allocated.trans h.idle, fun id' _ hx => ?_, fun id' _ hx hi => ?_,
    fun id' _ hx hi => ?_, fun hr id' _ hx => ?_, fun hr id' _ state' hx ht' => ?_⟩
  · obtain ⟨hb, hx⟩ := other id' hx
    rw [hrec.fenced]
    exact (h.begun id' hb hx).imp_right (Or.imp_left fun hm => (acksOf_mono hrec.created).subset hm)
  · obtain ⟨hb, hx⟩ := other id' hx
    rw [hrec.inFlight] at hi
    exact h.entered id' hb hx hi
  · obtain ⟨hb, hx⟩ := other id' hx
    rw [hrec.inFlight] at hi
    rw [hrec.pending]
    exact h.alive id' hb hx hi
  · obtain ⟨hb, hx⟩ := other id' hx
    rw [hrec.reconciled] at hr
    rw [hrec.inFlight]
    exact h.reaped hr id' hb hx
  · rw [hrec.executed] at hx
    split_ifs at hx with he
    · exact he ▸ hrec.acked
    · rw [hrec.reconciled] at hr
      rw [hrec.fenced]
      refine (h.acked hr id' (fun h => he (Option.some.inj h).symm) state' hx ht').imp_right ?_
      exact hrec.tombs id'

/-! ### Commands -/

/-- A command whose executor is not started yet. -/
structure Waiting (id : String) (s : RunnerDaemon) : Prop where
  executing : s.file.executionState id = some .executing
  unstarted : id ∉ s.started
  inFlight : id ∈ s.inFlightCommands
  unpromised : ∀ p ∈ s.pending, p.commandId ≠ id

theorem Waiting.frame (h : Waiting id s) (hf : Frame s s') : Waiting id s' where
  executing := (hf.executionState id).trans h.executing
  unstarted := hf.started ▸ h.unstarted
  inFlight := hf.inFlight ▸ h.inFlight
  unpromised := hf.pending ▸ h.unpromised

/-- What the payload switch finds of its command. -/
structure Accepted (id : String) (s : RunnerDaemon) : Prop extends Waiting id s where
  acks : acksOf id s.created = [.accepted] ∨ s.fenced = true ∧ acksOf id s.created = []

theorem Accepted.announced (h : Accepted id s) :
    s.fenced = true ∨ .accepted ∈ acksOf id s.created := by
  rcases h.acks with ha | ⟨hf, -⟩
  · exact .inr (by rw [ha]; exact List.mem_singleton_self _)
  · exact .inl hf

/-- A refusal. -/
theorem refused_does (opts : DaemonOptions) (hr : Moves s₀ op s) (h : Accepted id s)
    (hrest : AtRest s₀ (some id) s) :
    Does s₀ op (conclude opts id .rejected info detail) s fun _ s' => AtRest s₀ none s' := by
  have hne : .executing ∉ acksOf id s.created := by
    rcases h.acks with ha | ⟨-, ha⟩ <;> simp [ha]
  exact (conclude_does opts hr hrest.idle rfl fun _ =>
    .finish id _ h.executing h.unpromised (.refused hne)).mono
    fun _ _ hrec => hrest.ended hrec rfl

/-- The command is announced as executing. -/
theorem Accepted.executing_does (opts : DaemonOptions) (hr : Moves s₀ op s) (h : Accepted id s)
    (hrest : AtRest s₀ (some id) s) :
    Does s₀ op (ack opts id .executing info detail) s fun _ s' =>
      Frame s s' ∧ (.executing ∈ acksOf id s'.created ∨ s'.fenced = true) :=
  Runner.executing_does opts hr hrest.idle h.executing
    (h.announced.imp_right .inl)

/-- An executor starts and leaves a promise. -/
theorem promise_does {p : Pending} (hr : Moves s₀ op s) (h : Waiting id s)
    (hrest : AtRest s₀ (some id) s) (hid : p.commandId = id)
    (hp : (∃ kind run_id info, p = .control id kind run_id info) ∨
      .executing ∈ acksOf id s.created ∨ s.fenced = true)
    (hacc : s.fenced = true ∨ .accepted ∈ acksOf id s.created) :
    Does s₀ op (startExecutor id (some p)) s fun _ s' => AtRest s₀ none s' := by
  refine (startExecutor_does (some p) hr h.executing h.unstarted h.inFlight ?_).mono ?_
  · rintro q ⟨⟩
    exact ⟨hid, hp⟩
  · rintro - s' ⟨c, rfl⟩
    refine (hrest.start c _ (some p)).promised h.executing h.inFlight ⟨p, ?_, hid⟩ hacc.symm
    exact List.mem_append_right _ (by simp)

theorem execute_does (opts : DaemonOptions) (payload : CommandPayload) (hr : Moves s₀ op s)
    (h : Accepted id s) (hrest : AtRest s₀ (some id) s) :
    Does s₀ op (execute opts id info payload) s fun _ s' => AtRest s₀ none s' := by
  -- the paths that announce `executing` and leave a promise
  have promise : ∀ p : Pending, p.commandId = id → Does s₀ op (do
      ack opts id .executing info ""
      startExecutor id (some p)) s fun _ s' => AtRest s₀ none s' := by
    intro p hid
    refine (h.executing_does opts hr hrest).bind ?_
    rintro - s₁ hr₁ ⟨hfr, hann⟩
    refine promise_does hr₁ (h.toWaiting.frame hfr) (hrest.frame hfr) hid (.inr hann) ?_
    rw [hfr.fenced]
    exact h.announced.imp_right hfr.mem_acks
  cases payload with
  | launch_fixture fixture =>
    refine (h.executing_does opts hr hrest).bind ?_
    rintro - s₁ hr₁ ⟨hfr, hann⟩
    have h₁ := h.toWaiting.frame hfr
    refine (startExecutor_does none hr₁ h₁.executing h₁.unstarted h₁.inFlight
      (by simp)).bind ?_
    rintro - s₂ hr₂ ⟨c, rfl⟩
    have hrest₁ := hrest.frame hfr
    refine (emitAll_does opts _ hr₂ hrest₁.idle).bind ?_
    rintro - s₃ hr₃ ⟨hfr₃, -⟩
    have hpend : s₃.pending = s₁.pending := hfr₃.pending.trans (List.append_nil _)
    have hrest₂ : AtRest s₀ (some id) s₃ := (hrest₁.start c _ none).frame hfr₃
    refine (conclude_does opts hr₃ hrest₂.idle rfl fun c' => ?_).mono
      fun _ _ hrec => hrest₂.ended hrec rfl
    refine .finish id _ ((hfr₃.executionState id).trans h₁.executing) ?_ ?_
    · intro p hp
      have hp : p ∈ s₃.pending := hp
      rw [hpend] at hp
      exact h₁.unpromised p hp
    · refine .ran _ rfl (by decide) (by decide) (hann.imp hfr₃.mem_acks fun hf => ?_)
      exact hfr₃.fenced.trans hf
  | launch_run run_id dispatch =>
    simp only [execute]
    split
    · exact promise _ rfl
    · exact refused_does opts hr h hrest
  | collect_visual_evidence run_id =>
    simp only [execute]
    split_ifs
    · exact promise _ rfl
    · exact refused_does opts hr h hrest
  | control kind run_id message =>
    exact promise_does hr h.toWaiting hrest rfl (.inl ⟨kind, run_id, info, rfl⟩) h.announced
  | run_verification node_id commit_sha => exact refused_does opts hr h hrest

/-- A command ends before it begins. -/
theorem refuse_does (opts : DaemonOptions) {c : CommandEnvelope} (hc : c ∈ op.commands)
    (hr : Moves s₀ op s) (hrest : AtRest s₀ none s)
    (hn : s.file.executionState c.command_id = none) (hst : state = .expired ∨ state = .rejected) :
    Does s₀ op (conclude opts c.command_id state info detail) s fun _ s' => AtRest s₀ none s' := by
  have ht : state.isTerminal = true := by rcases hst with rfl | rfl <;> rfl
  exact (conclude_does opts hr hrest.idle ht fun _ => .refuse c state hc hn hst).mono
    fun _ _ hrec => hrest.but.ended hrec ht

/-- A change of the process that happens unless `c`. -/
theorem does_unless {c : RunnerDaemon → Prop} [DecidablePred c]
    {f : RunnerDaemon → RunnerDaemon} (hr : Moves s₀ op s) (hm : Move s₀ op s (f s))
    (hrest : AtRest s₀ none s) (hf : AtRest s₀ none (f s)) :
    Does s₀ op (modify fun r => if c r then r else f r) s fun _ s' => AtRest s₀ none s' := by
  by_cases h : c s
  · refine does_modify hr ?_ ?_
    · simp only [if_pos h]; exact .quiet s.crashIn s.executionPaused s.reconciled
    · simp only [if_pos h]; exact hrest
  · refine does_modify hr ?_ ?_
    · simp only [if_neg h]; exact hm
    · simp only [if_neg h]; exact hf

theorem fenceInstallation_does (hop : op.fences s₀) (hr : Moves s₀ op s)
    (hrest : AtRest s₀ none s) :
    Does s₀ op fenceInstallation s fun _ s' => AtRest s₀ none s' :=
  does_unless (c := fun r => r.fenced = true) hr (.fence hop) hrest
    { hrest with
      begun := fun _ _ _ => .inr (.inr rfl)
      acked := fun _ _ _ _ _ _ => .inl rfl }

theorem handleCommand_does (opts : DaemonOptions) {command : CommandEnvelope}
    (hc : command ∈ op.commands) (h₀ : Sound s₀) (hr : Moves s₀ op s) (hrest : AtRest s₀ none s) :
    Does s₀ op (handleCommand opts command) s fun _ s' => AtRest s₀ none s' := by
  have hs := h₀.moves hr
  unfold handleCommand
  refine does_get_bind ?_
  by_cases hid : command.runner_id ≠ s.file.runner_id ∨ command.generation ≠ s.file.generation
  · simp only [if_pos hid]
    refine fenceInstallation_does (Op.fences_of_command hc ?_) hr hrest
    rw [← hr.identity.1, ← hr.identity.2]
    exact hid
  simp only [if_neg hid]
  rcases hx : s.file.executionState command.command_id with _ | recorded
  · by_cases hexp : isCommandExpired command s.now = true
    · simp only [if_pos hexp]
      exact refuse_does opts hc hr hrest hx (.inl rfl)
    by_cases hpause : s.executionPaused = true ∧ dispatchesWork command.payload = true
    · simp only [if_neg hexp, if_pos hpause]
      exact refuse_does opts hc hr hrest hx (.inr rfl)
    simp only [if_neg hexp, if_neg hpause]
    obtain ⟨hacks, hstarted⟩ := hs.unseen _ hx
    have hpend : ∀ p ∈ s.pending, p.commandId ≠ command.command_id := by
      intro p hp he
      rw [← he, (hs.live p hp).1] at hx; cases hx
    refine (recordExecution_does hr fun _ => .begin command hc hx).bind ?_
    rintro - s₁ hr₁ ⟨hrec, hcr⟩
    have hx₁ : s₁.file.executionState command.command_id = some .executing := by
      rw [hrec.executed, if_pos rfl]
    have hrest₁ : AtRest s₀ (some command.command_id) s₁ := by
      have other : ∀ id', some id' ≠ some command.command_id →
          s₁.file.executionState id' = s.file.executionState id' := by
        intro id' hb
        rw [hrec.executed, if_neg fun he => hb (by rw [he])]
      refine ⟨hrec.allocated.trans hrest.idle, fun id' hb h => ?_, fun id' hb h hi => ?_,
        fun id' hb h hi => ?_, fun hrc id' hb h => ?_, fun hrc id' hb state h ht => ?_⟩
      · rw [hrec.fenced, hcr]; exact hrest.begun id' (by simp) ((other id' hb).symm.trans h)
      · exact hrest.entered id' (by simp) ((other id' hb).symm.trans h) (hrec.inFlight ▸ hi)
      · rw [hrec.pending]
        exact hrest.alive id' (by simp) ((other id' hb).symm.trans h) (hrec.inFlight ▸ hi)
      · rw [hrec.inFlight]
        exact hrest.reaped (hrec.reconciled ▸ hrc) id' (by simp) ((other id' hb).symm.trans h)
      · rw [hrec.fenced]
        refine (hrest.acked (hrec.reconciled ▸ hrc) id' (by simp) state
          ((other id' hb).symm.trans h) ht).imp_right (hrec.tombs id')
    refine Does.bind (Q := fun _ s₂ => s₂ = { s₁ with
      inFlightCommands := s₁.inFlightCommands ++ [command.command_id] })
      (does_modify hr₁ (.enter _) rfl) ?_
    rintro - s₂ hr₂ rfl
    have hrest₂ : AtRest s₀ (some command.command_id) { s₁ with
        inFlightCommands := s₁.inFlightCommands ++ [command.command_id] } := by
      refine { hrest₁ with
        entered := fun id' hb h hi => ?_
        alive := fun id' hb h hi => ?_
        reaped := fun hrc id' hb h => List.mem_append_left _ (hrest₁.reaped hrc id' hb h) }
      · exact hrest₁.entered id' hb h fun hm => hi (List.mem_append_left _ hm)
      · rcases List.mem_append.mp hi with hi | hi
        · exact hrest₁.alive id' hb h hi
        · exact absurd (congrArg some (List.mem_singleton.mp hi)) hb
    refine (ack_does opts hr₂ hrest₂.idle rfl ?_).bind ?_
    · rintro id state ⟨⟩
      exact ⟨hx₁, .inl ⟨rfl, by rw [hcr]; exact hacks⟩⟩
    rintro - s₃ hr₃ ⟨hfr, hcr₃⟩
    refine execute_does opts _ hr₃ ⟨⟨?_, ?_, ?_, ?_⟩, ?_⟩ (hrest₂.frame hfr)
    · exact (hfr.executionState _).trans hx₁
    · rw [hfr.started]; exact hrec.started ▸ hstarted
    · rw [hfr.inFlight]; exact List.mem_append_right _ (List.mem_singleton_self _)
    · rw [hfr.pending]; exact hrec.pending ▸ hpend
    · rcases hcr₃ with ⟨hf, hcr₃⟩ | ⟨-, e, he, hcr₃⟩
      · refine .inr ⟨hfr.fenced.trans hf, ?_⟩
        rw [hcr₃, hcr]; exact hacks
      · left
        rw [hcr₃, hcr, acksOf_append, hacks, acksOf_singleton he, if_pos rfl, List.nil_append]
  · by_cases ht : recorded.isTerminal = true
    · simp only [if_pos ht]
      exact (terminalAck_does hr hrest.idle ht hx).mono fun _ _ hfr => hrest.frame hfr.1
    · simp only [if_neg ht]
      obtain rfl := hs.executing _ _ hx (by simpa using ht)
      refine (executing_does opts hr hrest.idle hx ?_).mono fun _ _ hfr => hrest.frame hfr.1
      rcases hrest.begun _ (by simp) hx with h | h | h
      · exact .inr (.inr h)
      · exact .inr (.inl h)
      · exact .inl h

theorem handleCommands_does (opts : DaemonOptions) (h₀ : Sound s₀)
    (commands : List CommandEnvelope) : ∀ {s}, (∀ c ∈ commands, c ∈ op.commands) →
      Moves s₀ op s → AtRest s₀ none s →
      Does s₀ op (handleCommands opts commands) s fun _ s' => AtRest s₀ none s' := by
  induction commands with
  | nil => intro s _ hr hrest; exact does_pure hr hrest
  | cons command commands ih =>
    intro s hc hr hrest
    refine (handleCommand_does opts (hc command List.mem_cons_self) h₀ hr hrest).bind ?_
    exact fun _ _ hr₁ hrest₁ => ih (fun c hm => hc c (List.mem_cons_of_mem _ hm)) hr₁ hrest₁

/-! ### Settlements -/

theorem settle_does (opts : DaemonOptions) {runId : String} {visible : Bool} (hr : Moves s₀ op s)
    (hrest : AtRest s₀ (some id) s) (hx : s.file.executionState id = some .executing)
    (hx₀ : s₀.file.executionState id = some .executing) (hp : ∀ p ∈ s.pending, p.commandId ≠ id)
    (ht : state.isTerminal = true) (hexp : state ≠ .expired)
    (hends : state = .rejected → ∀ s', acksOf id s'.created = acksOf id s.created →
      Ends s₀ op s' id .rejected) :
    Does s₀ op (settle opts id runId info state detail visible) s fun _ s' =>
      AtRest s₀ none s' := by
  unfold settle
  refine (emitAll_does opts _ hr hrest.idle).bind ?_
  rintro - s₁ hr₁ ⟨hfr, hacks⟩
  have hrest₁ := hrest.frame hfr
  have hx₁ := (hfr.executionState id).trans hx
  have hp₁ : ∀ p ∈ s₁.pending, p.commandId ≠ id := hfr.pending ▸ hp
  by_cases hrej : state = .rejected
  · subst hrej
    rw [if_pos rfl]
    exact (conclude_does opts hr₁ hrest₁.idle rfl fun _ =>
      .finish id _ hx₁ hp₁ (hends rfl _ (hacks id))).mono fun _ _ hrec => hrest₁.ended hrec rfl
  · rw [if_neg hrej]
    refine (executing_does opts hr₁ hrest₁.idle hx₁ (.inr (.inr hx₀))).bind ?_
    rintro - s₂ hr₂ ⟨hfr₂, hann⟩
    have hrest₂ := hrest₁.frame hfr₂
    refine (conclude_does opts hr₂ hrest₂.idle ht fun _ => ?_).mono
      fun _ _ hrec => hrest₂.ended hrec ht
    exact .finish id _ ((hfr₂.executionState id).trans hx₁) (fun p hm => hp₁ p (hfr₂.pending ▸ hm))
      (.ran _ ht hrej hexp hann)

theorem routeControl_does (opts : DaemonOptions) {kind : LiveControlKind} {runId : String}
    {answer : ControlAnswer} (hop : op = .settled (.control id kind runId info answer))
    (hmem : Pending.control id kind runId info ∈ s₀.pending) (hr : Moves s₀ op s) (hrest : AtRest s₀ (some id) s)
    (hx : s.file.executionState id = some .executing)
    (hx₀ : s₀.file.executionState id = some .executing) (hp : ∀ p ∈ s.pending, p.commandId ≠ id)
    (hacks : acksOf id s.created = acksOf id s₀.created) :
    Does s₀ op (routeControl opts id kind runId info answer) s fun _ s' => AtRest s₀ none s' := by
  have declined : ∀ {s' : RunnerDaemon}, (Settlement.control id kind runId info answer).refuses →
      acksOf id s'.created = acksOf id s.created → Ends s₀ op s' id .rejected :=
    fun href h => .declined _ hop hmem href rfl (h.trans hacks)
  cases answer with
  | live applied succeeded detail =>
    rcases succeeded with _ | _
    · exact settle_does opts hr hrest hx hx₀ hp rfl (by decide) fun _ _ => declined rfl
    · exact settle_does opts hr hrest hx hx₀ hp rfl (by decide) fun h => by cases h
  | inactive =>
    exact settle_does opts hr hrest hx hx₀ hp rfl (by decide) fun _ _ => declined trivial
  | fixture status launchInfo =>
    simp only [routeControl]
    split_ifs with hkind
    · exact settle_does opts hr hrest hx hx₀ hp rfl (by decide) fun _ _ => declined hkind
    · refine (emitAll_does opts _ hr hrest.idle).bind ?_
      rintro - s₁ hr₁ ⟨hfr, -⟩
      exact settle_does opts hr₁ (hrest.frame hfr) ((hfr.executionState id).trans hx) hx₀
        (fun p hm => hp p (hfr.pending ▸ hm)) rfl (by decide) fun h => by cases h
  | thrown message =>
    exact settle_does opts hr hrest hx hx₀ hp rfl (by decide) fun h => by cases h

theorem outcome_state (outcome : RunOutcome) : outcome.state.isTerminal = true ∧
    outcome.state ≠ .rejected ∧ outcome.state ≠ .expired := by
  cases outcome <;> decide

theorem settlePromise_does (opts : DaemonOptions) {settlement : Settlement}
    (hop : op = .settled settlement) (h₀ : Sound s₀) (hmem : settlement.promise ∈ s₀.pending)
    (hr : Moves s₀ op s) (hrest : AtRest s₀ (some settlement.promise.commandId) s)
    (hx : s.file.executionState settlement.promise.commandId = some .executing)
    (hp : ∀ p ∈ s.pending, p.commandId ≠ settlement.promise.commandId)
    (hfen : s.fenced = s₀.fenced) (hcr : s.created = s₀.created) :
    Does s₀ op (settlePromise opts settlement) s fun _ s' => AtRest s₀ none s' := by
  have hx₀ := (h₀.live _ hmem).1
  have hann : (∃ kind run_id info, settlement.promise =
      .control settlement.promise.commandId kind run_id info) ∨
      .executing ∈ acksOf settlement.promise.commandId s.created ∨ s.fenced = true := by
    rw [hcr, hfen]; exact h₀.promised _ hmem
  cases settlement with
  | launch id runId info result =>
    have hann := hann.resolve_left (by rintro ⟨_, _, _, h⟩; cases h)
    refine Does.bind (Q := fun _ s₁ => s₁ = { s with
      inFlightCommands := s.inFlightCommands.filter (· ≠ id) })
      (does_modify hr (.leave id hp) rfl) ?_
    rintro - s₁ hr₁ rfl
    have hrest₁ : AtRest s₀ (some id) { s with
        inFlightCommands := s.inFlightCommands.filter (· ≠ id) } := by
      have stays : ∀ {id'}, some id' ≠ some id → id' ∈ s.inFlightCommands →
          id' ∈ s.inFlightCommands.filter (· ≠ id) := by
        intro id' hb hi
        exact List.mem_filter.mpr ⟨hi, by simpa using fun he : id' = id => hb (congrArg some he)⟩
      exact { hrest with
        entered := fun id' hb h hi => hrest.entered id' hb h fun hm => hi (stays hb hm)
        alive := fun id' hb h hi => hrest.alive id' hb h (List.mem_filter.mp hi).1
        reaped := fun hrc id' hb h => stays hb (hrest.reaped hrc id' hb h) }
    rcases result with message | outcome
    · refine (emit_does opts hr₁ hrest₁.idle (announces_run _)).bind ?_
      rintro - s₂ hr₂ ⟨hfr, -⟩
      have hrest₂ := hrest₁.frame hfr
      refine (conclude_does opts hr₂ hrest₂.idle rfl fun _ => ?_).mono
        fun _ _ hrec => hrest₂.ended hrec rfl
      refine .finish id _ ((hfr.executionState id).trans hx) (fun p hm => hp p (hfr.pending ▸ hm)) ?_
      exact .ran _ rfl (by decide) (by decide) (hann.imp hfr.mem_acks hfr.fenced.trans)
    · obtain ⟨ht, hrej, hexp⟩ := outcome_state outcome
      refine (conclude_does opts hr₁ hrest₁.idle ht fun _ => ?_).mono
        fun _ _ hrec => hrest₁.ended hrec ht
      exact .finish id _ hx hp (.ran _ ht hrej hexp hann)
  | collect id info result =>
    have hann := hann.resolve_left (by rintro ⟨_, _, _, h⟩; cases h)
    rcases result with message | outcome
    · exact (conclude_does opts hr hrest.idle rfl fun _ =>
        .finish id _ hx hp (.ran _ rfl (by decide) (by decide) hann)).mono
          fun _ _ hrec => hrest.ended hrec rfl
    · exact (conclude_does opts hr hrest.idle rfl fun _ =>
        .finish id _ hx hp (.ran _ rfl (by decide) (by decide) hann)).mono
          fun _ _ hrec => hrest.ended hrec rfl
  | control id kind runId info answer =>
    exact routeControl_does opts hop hmem hr hrest hx hx₀ hp (by rw [hcr])

/-! ### Frames from the server -/

theorem pruneAcked_does (hr : Moves s₀ op s) {ackSeq : ℕ} (hn : ackSeq = s.serverAckSeq) :
    Does s₀ op (pruneAcked ackSeq) s fun _ s' =>
      Frame s s' ∧ s'.created = s.created ∧ s'.serverAckSeq = s.serverAckSeq := by
  subst hn
  unfold pruneAcked
  refine does_get_bind ?_
  dsimp only
  split_ifs
  · refine does_write hr (fun _ => .prune) fun _ => ⟨?_, rfl, rfl⟩
    exact ⟨rfl, rfl, rfl, rfl, rfl, rfl, rfl, rfl, rfl, fun _ h => h, List.prefix_refl _⟩
  · exact does_pure hr ⟨Frame.refl s, rfl, rfl⟩

theorem recoverTerminalAcks_does (recorded : List (String × CommandState)) : ∀ {s},
    Moves s₀ op s → s.allocated = false →
    (∀ e ∈ recorded, e.2.isTerminal = true ∧ s.file.executionState e.1 = some e.2) →
    Does s₀ op (recoverTerminalAcks recorded) s fun _ s' => Frame s s' ∧
      ∀ e ∈ recorded, s'.fenced = true ∨ s'.file.terminal_acks.get? e.1 ≠ none := by
  induction recorded with
  | nil => intro s hr _ _; exact does_pure hr ⟨Frame.refl s, fun e he => by cases he⟩
  | cons e recorded ih =>
    intro s hr ha hrec
    obtain ⟨ht, hx⟩ := hrec e List.mem_cons_self
    refine (terminalAck_does hr ha ht hx).bind ?_
    rintro - s₁ hr₁ ⟨hfr, hack⟩
    refine (ih hr₁ (hfr.allocated.trans ha) fun e' he' => ?_).mono ?_
    · obtain ⟨ht', hx'⟩ := hrec e' (List.mem_cons_of_mem _ he')
      exact ⟨ht', (hfr.executionState _).trans hx'⟩
    · rintro - s₂ ⟨hfr₂, hacks⟩
      refine ⟨hfr.trans hfr₂, fun e' he' => ?_⟩
      rcases List.mem_cons.mp he' with rfl | he'
      · exact hack.imp hfr₂.fenced.trans (hfr₂.tombs _)
      · exact hacks e' he'

/-- The orphans end, and nothing else is touched. -/
theorem reap_does (h₀ : Sound s₀) (ids : List String) : ∀ {s}, Moves s₀ op s → AtRest s₀ none s →
    s.inFlightCommands = s₀.inFlightCommands → ids.Nodup →
    (∀ id ∈ ids, id ∉ s₀.inFlightCommands ∧ s.file.executionState id = some .executing ∧
      s₀.file.executionState id = some .executing) →
    Does s₀ op (reap ids) s fun _ s' => AtRest s₀ none s' ∧
      s'.inFlightCommands = s₀.inFlightCommands ∧ s'.fenced = s.fenced ∧
      (∀ id, s.file.terminal_acks.get? id ≠ none → s'.file.terminal_acks.get? id ≠ none) ∧
      ∀ id state, s'.file.executionState id = some state →
        s.file.executionState id = some state ∧ id ∉ ids ∨
          state = .failed ∧ (s'.fenced = true ∨ s'.file.terminal_acks.get? id ≠ none) := by
  induction ids with
  | nil =>
    intro s hr hrest hin _ _
    exact does_pure hr ⟨hrest, hin, rfl, fun _ h => h, fun id state hx => .inl ⟨hx, List.not_mem_nil⟩⟩
  | cons id ids ih =>
    intro s hr hrest hin hnd hids
    obtain ⟨hout, hx, hx₀⟩ := hids id List.mem_cons_self
    obtain ⟨hnid, hnd⟩ := List.nodup_cons.mp hnd
    have hs := h₀.moves hr
    have hp : ∀ p ∈ s.pending, p.commandId ≠ id :=
      fun p hp he => hout (hin ▸ he ▸ (hs.live p hp).2.1)
    unfold reap
    refine (recordExecution_does hr fun _ => .finish id .failed hx hp (.reaped hx₀ hout)).bind ?_
    rintro - s₁ hr₁ ⟨hrec, -⟩
    have hx₁ : s₁.file.executionState id = some .failed := by rw [hrec.executed, if_pos rfl]
    refine (terminalAck_does hr₁ (hrec.allocated.trans hrest.idle) rfl hx₁).bind ?_
    rintro - s₂ hr₂ ⟨hfr, hack⟩
    have hrec₂ : Concluded id .failed s s₂ := ⟨hrec.frame hfr, hack⟩
    refine (ih hr₂ (hrest.but.ended hrec₂ rfl) (hrec₂.inFlight.trans hin) hnd ?_).mono ?_
    · intro id' hid'
      obtain ⟨hout', hx', hx₀'⟩ := hids id' (List.mem_cons_of_mem _ hid')
      refine ⟨hout', ?_, hx₀'⟩
      rw [hrec₂.executed, if_neg fun he : id = id' => hnid (he ▸ hid')]
      exact hx'
    · rintro - s₃ ⟨hrest₃, hin₃, hfen₃, htombs₃, hleft⟩
      refine ⟨hrest₃, hin₃, hfen₃.trans hrec₂.fenced, fun id' h => htombs₃ id' (hrec₂.tombs id' h),
        fun id' state hx' => ?_⟩
      rcases hleft id' state hx' with ⟨hx', hnot⟩ | hfailed
      · rw [hrec₂.executed] at hx'
        split_ifs at hx' with he
        · cases hx'
          exact .inr ⟨rfl, he ▸ hrec₂.acked.imp hfen₃.trans (htombs₃ _)⟩
        · exact .inl ⟨hx', fun hm => (List.mem_cons.mp hm).elim (fun h => he h.symm) hnot⟩
      · exact .inr hfailed

theorem mem_orphanedExecutingIds {file : RunnerFile} {live : List String} :
    id ∈ file.orphanedExecutingIds live ↔
      file.executionState id = some .executing ∧ id ∉ live := by
  simp only [RunnerFile.orphanedExecutingIds, List.mem_map, List.mem_filter, decide_eq_true_eq,
    Prod.exists, exists_and_right, exists_eq_right]
  constructor
  · rintro ⟨state, he, rfl, hn⟩
    exact ⟨OrdMap.mem_entries.mp he, hn⟩
  · rintro ⟨hx, hn⟩
    exact ⟨_, OrdMap.mem_entries.mpr hx, rfl, hn⟩

theorem nodup_orphanedExecutingIds (file : RunnerFile) (live : List String) :
    (file.orphanedExecutingIds live).Nodup :=
  file.executed.nodup.sublist (List.filter_sublist.map Prod.fst)

theorem handleReconcileResponse_does (opts : DaemonOptions) (response : ReconcileResponse)
    (hop : op = .reconcile_response response) (h₀ : Sound s) (hrest : AtRest s none s) :
    Does s op (handleReconcileResponse opts response) s fun _ s' => AtRest s none s' := by
  unfold handleReconcileResponse
  refine does_get_bind ?_
  split_ifs with hgen
  · exact fenceInstallation_does (by rw [hop]; exact .inl hgen) .refl hrest
  -- acknowledge, prune, rewind, send
  have hack : op.ack? = some response.ack_event_seq := by rw [hop]; rfl
  refine Does.bind (Q := fun _ s₁ => Frame s s₁ ∧ s₁.serverAckSeq = response.ack_event_seq)
    (does_modify .refl (.acknowledge _ _ hack (.inl rfl)) ⟨?_, rfl⟩) ?_
  · exact ⟨rfl, rfl, rfl, rfl, rfl, rfl, rfl, rfl, rfl, fun _ h => h, List.prefix_refl _⟩
  rintro - s₁ hr₁ ⟨hfr₁, hack₁⟩
  refine (pruneAcked_does hr₁ hack₁.symm).bind ?_
  rintro - s₂ hr₂ ⟨hfr₂, -, hack₂⟩
  refine Does.bind (Q := fun _ s₃ => Frame s₂ s₃) (does_modify hr₂ ?_ ?_) ?_
  · rw [← hack₁, ← hack₂]; exact .rewind
  · exact ⟨rfl, rfl, rfl, rfl, rfl, rfl, rfl, rfl, rfl, fun _ h => h, List.prefix_refl _⟩
  rintro - s₃ hr₃ hfr₃
  refine Does.bind (Q := fun _ s₄ => Frame s₃ s₄) (does_modify hr₃ .send (frame_send s₃).1) ?_
  rintro - s₄ hr₄ hfr₄
  have hfr := ((hfr₁.trans hfr₂).trans hfr₃).trans hfr₄
  refine does_get_bind ?_
  refine (recoverTerminalAcks_does _ hr₄ (hfr.allocated.trans hrest.idle) ?_).bind ?_
  · rintro ⟨id, state⟩ he
    obtain ⟨he, ht⟩ := List.mem_filter.mp he
    exact ⟨ht, OrdMap.mem_entries.mp he⟩
  rintro - s₅ hr₅ ⟨hfr₅, hacks₅⟩
  have hfr := hfr.trans hfr₅
  have hrest₅ := hrest.frame hfr
  refine does_get_bind ?_
  refine (reap_does h₀ _ hr₅ hrest₅ hfr.inFlight (nodup_orphanedExecutingIds _ _) ?_).bind ?_
  · intro id hid
    obtain ⟨hx, hout⟩ := mem_orphanedExecutingIds.mp hid
    exact ⟨hfr.inFlight ▸ hout, hx, (hfr.executionState id).symm.trans hx⟩
  rintro - s₆ hr₆ ⟨hrest₆, hin₆, hfen₆, htombs₆, hleft⟩
  refine Does.bind (Q := fun _ s₇ => AtRest s none s₇)
    (does_modify hr₆ (.quiet s₆.crashIn s₆.executionPaused true) ?_) ?_
  · refine { hrest₆ with
      reaped := fun _ id _ hx => ?_
      acked := fun _ id _ state hx ht => ?_ }
    · rcases hleft id _ hx with ⟨hx₅, hnot⟩ | ⟨h, -⟩
      · by_contra hout
        refine hnot (mem_orphanedExecutingIds.mpr ⟨hx₅, ?_⟩)
        rw [hfr.inFlight, ← hin₆]
        exact hout
      · cases h
    · rcases hleft id _ hx with ⟨hx₅, -⟩ | ⟨-, hack⟩
      · have hx₄ := (hfr₅.executionState id).symm.trans hx₅
        have := hacks₅ (id, state) (List.mem_filter.mpr ⟨OrdMap.mem_entries.mpr hx₄, ht⟩)
        exact this.imp hfen₆.trans (htombs₆ id)
      · exact hack
  · rintro - s₇ hr₇ hrest₇
    exact handleCommands_does opts h₀ _ (fun c hc => by rw [hop]; exact hc) hr₇ hrest₇

theorem handleEventAcknowledgement_does {eventSequence : ℕ} (hop : op = .event_ack eventSequence)
    (hrest : AtRest s none s) :
    Does s op (handleEventAcknowledgement eventSequence) s fun _ s' => AtRest s none s' := by
  unfold handleEventAcknowledgement
  have hack : op.ack? = some eventSequence := by rw [hop]; rfl
  refine Does.bind (Q := fun _ s₁ => Frame s s₁)
    (does_modify .refl (.acknowledge _ _ hack (.inr rfl)) ?_) ?_
  · exact ⟨rfl, rfl, rfl, rfl, rfl, rfl, rfl, rfl, rfl, fun _ h => h, List.prefix_refl _⟩
  rintro - s₁ hr₁ hfr₁
  refine does_get_bind ?_
  refine (pruneAcked_does hr₁ rfl).bind ?_
  rintro - s₂ hr₂ ⟨hfr₂, -, -⟩
  refine Does.bind (Q := fun _ s₃ => Frame s₂ s₃) (does_modify hr₂ .advance ?_) ?_
  · exact ⟨rfl, rfl, rfl, rfl, rfl, rfl, rfl, rfl, rfl, fun _ h => h, List.prefix_refl _⟩
  rintro - s₃ hr₃ hfr₃
  refine does_modify hr₃ .send (hrest.frame ?_)
  exact ((hfr₁.trans hfr₂).trans hfr₃).trans (frame_send s₃).1

/-! ### Callbacks -/

/-- A promise is taken once. -/
theorem erase_commandId {pending : List Pending} (h : (pending.map Pending.commandId).Nodup)
    {q : Pending} (hq : q ∈ pending) : ∀ p ∈ pending.erase q, p.commandId ≠ q.commandId := by
  intro p hp he
  obtain ⟨hne, hp⟩ := (h.of_map _).mem_erase_iff.mp hp
  exact hne (List.inj_on_of_nodup_map h hp hq he)

/-- **Every callback is a sequence of moves.** -/
theorem perform_does (opts : DaemonOptions) (op : Op) (h₀ : Sound s) (hrest : AtRest s none s) :
    Does s op (perform opts op) s fun _ s' => AtRest s none s' := by
  have quiet : ∀ paused, Does s op (modify fun r => { r with executionPaused := paused }) s
      fun _ s' => AtRest s none s' ∧ Frame s s' := by
    intro paused
    refine does_modify .refl (.quiet s.crashIn paused s.reconciled) ⟨{ hrest with }, ?_⟩
    exact ⟨rfl, rfl, rfl, rfl, rfl, rfl, rfl, rfl, rfl, fun _ h => h, List.prefix_refl _⟩
  cases op with
  | emit event info =>
    exact (emit_does opts .refl hrest.idle (announces_run event)).mono
      fun _ _ h => hrest.frame h.1
  | command command => exact handleCommand_does opts (List.mem_singleton_self _) h₀ .refl hrest
  | reconcile_response response => exact handleReconcileResponse_does opts response rfl h₀ hrest
  | event_ack n => exact handleEventAcknowledgement_does rfl hrest
  | fenced => exact fenceInstallation_does trivial .refl hrest
  | settled settlement =>
    refine does_get_bind ?_
    split_ifs with hmem
    · obtain ⟨hx, hin, -⟩ := h₀.live _ hmem
      refine Does.bind (Q := fun _ s₁ => s₁ = { s with
        pending := s.pending.erase settlement.promise })
        (does_modify .refl (.take settlement.promise) rfl) ?_
      rintro - s₁ hr₁ rfl
      refine settlePromise_does opts rfl h₀ hmem hr₁
        { (hrest.but : AtRest s (some settlement.promise.commandId) s) with
          alive := fun id hb h hi => ?_ }
        hx (erase_commandId h₀.single hmem) rfl rfl
      obtain ⟨p, hp, hpid⟩ := hrest.alive id (by simp) h hi
      refine ⟨p, ?_, hpid⟩
      refine (List.mem_erase_of_ne fun he => hb ?_).mpr hp
      rw [← hpid, he]
    · exact does_pure .refl hrest
  | connect =>
    exact does_unless (c := fun r => r.fenced = true ∨ r.connected = true) .refl (.connect rfl) hrest
      { hrest with }
  | disconnect =>
    exact does_modify .refl (.disconnect rfl) { hrest with }
  | authenticateDeviceExecution =>
    exact does_unless (c := fun r => r.fenced = true) .refl (.authenticate rfl) hrest
      { hrest with }
  | start =>
    exact does_unless (c := fun r => r.fenced = true) .refl (.quiet s.crashIn false s.reconciled)
      hrest { hrest with }
  | emergencyStop cancelled =>
    refine (quiet true).bind ?_
    rintro - s₁ hr₁ ⟨hrest₁, -⟩
    exact (emitAll_does opts _ hr₁ hrest₁.idle).mono fun _ _ h => hrest₁.frame h.1
  | crash => exact .refl

/-! ### Runs -/

/-- What holds of a runner between two callbacks. -/
structure Healthy (r : RunnerDaemon) : Prop where
  sound : Sound r
  rest : AtRest r none r

/-- The state in which a callback begins. -/
def RunnerDaemon.begin (r : RunnerDaemon) (a : Action) : RunnerDaemon :=
  { r with now := a.now, crashIn := a.crashIn }

theorem Healthy.begin {r : RunnerDaemon} (h : Healthy r) (a : Action) : Healthy (r.begin a) :=
  ⟨h.sound.congr rfl rfl rfl (fun _ h => h) (fun h => h) rfl,
    { h.rest with }⟩

/-- A callback ends at rest, or crashes and restarts. -/
theorem step_cases (opts : DaemonOptions) {r : RunnerDaemon} (h : Healthy r) (a : Action) :
    (∃ s', Moves (r.begin a) a.op s' ∧ AtRest (r.begin a) none s' ∧ step opts r a = s' ∧
        callback opts r a = .ok () s') ∨
      ∃ s', Moves (r.begin a) a.op s' ∧ step opts r a = restart s' ∧
        callback opts r a = .error .crash s' := by
  have hd := perform_does opts a.op (h.begin a).sound (h.begin a).rest
  rcases hc : callback opts r a with ⟨u, s'⟩ | ⟨⟨⟩, s'⟩
  · obtain ⟨hm, hrest⟩ := hd.of_ok hc
    exact .inl ⟨s', hm, hrest, by unfold step; rw [hc], rfl⟩
  · exact .inr ⟨s', hd.of_error hc, by unfold step; rw [hc], rfl⟩

theorem Healthy.step (opts : DaemonOptions) {r : RunnerDaemon} (h : Healthy r) (a : Action) :
    Healthy (step opts r a) := by
  rcases step_cases opts h a with ⟨s', hm, hrest, he, -⟩ | ⟨s', hm, he, -⟩
  · rw [he]
    refine ⟨(h.begin a).sound.moves hm, { hrest with begun := ?_, entered := ?_ }⟩
    · exact fun _ _ hx => .inl hx
    · exact fun _ _ hx hi => ⟨hx, hi⟩
  · rw [he]
    have hs := (h.begin a).sound.moves hm
    refine ⟨⟨hs.unseen, hs.executing, List.nodup_nil, ?_, ?_⟩, rfl, fun _ _ hx => .inl hx,
      fun _ _ hx hi => ⟨hx, hi⟩, ?_, ?_, ?_⟩
    · intro p hp; cases hp
    · intro p hp; cases hp
    · intro id _ _ hi; cases hi
    · intro hr; cases hr
    · intro hr; cases hr

theorem healthy_paired (runner_id : String) (generation : ℕ) :
    Healthy (paired runner_id generation) := by
  refine ⟨⟨fun _ _ => ⟨rfl, List.not_mem_nil⟩, ?_, List.nodup_nil, ?_, ?_⟩, rfl, ?_, ?_, ?_, ?_, ?_⟩
  · intro id state h; cases h
  · intro p hp; cases hp
  · intro p hp; cases hp
  · intro id _ h; cases h
  · intro id _ h; cases h
  · intro id _ h; cases h
  · intro h; cases h
  · intro h; cases h

end Norns.Runner
