import Norns.Runner.Callbacks

/-! # At most once

A command may be delivered any number of times, before and after crashes: its executor starts at most
once, and it gets at most one terminal acknowledgement, in the first terminal state that was recorded
for it. `Once` is what every move keeps; a restart keeps it because everything it speaks of is in the
file. -/

namespace Norns.Runner

open Norns.Lib Norns.Contracts.Protocol

/-- The first terminal state written for a command. -/
def firstTerminal (id : String) (recorded : List (String × CommandState)) : Option CommandState :=
  (recorded.find? fun e => decide (e.1 = id) && e.2.isTerminal).map Prod.snd

/-- The terminal acknowledgements of a command. -/
def terminalAcksOf (id : String) (events : List EventEnvelope) : List EventEnvelope :=
  events.filter fun e => decide (e.terminalAck?.map Prod.fst = some id)

theorem terminalAck?_eq_some {e : EventEnvelope} {id : String} {state : CommandState} :
    e.terminalAck? = some (id, state) ↔
      e.payload.ack? = some (id, state) ∧ state.isTerminal = true := by
  simp [EventEnvelope.terminalAck?, Option.filter_eq_some_iff]

theorem mem_terminalAcksOf {e : EventEnvelope} {id : String} {events : List EventEnvelope} :
    e ∈ terminalAcksOf id events ↔ e ∈ events ∧ ∃ state, e.terminalAck? = some (id, state) := by
  simp [terminalAcksOf]

/-- **The invariant.** -/
structure Once (s : RunnerDaemon) : Prop where
  started : s.started.Nodup
  running : ∀ id, s.file.executionState id = none ∨ s.file.executionState id = some .executing →
    firstTerminal id s.recorded = none
  ended : ∀ id state, s.file.executionState id = some state → state.isTerminal = true →
    firstTerminal id s.recorded = some state
  acked : ∀ e ∈ s.created, ∀ id state, e.terminalAck? = some (id, state) →
    s.file.executionState id = some state ∧ s.file.terminal_acks.get? id ≠ none
  single : ∀ id, (terminalAcksOf id s.created).length ≤ 1
  buffered : ∀ e ∈ s.file.buffer, e ∈ s.created
  entombed : ∀ id, s.file.terminal_acks.get? id ≠ none → ∃ state, state.isTerminal = true ∧
    s.file.executionState id = some state ∧ state ∈ acksOf id s.created

section Move

variable {s₀ s s' : RunnerDaemon} {op : Op} {id : String} {state : CommandState}

theorem Once.congr (h : Once s) (hx : s'.file.executed = s.file.executed)
    (ht : s'.file.terminal_acks = s.file.terminal_acks)
    (hb : ∀ e ∈ s'.file.buffer, e ∈ s.file.buffer)
    (hs : s'.started = s.started) (hr : s'.recorded = s.recorded) (hc : s'.created = s.created) :
    Once s' := by
  have hx : s'.file.executionState = s.file.executionState := by
    unfold RunnerFile.executionState; rw [hx]
  refine ⟨hs ▸ h.started, ?_, ?_, ?_, ?_, ?_, ?_⟩
  · rw [hx, hr]; exact h.running
  · rw [hx, hr]; exact h.ended
  · rw [hx, hc, ht]; exact h.acked
  · rw [hc]; exact h.single
  · rw [hc]; exact fun e he => h.buffered e (hb e he)
  · rw [hx, hc, ht]; exact h.entombed

theorem firstTerminal_append (id : String) (recorded : List (String × CommandState))
    (e : String × CommandState) : firstTerminal id (recorded ++ [e]) =
      (firstTerminal id recorded).or
        (if e.1 = id ∧ e.2.isTerminal = true then some e.2 else none) := by
  unfold firstTerminal
  rw [List.find?_append, Option.map_or]
  by_cases h : e.1 = id ∧ e.2.isTerminal = true
  · simp [h]
  · rw [if_neg h, List.find?_cons_of_neg (by simpa using h), List.find?_nil, Option.map_none]

/-- A state is recorded for a command that has none, or is executing. -/
theorem Once.record (h : Once s)
    (hold : s.file.executionState id = none ∨ s.file.executionState id = some .executing)
    (hst : state = .executing ∨ state.isTerminal = true) : Once (s.record id state) := by
  have hx := executionState_record s id state
  have hfirst : ∀ id', firstTerminal id' (s.record id state).recorded =
      (firstTerminal id' s.recorded).or
        (if id = id' ∧ state.isTerminal = true then some state else none) :=
    fun id' => firstTerminal_append id' s.recorded (id, state)
  -- a command that can still be recorded has not been acknowledged as ended
  have hopen : ∀ {state'}, state'.isTerminal = true → s.file.executionState id ≠ some state' := by
    intro state' ht he
    rcases hold with hold | hold
    · rw [hold] at he; cases he
    · rw [hold] at he; cases he; cases ht
  refine ⟨h.started, fun id' hid => ?_, fun id' state' hid ht => ?_, fun e he id' state' ha => ?_,
    h.single, h.buffered, fun id' htomb => ?_⟩
  · rw [hx] at hid
    rw [hfirst]
    by_cases hid' : id = id'
    · subst hid'
      rw [if_pos rfl] at hid
      obtain rfl : state = .executing := by simpa using hid
      rw [h.running id hold, if_neg fun h => by cases h.2]
      rfl
    · rw [if_neg hid'] at hid
      rw [h.running id' hid, if_neg (fun h => hid' h.1)]
      rfl
  · rw [hx] at hid
    rw [hfirst]
    by_cases hid' : id = id'
    · subst hid'
      rw [if_pos rfl] at hid
      cases hid
      rw [h.running id hold, if_pos ⟨rfl, ht⟩]
      rfl
    · rw [if_neg hid'] at hid
      rw [h.ended id' state' hid ht]
      rfl
  · obtain ⟨h1, h2⟩ := h.acked e he id' state' ha
    rw [hx, if_neg]
    · exact ⟨h1, h2⟩
    · rintro rfl
      exact hopen (terminalAck?_eq_some.mp ha).2 h1
  · obtain ⟨state', ht, h1, h2⟩ := h.entombed id' htomb
    refine ⟨state', ht, ?_, h2⟩
    rw [hx, if_neg]
    · exact h1
    · rintro rfl
      exact hopen ht h1

theorem Once.event (h : Once s) {e : EventEnvelope} (hnt : e.terminalAck? = none)
    (hx : s'.file.executed = s.file.executed) (ht : s'.file.terminal_acks = s.file.terminal_acks)
    (hs : s'.started = s.started) (hr : s'.recorded = s.recorded)
    (hb : s'.file.buffer = s.file.buffer ++ [e]) (hc : s'.created = s.created ++ [e]) :
    Once s' := by
  have hx : s'.file.executionState = s.file.executionState := by
    unfold RunnerFile.executionState; rw [hx]
  refine ⟨hs ▸ h.started, ?_, ?_, ?_, fun id => ?_, ?_, ?_⟩
  · rw [hx, hr]; exact h.running
  · rw [hx, hr]; exact h.ended
  · rw [hx, ht, hc]
    intro e' he id state ha
    rcases List.mem_append.mp he with he | he
    · exact h.acked e' he id state ha
    · rw [List.mem_singleton.mp he, hnt] at ha; cases ha
  · have hnil : terminalAcksOf id [e] = [] := by simp [terminalAcksOf, hnt]
    rw [hc]
    unfold terminalAcksOf at hnil ⊢
    rw [List.filter_append, hnil, List.append_nil]
    exact h.single id
  · rw [hb, hc]
    exact fun e' he' => (List.mem_append.mp he').elim
      (fun he' => List.mem_append_left _ (h.buffered e' he')) (List.mem_append_right _)
  · rw [hx, ht, hc]
    intro id htomb
    obtain ⟨state, ht, h1, h2⟩ := h.entombed id htomb
    exact ⟨state, ht, h1, by rw [acksOf_append]; exact List.mem_append_left _ h2⟩

/-- The one terminal acknowledgement of a command. -/
theorem Once.addTerminalAck (h : Once s) {info : Meta} {detail : String}
    (ht : state.isTerminal = true) (hx : s.file.executionState id = some state)
    (hnone : s.file.terminal_acks.get? id = none) :
    Once (s.addTerminalAck id state info detail) := by
  have hnew : ∀ id', terminalAcksOf id' (s.addTerminalAck id state info detail).created =
      terminalAcksOf id' s.created ++ terminalAcksOf id'
        [s.envelope (s.file.seq + 1) (.command_ack id state detail) info] :=
    fun id' => List.filter_append ..
  have hack : (s.envelope (s.file.seq + 1) (.command_ack id state detail) info).terminalAck? =
      some (id, state) := terminalAck?_eq_some.mpr ⟨rfl, ht⟩
  have hempty : terminalAcksOf id s.created = [] := by
    by_contra hne
    obtain ⟨e, he⟩ := List.exists_mem_of_ne_nil _ hne
    obtain ⟨he, state', ha⟩ := mem_terminalAcksOf.mp he
    exact (h.acked e he id state' ha).2 hnone
  refine ⟨h.started, h.running, h.ended, fun e he id' state' ha => ?_, fun id' => ?_,
    fun e he => ?_, fun id' htomb => ?_⟩
  · have hset := tombstone_addTerminalAck s id state info detail id'
    rcases List.mem_append.mp he with he | he
    · obtain ⟨h1, h2⟩ := h.acked e he id' state' ha
      refine ⟨h1, ?_⟩
      rw [hset]
      split_ifs
      · exact Option.some_ne_none _
      · exact h2
    · rw [List.mem_singleton.mp he, hack] at ha
      cases ha
      refine ⟨hx, ?_⟩
      rw [hset, if_pos rfl]
      exact Option.some_ne_none _
  · rw [hnew]
    by_cases hid : id = id'
    · subst hid
      rw [hempty, List.nil_append]
      exact List.length_filter_le _ _
    · have hnil : terminalAcksOf id'
          [s.envelope (s.file.seq + 1) (.command_ack id state detail) info] = [] := by
        simp [terminalAcksOf, hack, hid]
      rw [hnil, List.append_nil]
      exact h.single id'
  · exact (List.mem_append.mp he).elim (fun he => List.mem_append_left _ (h.buffered e he))
      (List.mem_append_right _)
  · rw [tombstone_addTerminalAck] at htomb
    have hacks : acksOf id' (s.addTerminalAck id state info detail).created =
        acksOf id' s.created ++ if id = id' then [state] else [] := by
      rw [← acksOf_singleton (e := s.envelope (s.file.seq + 1) (.command_ack id state detail) info) rfl,
        ← acksOf_append]
      rfl
    split_ifs at htomb with hid
    · subst hid
      exact ⟨state, ht, hx, by rw [hacks, if_pos rfl]; exact List.mem_append_right _ (by simp)⟩
    · obtain ⟨state', ht', h1, h2⟩ := h.entombed id' htomb
      exact ⟨state', ht', h1, by rw [hacks]; exact List.mem_append_left _ h2⟩

/-- **One move.** -/
theorem Once.move (h : Once s) (hm : Move s₀ op s s') : Once s' := by
  cases hm with
  | quiet => exact h.congr rfl rfl (fun _ h => h) rfl rfl rfl
  | allocateSeq => exact h.congr rfl rfl (fun _ h => h) rfl rfl rfl
  | addEvent payload info _ _ hann =>
    refine h.event (e := s.envelope s.file.seq payload info) ?_ rfl rfl rfl rfl rfl rfl
    rw [Option.eq_none_iff_forall_ne_some]
    rintro ⟨id, state⟩ ha
    obtain ⟨ha, ht⟩ := terminalAck?_eq_some.mp ha
    rcases (hann id state ha).2 with ⟨rfl, -⟩ | ⟨rfl, -⟩ <;> cases ht
  | addTerminalAck id state info detail _ _ ht hx _ hnone => exact h.addTerminalAck ht hx hnone
  | entomb id e hb =>
    have he := h.buffered e (List.mem_of_find?_eq_some hb)
    obtain ⟨state, ha⟩ : ∃ state, e.terminalAck? = some (id, state) := by
      simpa using List.find?_some hb
    obtain ⟨hack, ht⟩ := terminalAck?_eq_some.mp ha
    refine { h with acked := fun e' he' id' state' ha' => ?_, entombed := fun id' htomb => ?_ }
    · refine (h.acked e' he' id' state' ha').imp_right fun hne => ?_
      rw [tombstone_entomb]
      split_ifs
      · exact Option.some_ne_none _
      · exact hne
    · rw [tombstone_entomb] at htomb
      split_ifs at htomb with hid
      · subst hid
        exact ⟨state, ht, (h.acked e he id state ha).1, mem_acksOf.mpr ⟨e, he, hack⟩⟩
      · exact h.entombed id' htomb
  | begin c _ hn => exact h.record (.inl hn) (.inl rfl)
  | refuse c state _ hn hst =>
    exact h.record (.inl hn) (.inr (by rcases hst with rfl | rfl <;> rfl))
  | finish id state hx _ hends => exact h.record (.inr hx) (.inr hends.isTerminal)
  | enter => exact h.congr rfl rfl (fun _ h => h) rfl rfl rfl
  | leave => exact h.congr rfl rfl (fun _ h => h) rfl rfl rfl
  | start id promise _ hs =>
    refine { h with started := ?_ }
    exact List.Nodup.append h.started (List.nodup_singleton id) (by simpa using hs)
  | take => exact h.congr rfl rfl (fun _ h => h) rfl rfl rfl
  | acknowledge => exact h.congr rfl rfl (fun _ h => h) rfl rfl rfl
  | prune => exact h.congr rfl rfl (fun e he => (List.mem_filter.mp he).1) rfl rfl rfl
  | rewind => exact h.congr rfl rfl (fun _ h => h) rfl rfl rfl
  | advance => exact h.congr rfl rfl (fun _ h => h) rfl rfl rfl
  | send =>
    obtain ⟨outbox, highest, he⟩ := sendBufferedEvents_eq s
    rw [he]
    exact h.congr rfl rfl (fun _ h => h) rfl rfl rfl
  | fence => exact h.congr rfl rfl (fun _ h => h) rfl rfl rfl
  | connect => exact h.congr rfl rfl (fun _ h => h) rfl rfl rfl
  | disconnect => exact h.congr rfl rfl (fun _ h => h) rfl rfl rfl
  | authenticate => exact h.congr rfl rfl (fun _ h => h) rfl rfl rfl

end Move

theorem Once.step (opts : DaemonOptions) {r : RunnerDaemon} (hh : Healthy r) (h : Once r)
    (a : Action) : Once (step opts r a) := by
  have hmoves : ∀ {s'}, Moves (r.begin a) a.op s' → Once s' := by
    intro s' hm
    induction hm with
    | refl => exact h.congr rfl rfl (fun _ h => h) rfl rfl rfl
    | tail _ hm ih => exact ih.move hm
  rcases step_cases opts hh a with ⟨s', hm, -, he, -⟩ | ⟨s', hm, he, -⟩
  · rw [he]; exact hmoves hm
  · rw [he]; exact (hmoves hm).congr rfl rfl (fun _ h => h) rfl rfl rfl

theorem once_run (opts : DaemonOptions) (runner_id : String) (generation : ℕ)
    (actions : List Action) : Once (Run.run (step opts) (paired runner_id generation) actions) := by
  refine (Run.run_induct' (I := fun r => Healthy r ∧ Once r)
    (fun r a h => ⟨h.1.step opts a, h.2.step opts h.1 a⟩)
    ⟨healthy_paired runner_id generation, ?_⟩ actions).2
  refine ⟨List.nodup_nil, fun _ _ => rfl, ?_, ?_, fun _ => Nat.zero_le 1, ?_, ?_⟩
  · intro id state h; cases h
  · intro e he; cases he
  · intro e he; cases he
  · intro id h; exact absurd rfl h

/-- **At-most-once execution and one terminal acknowledgement**, for every command and every history
of deliveries, crashes, restarts, prunings and late completions. -/
theorem at_most_once (opts : DaemonOptions) (runner_id : String) (generation : ℕ)
    (actions : List Action) (id : String) :
    let r := Run.run (step opts) (paired runner_id generation) actions
    r.started.count id ≤ 1 ∧ (terminalAcksOf id r.created).length ≤ 1 ∧
      ∀ e ∈ r.created, ∀ state, e.terminalAck? = some (id, state) →
        firstTerminal id r.recorded = some state := by
  intro r
  have h : Once r := once_run opts runner_id generation actions
  refine ⟨List.nodup_iff_count_le_one.mp h.started id, h.single id, fun e he state ha => ?_⟩
  exact h.ended id state (h.acked e he id state ha).1 (terminalAck?_eq_some.mp ha).2

end Norns.Runner
