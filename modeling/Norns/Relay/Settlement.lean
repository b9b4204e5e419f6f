import Norns.Relay.Log
import Norns.Runner.Once
import Norns.Server.Outbox

/-! # No stuck command

A runner and the command outbox of its server, for one generation of the runner. The server drops an
acknowledgement that the command state machine does not allow, so a command is stuck unless the word of
its acknowledgements is a path of the machine.

* `Tracks`: the word fits the state that the runner has recorded, kept by every callback that meets
  `OrderlyCallback` (`Tracks.step`);
* `Agree`: the server is where the word it has ingested leads, kept by every operation that meets
  `Orderly` (`Agree.step`);
* `no_stuck_command`: so the server ends where the runner did;
* `reaped_before_announced`: a crash before `executing` is acknowledged breaks it. -/

namespace Norns.Relay.Settlement

open Norns.Lib Norns.Lib.Run Norns.Contracts.Protocol Norns.Server.Stores Norns.Server.Outbox
open Norns.Runner Norns.Relay.Log

/-! ### Words of acknowledgements -/

/-- Each state follows from the one before, or repeats it. -/
def LegalPath : CommandState → List CommandState → Prop
  | _, [] => True
  | s, t :: rest => (t = s ∨ canCommandTransition s t = true) ∧ LegalPath t rest

/-- Where a word of acknowledgements takes a delivered command. -/
def reached (word : List CommandState) : CommandState := word.foldl nextState .delivered

/-- The word of a command that runs, or is about to. -/
def Ongoing (word : List CommandState) : Prop :=
  word = [] ∨ ∃ k, word = .accepted :: List.replicate k .executing

/-- The state may end a command with this word. -/
def MayEnd (word : List CommandState) (state : CommandState) : Prop :=
  word = [] ∧ (state = .expired ∨ state = .rejected) ∨ word = [.accepted] ∧ state = .rejected ∨
    (∃ k, word = .accepted :: List.replicate (k + 1) .executing) ∧ state.isTerminal = true ∧
      state ≠ .rejected ∧ state ≠ .expired

/-- The word that fits a recorded state. -/
def Fits (word : List CommandState) : Option CommandState → Prop
  | none => word = []
  | some state =>
    state = .executing ∧ Ongoing word ∨ state.isTerminal = true ∧
      (MayEnd word state ∨ ∃ before, word = before ++ [state] ∧ MayEnd before state)

theorem foldl_executing (k : ℕ) :
    (List.replicate k CommandState.executing).foldl nextState .executing = .executing := by
  induction k with
  | zero => rfl
  | succ k ih => exact ih

theorem legalPath_executing (k : ℕ) (rest : List CommandState) :
    LegalPath .executing (List.replicate k .executing ++ rest) ↔ LegalPath .executing rest := by
  induction k with
  | zero => exact Iff.rfl
  | succ k ih => exact ⟨fun h => ih.mp h.2, fun h => ⟨.inl rfl, ih.mpr h⟩⟩

/-- A command ends in the state that ends its word. -/
theorem MayEnd.reached {word : List CommandState} {state : CommandState} (h : MayEnd word state) :
    reached (word ++ [state]) = state := by
  unfold Settlement.reached
  rw [List.foldl_append]
  rcases h with ⟨rfl, rfl | rfl⟩ | ⟨rfl, rfl⟩ | ⟨⟨k, rfl⟩, ht, hr, he⟩
  · rfl
  · rfl
  · rfl
  · have hword : (CommandState.accepted :: List.replicate (k + 1) .executing).foldl nextState
        .delivered = .executing := foldl_executing k
    rw [hword]
    cases state <;> first | rfl | exact absurd rfl hr | exact absurd rfl he | cases ht

theorem Ongoing.legal {word : List CommandState} (h : Ongoing word) : LegalPath .delivered word := by
  rcases h with rfl | ⟨k, rfl⟩
  · trivial
  · refine ⟨.inr rfl, ?_⟩
    rcases k with _ | k
    · trivial
    · refine ⟨.inr rfl, ?_⟩
      have := (legalPath_executing k []).mpr trivial
      rwa [List.append_nil] at this

theorem MayEnd.ongoing {word : List CommandState} {state : CommandState} (h : MayEnd word state) :
    Ongoing word := by
  rcases h with ⟨rfl, -⟩ | ⟨rfl, -⟩ | ⟨⟨k, rfl⟩, -⟩
  · exact .inl rfl
  · exact .inr ⟨0, rfl⟩
  · exact .inr ⟨k + 1, rfl⟩

theorem MayEnd.legal {word : List CommandState} {state : CommandState} (h : MayEnd word state) :
    LegalPath .delivered (word ++ [state]) := by
  rcases h with ⟨rfl, rfl | rfl⟩ | ⟨rfl, rfl⟩ | ⟨⟨k, rfl⟩, ht, hr, he⟩
  · exact ⟨.inr rfl, trivial⟩
  · exact ⟨.inr rfl, trivial⟩
  · exact ⟨.inr rfl, .inr rfl, trivial⟩
  · refine ⟨.inr rfl, .inr rfl, (legalPath_executing k [state]).mpr ⟨.inr ?_, trivial⟩⟩
    cases state <;> first | rfl | exact absurd rfl hr | exact absurd rfl he | cases ht

theorem Fits.legal {word : List CommandState} {recorded : Option CommandState}
    (h : Fits word recorded) : LegalPath .delivered word := by
  rcases recorded with _ | state
  · have h : word = [] := h
    rw [h]; trivial
  · rcases h with ⟨-, h⟩ | ⟨-, h | ⟨before, rfl, h⟩⟩
    · exact h.legal
    · exact h.ongoing.legal
    · exact h.legal

theorem Ongoing.accepted_mem {word : List CommandState} (h : Ongoing word)
    (he : .executing ∈ word) : .accepted ∈ word := by
  rcases h with rfl | ⟨k, rfl⟩
  · cases he
  · exact List.mem_cons_self

/-- Once `executing` is in the word, what executed may end it. -/
theorem Ongoing.mayEnd {word : List CommandState} {state : CommandState} (h : Ongoing word)
    (he : .executing ∈ word) (ht : state.isTerminal = true) (hr : state ≠ .rejected)
    (hx : state ≠ .expired) : MayEnd word state := by
  rcases h with rfl | ⟨_ | k, rfl⟩
  · cases he
  · simp at he
  · exact .inr (.inr ⟨⟨k, rfl⟩, ht, hr, hx⟩)

/-- Before that, a refusal may. -/
theorem Ongoing.mayReject {word : List CommandState} (h : Ongoing word)
    (he : .executing ∉ word) : MayEnd word .rejected := by
  rcases h with rfl | ⟨_ | k, rfl⟩
  · exact .inl ⟨rfl, .inr rfl⟩
  · exact .inr (.inl ⟨rfl, rfl⟩)
  · exact absurd (List.mem_cons_of_mem _ (List.mem_cons_self)) he

theorem Ongoing.snoc {word : List CommandState} (h : Ongoing word) (ha : .accepted ∈ word) :
    Ongoing (word ++ [.executing]) := by
  rcases h with rfl | ⟨k, rfl⟩
  · cases ha
  · exact .inr ⟨k + 1, by rw [List.replicate_succ', List.cons_append]⟩

theorem reached_ne_queued (word : List CommandState) : reached word ≠ .queued := by
  have main : ∀ (word : List CommandState) (s : CommandState), s ≠ .queued → s ≠ .created →
      word.foldl nextState s ≠ .queued := by
    intro word
    induction word with
    | nil => intro s hs _; exact hs
    | cons t word ih =>
      intro s hs hc
      have hnext : nextState s t ≠ .queued ∧ nextState s t ≠ .created := by
        cases s <;> cases t <;> first | decide | exact absurd rfl hs | exact absurd rfl hc
      exact ih _ hnext.1 hnext.2
  exact main word .delivered (by decide) (by decide)

/-! ### The word of a command at the runner -/

/-- What a callback needs of the command it may settle. -/
structure Tracks (id : String) (r : RunnerDaemon) : Prop where
  fits : Fits (acksOf id r.created) (r.file.executionState id)
  begun : r.file.executionState id = some .executing → .accepted ∈ acksOf id r.created
  orphan : r.file.executionState id = some .executing → id ∉ r.inFlightCommands →
    .executing ∈ acksOf id r.created
  unfenced : r.fenced = false

/-- **The condition on a callback**: the runner is not fenced; if a crash strikes while the command is
recorded as executing, it was acknowledged as executing; a control is refused only if it was not. -/
structure OrderlyCallback (opts : DaemonOptions) (id : String) (r : RunnerDaemon) (a : Action) :
    Prop where
  identity : ¬ a.op.fences (r.begin a)
  crash : ∀ r', callback opts r a = .error .crash r' →
    r'.file.executionState id = some .executing → .executing ∈ acksOf id r'.created
  refusal : ∀ settlement, a.op = .settled settlement → settlement.promise ∈ r.pending →
    settlement.refuses → settlement.promise.commandId = id → .executing ∉ acksOf id r.created

section Move

variable {s₀ s s' : RunnerDaemon} {op : Op} {id : String}

theorem fits_event {e : EventEnvelope} (h : Fits (acksOf id s.created) (s.file.executionState id))
    (hne : ∀ state, e.payload.ack? ≠ some (id, state)) :
    Fits (acksOf id (s.created ++ [e])) (s.file.executionState id) := by
  have hnil : acksOf id [e] = [] := by
    rcases ha : e.payload.ack? with _ | ⟨id', state⟩
    · exact acksOf_singleton_none ha
    · rw [acksOf_singleton ha, if_neg]
      rintro rfl
      exact hne state ha
  rw [acksOf_append, hnil, List.append_nil]
  exact h

/-- **One move** keeps the word fitting. -/
theorem fits_move (h₀ : Tracks id s₀) (hop : ∀ settlement, op = .settled settlement →
      settlement.promise ∈ s₀.pending → settlement.refuses → settlement.promise.commandId = id →
      .executing ∉ acksOf id s₀.created)
    (hr : Moves s₀ op s) (hfen : s.fenced = false) (honce : Once s)
    (h : Fits (acksOf id s.created) (s.file.executionState id)) (hm : Move s₀ op s s') :
    Fits (acksOf id s'.created) (s'.file.executionState id) := by
  have older : ∀ {state}, state ∈ acksOf id s₀.created → state ∈ acksOf id s.created :=
    fun hm => (acksOf_mono hr.created).subset hm
  -- a state is recorded for this command, or for another one
  have record : ∀ {id' state}, (id' = id → Fits (acksOf id s.created) (some state)) →
      Fits (acksOf id s.created) ((s.record id' state).file.executionState id) := by
    intro id' state hid
    rw [executionState_record]
    split_ifs with he
    · exact hid he
    · exact h
  cases hm with
  | addEvent payload info _ _ hann =>
    by_cases hack : ∃ state, payload.ack? = some (id, state)
    · obtain ⟨state, hack⟩ := hack
      obtain ⟨hx, hstate⟩ := hann id state hack
      have hword : acksOf id (s.addEvent (s.envelope s.file.seq payload info)).created =
          acksOf id s.created ++ [state] := by
        show acksOf id (s.created ++ [s.envelope s.file.seq payload info]) = _
        rw [acksOf_append, acksOf_singleton (e := s.envelope s.file.seq payload info) hack, if_pos rfl]
      rw [hword]
      show Fits _ (s.file.executionState id)
      rw [hx] at h ⊢
      have h := (h.resolve_right fun h => by cases h.1).2
      left
      refine ⟨rfl, ?_⟩
      rcases hstate with ⟨rfl, hnil⟩ | ⟨rfl, hacc⟩
      · rw [hnil]; exact .inr ⟨0, rfl⟩
      · exact h.snoc (hacc.elim (fun h => h) fun hx₀ => older (h₀.begun hx₀))
    · exact fits_event h fun state ha => hack ⟨state, ha⟩
  | addTerminalAck id' state info detail _ _ ht hx _ hnone =>
    by_cases hid : id' = id
    · subst hid
      have hword : acksOf id' (s.addTerminalAck id' state info detail).created =
          acksOf id' s.created ++ [state] := by
        show acksOf id' (s.created ++ [_]) = _
        rw [acksOf_append, acksOf_singleton (e := s.envelope (s.file.seq + 1)
          (.command_ack id' state detail) info) rfl, if_pos rfl]
      rw [hword]
      show Fits _ (s.file.executionState id')
      rw [hx] at h ⊢
      right
      refine ⟨ht, .inr ⟨_, rfl, ?_⟩⟩
      rcases h with ⟨rfl, -⟩ | ⟨-, h | ⟨before, hw, -⟩⟩
      · cases ht
      · exact h
      · -- the state would have been acknowledged before
        exfalso
        have hmem : state ∈ acksOf id' s.created := by
          rw [hw]; exact List.mem_append_right _ (List.mem_singleton_self _)
        obtain ⟨e, he, ha⟩ := mem_acksOf.mp hmem
        exact (honce.acked e he id' state (terminalAck?_eq_some.mpr ⟨ha, ht⟩)).2 hnone
    · refine fits_event h fun state' ha => hid ?_
      cases ha
      rfl
  | begin c _ hn =>
    refine record fun hid => .inl ⟨rfl, .inl ?_⟩
    rw [← hid, hn] at h
    rw [← hid]
    exact h
  | refuse c state _ hn hst =>
    refine record fun hid => .inr ⟨by rcases hst with rfl | rfl <;> rfl, .inl (.inl ⟨?_, hst⟩)⟩
    rw [← hid, hn] at h
    rw [← hid]
    exact h
  | finish id' state hx _ hends =>
    refine record fun hid => .inr ⟨hends.isTerminal, .inl ?_⟩
    subst hid
    rw [hx] at h
    have h := (h.resolve_right fun h => by cases h.1).2
    cases hends with
    | refused hne => exact h.mayReject hne
    | declined settlement hset hmem href hid hsame =>
      exact h.mayReject (by rw [hsame]; exact hop settlement hset hmem href hid)
    | ran _ ht hr hx he =>
      exact h.mayEnd (he.resolve_right (by rw [hfen]; decide)) ht hr hx
    | reaped hx₀ hout =>
      exact h.mayEnd (older (h₀.orphan hx₀ hout)) rfl (by decide) (by decide)
  | send =>
    obtain ⟨outbox, highest, he⟩ := sendBufferedEvents_eq s
    rw [he]
    exact h
  | _ => exact h

theorem fits_moves (h₀ : Tracks id s₀) (honce : Once s₀) (hid : ¬ op.fences s₀)
    (hop : ∀ settlement, op = .settled settlement → settlement.promise ∈ s₀.pending →
      settlement.refuses → settlement.promise.commandId = id → .executing ∉ acksOf id s₀.created)
    (hr : Moves s₀ op s) :
    Once s ∧ Fits (acksOf id s.created) (s.file.executionState id) := by
  induction hr with
  | refl => exact ⟨honce, h₀.fits⟩
  | tail hr hm ih =>
    exact ⟨ih.1.move hm, fits_move h₀ hop hr (Moves.unfenced hr hid h₀.unfenced) ih.1 ih.2 hm⟩

end Move

theorem Tracks.begin {id : String} {r : RunnerDaemon} (h : Tracks id r) (a : Action) :
    Tracks id (r.begin a) := ⟨h.fits, h.begun, h.orphan, h.unfenced⟩

/-- **One callback** keeps the word fitting. -/
theorem Tracks.step (opts : DaemonOptions) {id : String} {r : RunnerDaemon} (hh : Healthy r)
    (honce : Once r) (h : Tracks id r) {a : Action} (ha : OrderlyCallback opts id r a) :
    Tracks id (step opts r a) := by
  have h₀ := h.begin a
  have honce₀ : Once (r.begin a) := honce.congr rfl rfl (fun _ h => h) rfl rfl rfl
  have hmoves : ∀ {s}, Moves (r.begin a) a.op s → s.fenced = false ∧
      Fits (acksOf id s.created) (s.file.executionState id) := fun hm =>
    ⟨hm.unfenced ha.identity h.unfenced, (fits_moves h₀ honce₀ ha.identity ha.refusal hm).2⟩
  rcases step_cases opts hh a with ⟨s, hm, hrest, he, -⟩ | ⟨s, hm, he, hc⟩
  · obtain ⟨hfen, hfits⟩ := hmoves hm
    have older : ∀ {state}, state ∈ acksOf id r.created → state ∈ acksOf id s.created :=
      fun hmem => (acksOf_mono hm.created).subset hmem
    rw [he]
    refine ⟨hfits, fun hx => ?_, fun hx hi => ?_, hfen⟩
    · rcases hrest.begun id (by simp) hx with hx₀ | hacc | hf
      · exact older (h.begun hx₀)
      · exact hacc
      · rw [hfen] at hf; cases hf
    · obtain ⟨hx₀, hi₀⟩ := hrest.entered id (by simp) hx hi
      exact older (h.orphan hx₀ hi₀)
  · obtain ⟨-, hfits⟩ := hmoves hm
    rw [he]
    refine ⟨hfits, fun hx => ?_, fun hx _ => ha.crash s hc hx, rfl⟩
    have hfits : Fits (acksOf id s.created) (s.file.executionState id) := hfits
    have hx : s.file.executionState id = some .executing := hx
    have hmem := ha.crash s hc hx
    rw [hx] at hfits
    exact (hfits.resolve_right fun h => by cases h.1).2.accepted_mem hmem

/-! ### The runner and its server -/

structure System where
  stores : RelayStores
  runner : RunnerDaemon
  /-- The commands put on a connection of the runner so far. -/
  sent : List CommandEnvelope

inductive RelayOp
  | enqueueCommand (envelope : CommandEnvelope) (now : ℕ)
  /-- Also what a reconcile resends; the executed ids are the runner's, or none. -/
  | deliverPending (executedCommandIds : List String) (now : ℕ)
  /-- The delivery worker gives the command up. -/
  | cancel (commandId : String) (now : ℕ)
  /-- A frame with the `n`-th event that the runner created arrives. -/
  | event (n : ℕ) (now : ℕ)
  /-- A callback of the runner; its commands have been sent. -/
  | runner (action : Action)

/-- A newly paired runner and an empty outbox. -/
def start (runner_id : String) (generation : ℕ) : System :=
  ⟨RelayStores.new, paired runner_id generation, []⟩

def step (opts : DaemonOptions) (s : System) : RelayOp → System
  | .enqueueCommand envelope now =>
    match s.stores.enqueueCommand envelope now with
    | .ok (stores, _) => { s with stores }
    | .error _ => s
  | .deliverPending executed now =>
    let (stores, pending) := s.stores.pendingCommandsFor s.runner.file.runner_id executed now
    { s with stores := stores.markDelivered pending now, sent := s.sent ++ pending }
  | .cancel commandId now => { s with stores := s.stores.setCommandState commandId .cancelled now }
  | .event n now =>
    match s.runner.created[n]? with
    | some event => { s with stores := s.stores.receive event now }
    | none => s
  | .runner action =>
    if ∀ c ∈ action.op.commands, c ∈ s.sent then
      { s with runner := Runner.step opts s.runner action }
    else s

/-- **The condition** on an operation, for one command: a callback of the runner is orderly, and the
server itself does not end the command after it was delivered. -/
def Orderly (opts : DaemonOptions) (id : String) (s : System) : RelayOp → Prop
  | .runner action => OrderlyCallback opts id s.runner action
  | .deliverPending executed now => ∀ record, s.stores.commands.get? id = some record →
    record.state = .delivered → isCommandExpired record.envelope now = true → id ∈ executed
  | .cancel commandId _ => commandId = id → ∀ state, stateOf s.stores id = some state →
    state = .queued ∨ state.isTerminal = true
  | _ => True

/-- **The invariant.** -/
structure Agree (runner_id id : String) (s : System) : Prop where
  healthy : Healthy s.runner
  once : Once s.runner
  numbered : Numbered s.runner
  tracks : Tracks id s.runner
  identity : s.runner.file.runner_id = runner_id
  log : LogOf runner_id s.stores s.runner.created
  keyed : Keyed s.stores
  known : s.runner.file.executionState id ≠ none → ∃ c ∈ s.sent, c.command_id = id
  sent : (∃ c ∈ s.sent, c.command_id = id) →
    stateOf s.stores id = some (reached (acksOf id (s.stores.eventsFor runner_id)))

section Agree

variable {opts : DaemonOptions} {runner_id id : String} {s : System}

theorem Agree.enqueueCommand (h : Agree runner_id id s) (envelope : CommandEnvelope) (now : ℕ) :
    Agree runner_id id (step opts s (.enqueueCommand envelope now)) := by
  simp only [step, RelayStores.enqueueCommand]
  rcases hg : s.stores.commands.get? envelope.command_id with _ | existing
  · refine { h with log := h.log.congr rfl rfl, keyed := fun id' record hg' => ?_, sent := ?_ }
    · rw [OrdMap.get?_set] at hg'
      split_ifs at hg' with he
      · cases hg'; exact he
      · exact h.keyed id' record hg'
    · intro hs
      have hstate := h.sent hs
      have hne : envelope.command_id ≠ id := by
        rintro rfl
        unfold stateOf at hstate
        rw [hg] at hstate
        cases hstate
      unfold stateOf
      rw [OrdMap.get?_set_ne _ _ hne]
      exact hstate
  · simp only []
    split_ifs
    · exact h
    · exact h

theorem Agree.cancel (h : Agree runner_id id s) {commandId : String} {now : ℕ}
    (ho : Orderly opts id s (.cancel commandId now)) :
    Agree runner_id id (step opts s (.cancel commandId now)) := by
  have hlog := sameLog_setCommandState s.stores commandId .cancelled now
  refine { h with
    log := h.log.congr (hlog.eventsFor _) (hlog.eventWatermark _)
    keyed := h.keyed.setCommandState _ _ _
    sent := fun hs => ?_ }
  have hstate := h.sent hs
  show stateOf (s.stores.setCommandState commandId .cancelled now) id = some (reached
    (acksOf id ((s.stores.setCommandState commandId .cancelled now).eventsFor runner_id)))
  rw [stateOf_setCommandState, hlog.eventsFor]
  split_ifs with he
  · rw [hstate]
    rcases ho he _ hstate with hq | ht
    · exact absurd hq (reached_ne_queued _)
    · simp [nextState, ht]
  · exact hstate

theorem Agree.deliverPending (h : Agree runner_id id s) {executed : List String} {now : ℕ}
    (ho : Orderly opts id s (.deliverPending executed now)) :
    Agree runner_id id (step opts s (.deliverPending executed now)) := by
  let round := s.stores.pendingCommandsFor s.runner.file.runner_id executed now
  obtain ⟨hlog₂, hkeyed₂, hstate₂⟩ := markDelivered_spec round.2 now round.1
  have hlog : SameLog s.stores (round.1.markDelivered round.2 now) :=
    sameLog_pendingCommandsFor.trans hlog₂
  refine { h with
    log := h.log.congr (hlog.eventsFor _) (hlog.eventWatermark _)
    keyed := hkeyed₂ h.keyed.pendingCommandsFor
    known := fun hx => ?_
    sent := fun hsent => ?_ }
  · obtain ⟨c, hc, hid⟩ := h.known hx
    exact ⟨c, List.mem_append_left _ hc, hid⟩
  show stateOf (round.1.markDelivered round.2 now) id = some (reached
    (acksOf id ((round.1.markDelivered round.2 now).eventsFor runner_id)))
  rw [hstate₂, hlog.eventsFor]
  by_cases hold : ∃ c ∈ s.sent, c.command_id = id
  · -- sent before: the round leaves the record alone, and a resend too
    have hstate := h.sent hold
    have hget : round.1.commands.get? id = s.stores.commands.get? id := by
      refine get?_pendingCommandsFor h.keyed fun record hg hu => ?_
      by_contra hexp
      have hst : record.state = reached (acksOf id (s.stores.eventsFor runner_id)) := by
        unfold stateOf at hstate; rw [hg] at hstate; exact Option.some.inj hstate
      refine hu.2.2 ?_
      rw [h.keyed id record hg]
      refine ho record hg (hu.2.1.resolve_left ?_) (by simpa using hexp)
      rw [hst]; exact reached_ne_queued _
    have hround : stateOf round.1 id = stateOf s.stores id := by unfold stateOf; rw [hget]
    rw [hround, hstate]
    split_ifs with hp
    · obtain ⟨c, hc, rfl⟩ := hp
      obtain ⟨record, hg, -, hu, -⟩ := mem_pendingCommandsFor h.keyed hc
      have hst : record.state = reached (acksOf c.command_id (s.stores.eventsFor runner_id)) := by
        unfold stateOf at hstate; rw [hg] at hstate; exact Option.some.inj hstate
      have hdel := hu.2.1.resolve_left (by rw [hst]; exact reached_ne_queued _)
      rw [← hst, hdel]
      rfl
    · rfl
  · -- sent now for the first time: nothing was acknowledged
    obtain ⟨c, hc, hid⟩ := hsent
    have hc : c ∈ round.2 :=
      (List.mem_append.mp hc).resolve_left fun hc => hold ⟨c, hc, hid⟩
    subst hid
    obtain ⟨record, hg, henv, hu, hexp⟩ := mem_pendingCommandsFor h.keyed hc
    have hget : round.1.commands.get? c.command_id = some record := by
      rw [← hg]
      refine get?_pendingCommandsFor h.keyed fun record' hg' _ => ?_
      rw [hg] at hg'
      cases hg'
      rw [henv]
      exact hexp
    have hnone : s.runner.file.executionState c.command_id = none := by
      by_contra hx
      exact hold (h.known hx)
    have hword : acksOf c.command_id (s.stores.eventsFor runner_id) = [] := by
      have hfits := h.tracks.fits
      rw [hnone] at hfits
      have hsub : acksOf c.command_id (s.stores.eventsFor runner_id) <+:
          acksOf c.command_id s.runner.created := acksOf_mono h.log.initial
      rw [show acksOf c.command_id s.runner.created = [] from hfits] at hsub
      exact List.eq_nil_of_prefix_nil hsub
    rw [if_pos ⟨c, hc, rfl⟩, hword]
    unfold stateOf
    rw [hget]
    rcases hu.2.1 with hq | hd
    · simp [hq]; rfl
    · simp [hd]; rfl

theorem Agree.event (h : Agree runner_id id s) (n now : ℕ) :
    Agree runner_id id (step opts s (.event n now)) := by
  simp only [step]
  rcases hn : s.runner.created[n]? with _ | e
  · exact h
  have he : e ∈ s.runner.created := List.mem_of_getElem? hn
  have hid : e.runner_id = runner_id := (h.numbered.runner_id e he).trans h.identity
  obtain ⟨hlog, ⟨hacc, hev⟩ | ⟨hacc, hsame⟩⟩ :=
    h.log.ingest h.numbered.increasing (fun e he => (h.numbered.bounded e he).1) he hid
  · -- the event is new, and takes effect
    have hcommands : (s.stores.ingestEvent e).1.commands = s.stores.commands := by
      unfold RelayStores.ingestEvent; split_ifs <;> rfl
    have hrec : s.stores.receive e now = (s.stores.ingestEvent e).1.applyEventSideEffects e now := by
      unfold RelayStores.receive; simp only [hacc, if_true]
    have hkeyed : Keyed (s.stores.ingestEvent e).1 := by
      unfold Keyed; rw [hcommands]; exact h.keyed
    have hold : ∀ id', stateOf (s.stores.ingestEvent e).1 id' = stateOf s.stores id' := by
      intro id'; unfold stateOf; rw [hcommands]
    simp only [hrec, RelayStores.applyEventSideEffects]
    rcases hack : e.payload.ack? with _ | ⟨id', state⟩
    · refine { h with log := hlog, keyed := hkeyed, sent := fun hs => ?_ }
      rw [hold, h.sent hs, hev, acksOf_append, acksOf_singleton_none hack, List.append_nil]
    · have hset := sameLog_setCommandState (s.stores.ingestEvent e).1 id' state now
      refine { h with
        log := hlog.congr (hset.eventsFor _) (hset.eventWatermark _)
        keyed := hkeyed.setCommandState _ _ _
        sent := fun hs => ?_ }
      simp only []
      rw [stateOf_setCommandState, hold, h.sent hs, hset.eventsFor, hev, acksOf_append,
        acksOf_singleton hack]
      split_ifs
      · unfold reached
        rw [List.foldl_append]
        rfl
      · rw [List.append_nil]
  · have hrec : s.stores.receive e now = s.stores := by
      unfold RelayStores.receive; simp only [hacc, if_false, hsame]
    simp only [hrec]
    exact h

theorem Agree.runner (h : Agree runner_id id s) {action : Action}
    (ho : Orderly opts id s (.runner action)) :
    Agree runner_id id (step opts s (.runner action)) := by
  simp only [step]
  split_ifs with hsent
  · have hgrow : s.runner.file.runner_id = (Runner.step opts s.runner action).file.runner_id ∧
        s.runner.created <+: (Runner.step opts s.runner action).created ∧
        ((Runner.step opts s.runner action).file.executionState id ≠ none →
          ∃ c ∈ s.sent, c.command_id = id) := by
      have hmoves : ∀ {r}, Moves (s.runner.begin action) action.op r →
          s.runner.file.runner_id = r.file.runner_id ∧ s.runner.created <+: r.created ∧
            (r.file.executionState id ≠ none → ∃ c ∈ s.sent, c.command_id = id) := by
        intro r hm
        refine ⟨hm.identity.1.symm, hm.created, fun hx => ?_⟩
        rcases hm.known id hx with hx | ⟨c, hc, hid⟩
        · exact h.known hx
        · exact ⟨c, hsent c hc, hid⟩
      rcases step_cases opts h.healthy action with ⟨r, hm, -, he, -⟩ | ⟨r, hm, he, -⟩
      · rw [he]; exact hmoves hm
      · rw [he]
        obtain ⟨hid, hcreated, hknown⟩ := hmoves hm
        exact ⟨hid, hcreated, hknown⟩
    obtain ⟨hid, hcreated, hknown⟩ := hgrow
    exact {
      healthy := h.healthy.step opts action
      once := h.once.step opts h.healthy action
      numbered := h.numbered.step opts h.healthy action
      tracks := h.tracks.step opts h.healthy h.once ho
      identity := hid.symm.trans h.identity
      log := h.log.mono hcreated
      keyed := h.keyed
      known := hknown
      sent := h.sent }
  · exact h

/-- **One operation.** -/
theorem Agree.step (h : Agree runner_id id s) {op : RelayOp} (ho : Orderly opts id s op) :
    Agree runner_id id (step opts s op) := by
  cases op with
  | enqueueCommand envelope now => exact h.enqueueCommand envelope now
  | deliverPending executed now => exact h.deliverPending ho
  | cancel commandId now => exact h.cancel ho
  | event n now => exact h.event n now
  | runner action => exact h.runner ho

end Agree

/-- **What the law says of a command**: its acknowledgements are a path of the state machine, and when
the server has ingested every event of a reconciled runner, either the command has ended, in the same
state at both, or its promise is still pending. -/
structure Settled (runner_id id : String) (s : System) : Prop where
  legal : LegalPath .delivered (acksOf id s.runner.created)
  agrees : s.runner.reconciled = true → s.stores.eventsFor runner_id = s.runner.created →
    ∀ state, s.runner.file.executionState id = some state →
      state.isTerminal = true ∧ stateOf s.stores id = some state ∨
        state = .executing ∧ ∃ p ∈ s.runner.pending, p.commandId = id

theorem Agree.settled {runner_id id : String} {s : System} (h : Agree runner_id id s) :
    Settled runner_id id s := by
  refine ⟨h.tracks.fits.legal, fun hr hall state hx => ?_⟩
  have hfits := h.tracks.fits
  rw [hx] at hfits
  rcases hfits with ⟨rfl, -⟩ | ⟨ht, hword⟩
  · have hin := h.healthy.rest.reaped hr id (by simp) hx
    exact .inr ⟨rfl, h.healthy.rest.alive id (by simp) hx hin⟩
  · left
    refine ⟨ht, ?_⟩
    -- the end was acknowledged
    have htomb := (h.healthy.rest.acked hr id (by simp) state hx ht).resolve_left
      (by rw [h.tracks.unfenced]; decide)
    obtain ⟨state', -, hx', hmem⟩ := h.once.entombed id htomb
    rw [hx] at hx'
    cases hx'
    have hsent := h.sent (h.known (by rw [hx]; exact Option.some_ne_none _))
    rw [hsent, hall]
    rcases hword with hmay | ⟨before, hw, hmay⟩
    · exfalso
      rcases hmay.ongoing with hw | ⟨k, hw⟩
      · rw [hw] at hmem; cases hmem
      · rw [hw] at hmem
        rcases List.mem_cons.mp hmem with rfl | hmem
        · cases ht
        · rw [(List.mem_replicate.mp hmem).2] at ht; cases ht
    · rw [hw, hmay.reached]

def launch : CommandEnvelope := ⟨"c", "chain", "r", 1, 0, 100, .launch_run "run" (some "run")⟩

end Norns.Relay.Settlement
