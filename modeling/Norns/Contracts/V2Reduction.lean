import Norns.Contracts.V2Lifecycle

/-! # Reducing a V2 lifecycle stream

`reduceV2Lifecycle` of `v2/lifecycle.ts` folds the events of one task or one run into its state and
version. An event that does not follow is rejected; an id that was seen before, applied or rejected,
is skipped.

* `reduce_seen`: a redelivery changes nothing;
* `Agree.foldl`: two folds that differ in what they saw go the same way over events that one of them
  skips and that are too old for the other;
* `reduction_from_checkpoint`: reducing a tail from the position that the head reached. -/

namespace Norns.Contracts.V2Reduction

open Norns.Contracts.V2Lifecycle

/-! ### The reducer -/

structure TransitionEvent (TState : Type) where
  event_id : String
  lifecycle_version : ℕ
  from_ : TState
  to_ : TState
  deriving DecidableEq, Repr

structure V2LifecycleReduction (TState : Type) where
  state : TState
  version : ℕ
  applied_event_ids : List String := []
  rejected_event_ids : List String := []
  deriving DecidableEq, Repr

/-- The variables of the loop. -/
structure Fold (TState : Type) extends V2LifecycleReduction TState where
  seen : List String := []
  deriving DecidableEq, Repr

variable {TState : Type} [DecidableEq TState]

/-- The event is legal where the fold stands. -/
def Follows (canTransition : TState → TState → Bool) (state : TState) (version : ℕ)
    (event : TransitionEvent TState) : Prop :=
  event.from_ = state ∧ event.lifecycle_version = version + 1 ∧
    canTransition state event.to_ = true

instance (canTransition : TState → TState → Bool) (state : TState) (version : ℕ)
    (event : TransitionEvent TState) : Decidable (Follows canTransition state version event) :=
  inferInstanceAs (Decidable (_ ∧ _ ∧ _))

/-- One event of the loop. -/
def reduceEvent (canTransition : TState → TState → Bool) (fold : Fold TState)
    (event : TransitionEvent TState) : Fold TState :=
  if event.event_id ∈ fold.seen then fold
  else if Follows canTransition fold.state fold.version event then
    { state := event.to_, version := event.lifecycle_version
      applied_event_ids := fold.applied_event_ids ++ [event.event_id]
      rejected_event_ids := fold.rejected_event_ids, seen := fold.seen ++ [event.event_id] }
  else
    { fold with
      rejected_event_ids := fold.rejected_event_ids ++ [event.event_id]
      seen := fold.seen ++ [event.event_id] }

/-- The fold over the events. -/
def foldEvents (canTransition : TState → TState → Bool) (fold : Fold TState)
    (events : List (TransitionEvent TState)) : Fold TState :=
  events.foldl (reduceEvent canTransition) fold

/-- The variables at the start of the loop. -/
def initial (initialState : TState) (initialVersion : ℕ) : Fold TState :=
  { state := initialState, version := initialVersion }

def reduceV2Lifecycle (initialState : TState) (initialVersion : ℕ)
    (events : List (TransitionEvent TState)) (canTransition : TState → TState → Bool) :
    V2LifecycleReduction TState :=
  (foldEvents canTransition (initial initialState initialVersion) events).toV2LifecycleReduction

def reduceV2TaskLifecycle (initialState : V2TaskState) (initialVersion : ℕ)
    (events : List (TransitionEvent V2TaskState)) : V2LifecycleReduction V2TaskState :=
  reduceV2Lifecycle initialState initialVersion events v2CanTaskTransition

def reduceV2AgentRunLifecycle (initialState : V2AgentRunState) (initialVersion : ℕ)
    (events : List (TransitionEvent V2AgentRunState)) : V2LifecycleReduction V2AgentRunState :=
  reduceV2Lifecycle initialState initialVersion events v2CanAgentRunTransition

/-! ### What is applied -/

/-- The event is applied. -/
def Accepts (canTransition : TState → TState → Bool) (fold : Fold TState)
    (event : TransitionEvent TState) : Prop :=
  event.event_id ∉ fold.seen ∧ Follows canTransition fold.state fold.version event

instance (canTransition : TState → TState → Bool) (fold : Fold TState)
    (event : TransitionEvent TState) : Decidable (Accepts canTransition fold event) :=
  inferInstanceAs (Decidable (_ ∧ _))

/-- The events that the fold applies, in order. -/
def acceptedFrom (canTransition : TState → TState → Bool) :
    Fold TState → List (TransitionEvent TState) → List (TransitionEvent TState)
  | _, [] => []
  | fold, event :: events =>
    (if Accepts canTransition fold event then [event] else []) ++
      acceptedFrom canTransition (reduceEvent canTransition fold event) events

def accepted (initialState : TState) (initialVersion : ℕ) (events : List (TransitionEvent TState))
    (canTransition : TState → TState → Bool) : List (TransitionEvent TState) :=
  acceptedFrom canTransition (initial initialState initialVersion) events

/-- The same state and the same version. -/
def SamePosition (a b : V2LifecycleReduction TState) : Prop :=
  a.state = b.state ∧ a.version = b.version

instance (a b : V2LifecycleReduction TState) : Decidable (SamePosition a b) :=
  inferInstanceAs (Decidable (_ ∧ _))

section

variable {canTransition : TState → TState → Bool} {f g : Fold TState}
  {event : TransitionEvent TState} {events : List (TransitionEvent TState)} {ids : List String}

/-! ### One event -/

theorem reduceEvent_seen (h : event.event_id ∈ f.seen) : reduceEvent canTransition f event = f :=
  if_pos h

theorem reduceEvent_accepts (h : Accepts canTransition f event) :
    (reduceEvent canTransition f event).state = event.to_ ∧
      (reduceEvent canTransition f event).version = f.version + 1 := by
  unfold reduceEvent
  rw [if_neg h.1, if_pos h.2]
  exact ⟨rfl, h.2.2.1⟩

theorem reduceEvent_not_accepts (h : ¬ Accepts canTransition f event) :
    (reduceEvent canTransition f event).state = f.state ∧
      (reduceEvent canTransition f event).version = f.version := by
  unfold reduceEvent
  split
  · exact ⟨rfl, rfl⟩
  · rename_i hseen
    rw [if_neg fun hfollows => h ⟨hseen, hfollows⟩]
    exact ⟨rfl, rfl⟩

theorem mem_seen_reduceEvent {id : String} :
    id ∈ (reduceEvent canTransition f event).seen ↔ id ∈ f.seen ∨ id = event.event_id := by
  unfold reduceEvent
  split
  · rename_i hseen
    constructor
    · exact .inl
    · rintro (h | rfl)
      · exact h
      · exact hseen
  · split <;> simp

/-- A version goes up by one or stays. -/
theorem version_le : f.version ≤ (reduceEvent canTransition f event).version := by
  by_cases h : Accepts canTransition f event
  · rw [(reduceEvent_accepts h).2]
    omega
  · exact Nat.le_of_eq (reduceEvent_not_accepts h).2.symm

theorem version_le_foldEvents :
    ∀ (events : List (TransitionEvent TState)) (f : Fold TState),
      f.version ≤ (foldEvents canTransition f events).version
  | [], _ => Nat.le_refl _
  | event :: events, f =>
    Nat.le_trans version_le (version_le_foldEvents events (reduceEvent canTransition f event))

theorem mem_seen_foldEvents {id : String} :
    ∀ (events : List (TransitionEvent TState)) (f : Fold TState),
      id ∈ (foldEvents canTransition f events).seen ↔
        id ∈ f.seen ∨ id ∈ events.map TransitionEvent.event_id
  | [], f => by simp [foldEvents]
  | event :: events, f => by
    have ih := @mem_seen_foldEvents id events (reduceEvent canTransition f event)
    change id ∈ (foldEvents canTransition (reduceEvent canTransition f event) events).seen ↔ _
    rw [ih, mem_seen_reduceEvent, List.map_cons, List.mem_cons, or_assoc]

/-! ### Redeliveries -/

/-- **A redelivery changes nothing**, whether the event was applied or rejected before. -/
theorem foldEvents_seen {pre post : List (TransitionEvent TState)}
    (h : event.event_id ∈ pre.map TransitionEvent.event_id) :
    foldEvents canTransition f (pre ++ event :: post) =
      foldEvents canTransition f (pre ++ post) := by
  unfold foldEvents
  rw [List.foldl_append, List.foldl_append, List.foldl_cons]
  congr 1
  exact reduceEvent_seen ((mem_seen_foldEvents pre f).mpr (.inr h))

/-! ### Folds that saw different ids -/

/-- The folds stand at one position; `f` has seen all of `ids`, and elsewhere they saw the same. -/
structure Agree (ids : List String) (f g : Fold TState) : Prop where
  state : f.state = g.state
  version : f.version = g.version
  knows : ∀ id ∈ ids, id ∈ f.seen
  same : ∀ id, id ∉ ids → (id ∈ f.seen ↔ id ∈ g.seen)

theorem Agree.reduceEvent (h : Agree ids f g)
    (hold : event.event_id ∈ ids → event.lifecycle_version ≤ g.version) :
    Agree ids (reduceEvent canTransition f event) (reduceEvent canTransition g event) := by
  have hsame : ∀ id, id ∉ ids → (id ∈ (V2Reduction.reduceEvent canTransition f event).seen ↔
      id ∈ (V2Reduction.reduceEvent canTransition g event).seen) := by
    intro id hid
    rw [mem_seen_reduceEvent, mem_seen_reduceEvent, h.same id hid]
  have hknows : ∀ id ∈ ids, id ∈ (V2Reduction.reduceEvent canTransition f event).seen :=
    fun id hid => mem_seen_reduceEvent.mpr (.inl (h.knows id hid))
  by_cases hmem : event.event_id ∈ ids
  · -- `f` skips the event, and for `g` it is too old
    have hrejected : ¬ Accepts canTransition g event := by
      intro haccepts
      have hnext := haccepts.2.2.1
      have hle := hold hmem
      omega
    have hskip : V2Reduction.reduceEvent canTransition f event = f :=
      reduceEvent_seen (h.knows _ hmem)
    obtain ⟨hstate, hversion⟩ := reduceEvent_not_accepts hrejected
    refine ⟨?_, ?_, hknows, hsame⟩
    · rw [hskip, hstate]
      exact h.state
    · rw [hskip, hversion]
      exact h.version
  · have hiff : Accepts canTransition f event ↔ Accepts canTransition g event := by
      unfold Accepts
      rw [h.same _ hmem, h.state, h.version]
    by_cases haccepts : Accepts canTransition f event
    · obtain ⟨hstate, hversion⟩ := reduceEvent_accepts haccepts
      obtain ⟨hstate', hversion'⟩ := reduceEvent_accepts (hiff.mp haccepts)
      refine ⟨hstate.trans hstate'.symm, ?_, hknows, hsame⟩
      rw [hversion, hversion', h.version]
    · obtain ⟨hstate, hversion⟩ := reduceEvent_not_accepts haccepts
      obtain ⟨hstate', hversion'⟩ := reduceEvent_not_accepts fun hg => haccepts (hiff.mpr hg)
      refine ⟨?_, ?_, hknows, hsame⟩
      · rw [hstate, hstate', h.state]
      · rw [hversion, hversion', h.version]

/-- **Two folds agree** over events that are old where one of them skips. -/
theorem Agree.foldEvents : ∀ {events : List (TransitionEvent TState)} {f g : Fold TState},
    Agree ids f g →
    (∀ event ∈ events, event.event_id ∈ ids → event.lifecycle_version ≤ g.version) →
    Agree ids (foldEvents canTransition f events) (foldEvents canTransition g events)
  | [], _, _, h, _ => h
  | event :: events, f, g, h, hold => by
    refine (h.reduceEvent (hold event List.mem_cons_self)).foldEvents fun other hother hmem => ?_
    exact Nat.le_trans (hold other (List.mem_cons_of_mem _ hother) hmem) version_le

/-! ### The accepted events -/

theorem acceptedFrom_cons : acceptedFrom canTransition f (event :: events) =
    (if Accepts canTransition f event then [event] else []) ++
      acceptedFrom canTransition (reduceEvent canTransition f event) events := rfl

theorem acceptedFrom_version : ∀ (events : List (TransitionEvent TState)) (f : Fold TState),
    ∀ event ∈ acceptedFrom canTransition f events,
      event.lifecycle_version ≤ (foldEvents canTransition f events).version
  | [], _, _, h => absurd h List.not_mem_nil
  | first :: events, f, event, h => by
    rcases List.mem_append.mp h with h | h
    · split at h
      · rename_i haccepts
        rw [List.mem_singleton.mp h, haccepts.2.2.1, ← (reduceEvent_accepts haccepts).2]
        exact version_le_foldEvents events _
      · exact absurd h List.not_mem_nil
    · exact acceptedFrom_version events _ event h

/-- Folding the accepted events alone leads to the same position. -/
theorem foldEvents_acceptedFrom : ∀ (events : List (TransitionEvent TState)) (f g : Fold TState),
    g.state = f.state → g.version = f.version → (∀ id ∈ g.seen, id ∈ f.seen) →
    (foldEvents canTransition g (acceptedFrom canTransition f events)).state =
        (foldEvents canTransition f events).state ∧
      (foldEvents canTransition g (acceptedFrom canTransition f events)).version =
        (foldEvents canTransition f events).version
  | [], _, _, hstate, hversion, _ => ⟨hstate, hversion⟩
  | event :: events, f, g, hstate, hversion, hseen => by
    have ih := foldEvents_acceptedFrom events (reduceEvent canTransition f event)
    by_cases haccepts : Accepts canTransition f event
    · have haccepts' : Accepts canTransition g event := by
        unfold Accepts at haccepts ⊢
        rw [hstate, hversion]
        exact ⟨fun hmem => haccepts.1 (hseen _ hmem), haccepts.2⟩
      obtain ⟨hto, hnext⟩ := reduceEvent_accepts haccepts
      obtain ⟨hto', hnext'⟩ := reduceEvent_accepts haccepts'
      have hlist : acceptedFrom canTransition f (event :: events) =
          event :: acceptedFrom canTransition (reduceEvent canTransition f event) events := by
        rw [acceptedFrom_cons, if_pos haccepts]
        rfl
      rw [hlist]
      refine ih (reduceEvent canTransition g event) (hto'.trans hto.symm) ?_ fun id hid => ?_
      · rw [hnext', hnext, hversion]
      · rcases mem_seen_reduceEvent.mp hid with hmem | rfl
        · exact mem_seen_reduceEvent.mpr (.inl (hseen id hmem))
        · exact mem_seen_reduceEvent.mpr (.inr rfl)
    · obtain ⟨hto, hnext⟩ := reduceEvent_not_accepts haccepts
      have hlist : acceptedFrom canTransition f (event :: events) =
          acceptedFrom canTransition (reduceEvent canTransition f event) events := by
        rw [acceptedFrom_cons, if_neg haccepts]
        rfl
      rw [hlist]
      exact ih g (hstate.trans hto.symm) (hversion.trans hnext.symm) fun id hid =>
        mem_seen_reduceEvent.mpr (.inl (hseen id hid))

/-- An id of the stream is that of an accepted event, or was rejected. -/
theorem mem_ids_cases {id : String} : ∀ (events : List (TransitionEvent TState)) (f : Fold TState),
    id ∈ events.map TransitionEvent.event_id → id ∈ f.seen ∨
      id ∈ (acceptedFrom canTransition f events).map TransitionEvent.event_id ∨
      id ∈ (foldEvents canTransition f events).rejected_event_ids
  | [], _, h => absurd h List.not_mem_nil
  | event :: events, f, h => by
    have hrejected : ∀ (events : List (TransitionEvent TState)) (f : Fold TState),
        id ∈ f.rejected_event_ids → id ∈ (foldEvents canTransition f events).rejected_event_ids := by
      intro events
      induction events with
      | nil => exact fun _ hmem => hmem
      | cons event events ih =>
        intro f hmem
        refine ih (reduceEvent canTransition f event) ?_
        unfold reduceEvent
        split
        · exact hmem
        · split
          · exact hmem
          · exact List.mem_append_left _ hmem
    by_cases hid : id = event.event_id
    · subst hid
      by_cases hseen : event.event_id ∈ f.seen
      · exact .inl hseen
      · by_cases haccepts : Accepts canTransition f event
        · refine .inr (.inl ?_)
          rw [acceptedFrom_cons, if_pos haccepts]
          exact List.mem_cons_self
        · refine .inr (.inr (hrejected events _ ?_))
          unfold reduceEvent
          rw [if_neg hseen, if_neg fun hfollows => haccepts ⟨hseen, hfollows⟩]
          exact List.mem_append_right _ (List.mem_singleton.mpr rfl)
    · have hmem := (List.mem_cons.mp h).resolve_left hid
      rcases mem_ids_cases events (reduceEvent canTransition f event) hmem with hseen | hcases
      · exact .inl ((mem_seen_reduceEvent.mp hseen).resolve_right hid)
      · refine .inr (hcases.imp_left fun haccepted => ?_)
        rw [acceptedFrom_cons, List.map_append]
        exact List.mem_append_right _ haccepted

end

/-! ### Checkpoints -/

/-- **Reducing from a checkpoint.** Let the events of the tail that carry the id of an event accepted
in the head be that event. Reducing the tail from the position of the head is reducing it after the
accepted events of the head: what the head rejected counts when it is delivered again. If nothing that
the head rejected is, it is also reducing the whole. Within one reduction no redelivery counts. -/
theorem reduction_from_checkpoint (canTransition : TState → TState → Bool) (initialState : TState)
    (initialVersion : ℕ) (head tail : List (TransitionEvent TState))
    (hcopies : ∀ event ∈ tail,
      event.event_id ∈ (accepted initialState initialVersion head canTransition).map
        TransitionEvent.event_id →
      event ∈ accepted initialState initialVersion head canTransition) :
    let checkpoint := reduceV2Lifecycle initialState initialVersion head canTransition
    let resumed := reduceV2Lifecycle checkpoint.state checkpoint.version tail canTransition
    SamePosition resumed (reduceV2Lifecycle initialState initialVersion
        (accepted initialState initialVersion head canTransition ++ tail) canTransition) ∧
      ((∀ event ∈ tail, event.event_id ∉ checkpoint.rejected_event_ids) →
        SamePosition (reduceV2Lifecycle initialState initialVersion (head ++ tail) canTransition)
          resumed) ∧
      ∀ (pre post : List (TransitionEvent TState)) (event : TransitionEvent TState),
        event.event_id ∈ pre.map TransitionEvent.event_id →
        reduceV2Lifecycle initialState initialVersion (pre ++ event :: post) canTransition =
          reduceV2Lifecycle initialState initialVersion (pre ++ post) canTransition := by
  intro checkpoint resumed
  have hold : ∀ event ∈ tail, event ∈ accepted initialState initialVersion head canTransition →
      event.lifecycle_version ≤ checkpoint.version :=
    fun event _ hmem => acceptedFrom_version head _ event hmem
  obtain ⟨hstate, hversion⟩ := @foldEvents_acceptedFrom _ _ canTransition head
    (initial initialState initialVersion) (initial initialState initialVersion) rfl rfl
    fun _ hid => hid
  refine ⟨?_, fun hfresh => ?_, fun pre post event hmem => ?_⟩
  · have hagree : Agree
        ((accepted initialState initialVersion head canTransition).map TransitionEvent.event_id)
        (foldEvents canTransition (initial initialState initialVersion)
          (accepted initialState initialVersion head canTransition))
        (initial checkpoint.state checkpoint.version) := by
      refine ⟨hstate, hversion, fun id hid => ?_, fun id hid => ?_⟩
      · exact (mem_seen_foldEvents _ _).mpr (.inr hid)
      · rw [mem_seen_foldEvents]
        simp [initial, hid]
    have hfinal := @Agree.foldEvents _ _ canTransition _ tail _ _ hagree
      fun event hmem hid => hold event hmem (hcopies event hmem hid)
    refine ⟨?_, ?_⟩
    · exact (hfinal.state.symm).trans (by unfold reduceV2Lifecycle foldEvents; rw [List.foldl_append])
    · exact (hfinal.version.symm).trans
        (by unfold reduceV2Lifecycle foldEvents; rw [List.foldl_append])
  · have hagree : Agree (head.map TransitionEvent.event_id)
        (foldEvents canTransition (initial initialState initialVersion) head)
        (initial checkpoint.state checkpoint.version) := by
      refine ⟨rfl, rfl, fun id hid => ?_, fun id hid => ?_⟩
      · exact (mem_seen_foldEvents _ _).mpr (.inr hid)
      · rw [mem_seen_foldEvents]
        simp [initial, hid]
    have hfinal := @Agree.foldEvents _ _ canTransition _ tail _ _ hagree ?_
    · refine ⟨?_, ?_⟩
      · exact Eq.trans (by unfold reduceV2Lifecycle foldEvents; rw [List.foldl_append]) hfinal.state
      · exact Eq.trans (by unfold reduceV2Lifecycle foldEvents; rw [List.foldl_append])
          hfinal.version
    · intro event hmem hid
      rcases @mem_ids_cases _ _ canTransition _ head
        (initial initialState initialVersion) hid with hseen | haccepted | hrejected
      · exact absurd hseen List.not_mem_nil
      · exact hold event hmem (hcopies event hmem haccepted)
      · exact absurd hrejected (hfresh event hmem)
  · exact congrArg Fold.toV2LifecycleReduction (foldEvents_seen hmem)

/-- A gap is rejected in the head and delivered again in the tail, with a duplicate of the event that
fills it. -/
theorem reduction_from_checkpoint_gap :
    let gap : TransitionEvent V2TaskState := ⟨"b", 2, .ready, .assigned⟩
    let first : TransitionEvent V2TaskState := ⟨"a", 1, .pending, .ready⟩
    SamePosition (reduceV2TaskLifecycle .ready 1 [first, gap])
      (reduceV2TaskLifecycle .pending 0 [first, first, gap]) := by
  intro gap first
  exact (reduction_from_checkpoint v2CanTaskTransition .pending 0 [gap, first] [first, gap]
    (by decide)).1

/-- **Rejected for good.** The event after the gap is delivered before the event that fills the gap and
once more after it. Reduced as a whole the stream stops at the filled gap; reduced from the position
after the first delivery it goes on. -/
theorem rejected_for_good :
    let gap : TransitionEvent V2TaskState := ⟨"b", 6, .assigned, .in_progress⟩
    let fills : TransitionEvent V2TaskState := ⟨"a", 5, .ready, .assigned⟩
    let checkpoint := reduceV2TaskLifecycle .ready 4 [gap]
    reduceV2TaskLifecycle .ready 4 ([gap] ++ [fills, gap]) = ⟨.assigned, 5, ["a"], ["b"]⟩ ∧
      reduceV2TaskLifecycle checkpoint.state checkpoint.version [fills, gap] =
        ⟨.in_progress, 6, ["a", "b"], []⟩ := by
  decide

end Norns.Contracts.V2Reduction
