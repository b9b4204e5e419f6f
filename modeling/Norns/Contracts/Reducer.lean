import Mathlib.Data.List.Induction
import Norns.Contracts.Lifecycle
import Norns.Lib.OrdMap

/-! # The lifecycle reducer

`reducer.ts`: the state of every node is a fold over the log of lifecycle events. An event whose id
was seen before is skipped, one whose transition is not allowed is recorded as rejected.

The nodes are the properties of an object literal, so that looking up a name which every object
inherits (`objectPrototypeKeys`) finds something that is no snapshot: the first event of such a node
makes the reducer throw.

* `replay`: what the events of one node lead to;
* `reduceLifecycle_spec`: the reducer throws exactly when an event names an inherited property, and
  otherwise gives every node the snapshot its own events lead to;
* `reduceLifecycle_insert`: an event that was seen before changes nothing. -/

namespace Norns.Contracts.Reducer

open Norns.Lib Norns.Contracts.Lifecycle

structure LifecycleEvent where
  event_id : String
  node_id : String
  /-- `to` -/
  target : NodeState
  reason : Option String := none
  deriving DecidableEq, Repr

structure NodeSnapshot where
  state : NodeState
  history : List NodeState
  deriving DecidableEq, Repr

structure RejectedEvent where
  event_id : String
  reason : String
  deriving DecidableEq, Repr

structure ReducedState where
  nodes : OrdMap String NodeSnapshot
  applied_event_ids : List String
  rejected : List RejectedEvent
  deriving DecidableEq

/-- What JavaScript throws when it reads a property of `undefined`. -/
structure TypeError where
  message : String
  deriving DecidableEq, Repr

/-- The properties an object literal has from `Object.prototype`. -/
def objectPrototypeKeys : List String :=
  ["constructor", "__defineGetter__", "__defineSetter__", "hasOwnProperty", "__lookupGetter__",
    "__lookupSetter__", "isPrototypeOf", "propertyIsEnumerable", "toString", "valueOf", "__proto__",
    "toLocaleString"]

def INITIAL_STATE : NodeState := .pending

def NodeSnapshot.initial : NodeSnapshot := ⟨INITIAL_STATE, [INITIAL_STATE]⟩

/-- The loop's variables: the set of ids so far and the result so far. -/
structure Reducing where
  seen : List String
  reduced : ReducedState
  deriving DecidableEq

/-- Apply the event to the node found for it, or reject it. -/
def applyEvent (r : ReducedState) (event : LifecycleEvent) (node : NodeSnapshot) : ReducedState :=
  if canTransition node.state event.target then
    { r with
      nodes := r.nodes.set event.node_id ⟨event.target, node.history ++ [event.target]⟩
      applied_event_ids := r.applied_event_ids ++ [event.event_id] }
  else
    { r with rejected := r.rejected ++ [{
        event_id := event.event_id
        reason := "invalid transition " ++ node.state.text ++ " -> " ++ event.target.text ++
          " for node " ++ event.node_id }] }

def reduceEvent (r : Reducing) (event : LifecycleEvent) : Except TypeError Reducing :=
  if event.event_id ∈ r.seen then .ok r
  else
    match r.reduced.nodes.get? event.node_id with
    | some node => .ok ⟨r.seen ++ [event.event_id], applyEvent r.reduced event node⟩
    | none =>
      -- an inherited property is found, and its state is undefined
      if event.node_id ∈ objectPrototypeKeys then
        .error ⟨"Cannot read properties of undefined (reading 'includes')"⟩
      else .ok ⟨r.seen ++ [event.event_id], applyEvent r.reduced event .initial⟩

def Reducing.start : Reducing := ⟨[], OrdMap.empty, [], []⟩

def reduceLifecycle (events : List LifecycleEvent) : Except TypeError ReducedState :=
  Reducing.reduced <$> events.foldlM reduceEvent .start

/-! ### The fold of one node -/

/-- One event of the node. -/
def NodeSnapshot.next (node : NodeSnapshot) (target : NodeState) : NodeSnapshot :=
  if canTransition node.state target then ⟨target, node.history ++ [target]⟩ else node

/-- What the events of `nodeId` lead to. -/
def replay (nodeId : String) (events : List LifecycleEvent) : NodeSnapshot :=
  (events.filter fun event => decide (event.node_id = nodeId)).foldl
    (fun node event => node.next event.target) .initial

def noteFirst (firsts : List LifecycleEvent) (event : LifecycleEvent) : List LifecycleEvent :=
  if event.event_id ∈ firsts.map LifecycleEvent.event_id then firsts else firsts ++ [event]

/-- The first event of each id. -/
def firstOccurrences (events : List LifecycleEvent) : List LifecycleEvent :=
  events.foldl noteFirst []

theorem replay_concat_self (events : List LifecycleEvent) (event : LifecycleEvent) :
    replay event.node_id (events ++ [event]) =
      (replay event.node_id events).next event.target := by
  unfold replay
  rw [List.filter_append, List.foldl_append]
  simp

theorem replay_concat_ne {nodeId : String} (events : List LifecycleEvent) {event : LifecycleEvent}
    (h : event.node_id ≠ nodeId) : replay nodeId (events ++ [event]) = replay nodeId events := by
  unfold replay
  rw [List.filter_append, List.foldl_append]
  simp [h]

theorem replay_of_notMem {nodeId : String} {events : List LifecycleEvent}
    (h : ∀ event ∈ events, event.node_id ≠ nodeId) : replay nodeId events = .initial := by
  unfold replay
  rw [List.filter_eq_nil_iff.mpr fun event hevent => by simpa using h event hevent]
  rfl

theorem replay_concat (nodeId : String) (events : List LifecycleEvent) (event : LifecycleEvent) :
    replay nodeId (events ++ [event]) = replay nodeId events ∨
      replay nodeId (events ++ [event]) = (replay nodeId events).next event.target := by
  by_cases h : event.node_id = nodeId
  · subst h; exact .inr (replay_concat_self events event)
  · exact .inl (replay_concat_ne events h)

/-- The state is the last of the history. -/
theorem replay_history (nodeId : String) (events : List LifecycleEvent) :
    (replay nodeId events).history.getLast? = some (replay nodeId events).state := by
  induction events using List.reverseRecOn with
  | nil => rfl
  | append_singleton events event ih =>
    rcases replay_concat nodeId events event with h | h
    · rw [h]; exact ih
    · rw [h]
      unfold NodeSnapshot.next
      split
      · simp
      · exact ih

theorem firstOccurrences_concat (events : List LifecycleEvent) (event : LifecycleEvent) :
    firstOccurrences (events ++ [event]) = noteFirst (firstOccurrences events) event := by
  unfold firstOccurrences
  rw [List.foldl_append]; rfl

theorem firstOccurrences_of_nodup {events : List LifecycleEvent}
    (h : (events.map LifecycleEvent.event_id).Nodup) : firstOccurrences events = events := by
  induction events using List.reverseRecOn with
  | nil => rfl
  | append_singleton events event ih =>
    rw [List.map_append, List.nodup_append] at h
    obtain ⟨hevents, -, hnew⟩ := h
    rw [firstOccurrences_concat, ih hevents]
    unfold noteFirst
    rw [if_neg]
    intro hmem
    exact hnew _ hmem event.event_id (by simp) rfl

/-! ### The reducer -/

/-- An event names a property that every object inherits. -/
def NamesInherited (events : List LifecycleEvent) : Prop :=
  ∃ event ∈ events, event.node_id ∈ objectPrototypeKeys

/-- The loop after the events whose first occurrences are `firsts`. -/
structure Replays (r : Reducing) (firsts : List LifecycleEvent) : Prop where
  seen : r.seen = firsts.map LifecycleEvent.event_id
  nodes : ∀ nodeId, (r.reduced.nodes.get? nodeId).getD .initial = replay nodeId firsts
  /-- No own property hides an inherited one. -/
  own : ∀ nodeId ∈ objectPrototypeKeys, r.reduced.nodes.get? nodeId = none

theorem Replays.applyEvent {r : Reducing} {firsts : List LifecycleEvent} (h : Replays r firsts)
    {event : LifecycleEvent} (hown : event.node_id ∉ objectPrototypeKeys) :
    Replays ⟨r.seen ++ [event.event_id],
      Reducer.applyEvent r.reduced event (replay event.node_id firsts)⟩ (firsts ++ [event]) := by
  refine ⟨by simp [h.seen], fun nodeId => ?_, fun nodeId hkey => ?_⟩
  · unfold Reducer.applyEvent
    by_cases hn : event.node_id = nodeId
    · subst hn
      rw [replay_concat_self]
      unfold NodeSnapshot.next
      split
      · simp
      · exact h.nodes event.node_id
    · rw [replay_concat_ne firsts hn]
      split
      · rw [OrdMap.get?_set_ne _ _ hn]; exact h.nodes nodeId
      · exact h.nodes nodeId
  · unfold Reducer.applyEvent
    have hne : event.node_id ≠ nodeId := fun he => hown (he ▸ hkey)
    split
    · rw [OrdMap.get?_set_ne _ _ hne]; exact h.own nodeId hkey
    · exact h.own nodeId hkey

/-- One iteration. -/
theorem Replays.reduceEvent {r : Reducing} {firsts : List LifecycleEvent} (h : Replays r firsts)
    (event : LifecycleEvent) :
    (event.event_id ∉ r.seen ∧ event.node_id ∈ objectPrototypeKeys ∧
      ∃ error, reduceEvent r event = .error error) ∨
    ((event.event_id ∈ r.seen ∨ event.node_id ∉ objectPrototypeKeys) ∧
      ∃ r', reduceEvent r event = .ok r' ∧ Replays r' (noteFirst firsts event)) := by
  unfold Reducer.reduceEvent noteFirst
  rw [← h.seen]
  by_cases hseen : event.event_id ∈ r.seen
  · rw [if_pos hseen, if_pos hseen]
    exact .inr ⟨.inl hseen, r, rfl, h⟩
  rw [if_neg hseen, if_neg hseen]
  have hnode := h.nodes event.node_id
  by_cases hkey : event.node_id ∈ objectPrototypeKeys
  · rw [h.own _ hkey]
    exact .inl ⟨hseen, hkey, _, if_pos hkey⟩
  · refine .inr ⟨.inr hkey, ⟨_, Reducer.applyEvent r.reduced event (replay event.node_id firsts)⟩, ?_,
      h.applyEvent hkey⟩
    rcases hg : r.reduced.nodes.get? event.node_id with _ | node
    · rw [hg] at hnode
      simp only [if_neg hkey, ← hnode, Option.getD_none]
    · rw [hg] at hnode
      simp only [← hnode, Option.getD_some]

theorem foldlM_reduceEvent (events : List LifecycleEvent) :
    (NamesInherited (firstOccurrences events) ∧
      ∃ error, events.foldlM reduceEvent .start = .error error) ∨
    (¬ NamesInherited (firstOccurrences events) ∧
      ∃ r, events.foldlM reduceEvent .start = .ok r ∧ Replays r (firstOccurrences events)) := by
  induction events using List.reverseRecOn with
  | nil =>
    refine .inr ⟨?_, .start, rfl, rfl, fun _ => rfl, fun _ _ => rfl⟩
    rintro ⟨event, hevent, -⟩
    simp [firstOccurrences] at hevent
  | append_singleton events event ih =>
    have hsub : ∀ e ∈ firstOccurrences events, e ∈ firstOccurrences (events ++ [event]) := by
      intro e he
      rw [firstOccurrences_concat]
      unfold noteFirst
      split
      · exact he
      · exact List.mem_append_left _ he
    rw [List.foldlM_append]
    rcases ih with ⟨⟨e, he, hkey⟩, error, hfold⟩ | ⟨hnot, r, hfold, hr⟩
    · exact .inl ⟨⟨e, hsub e he, hkey⟩, error, by rw [hfold]; rfl⟩
    · have hstep : (do let r' ← events.foldlM reduceEvent .start; [event].foldlM reduceEvent r') =
          reduceEvent r event := by
        rw [hfold]
        show [event].foldlM reduceEvent r = _
        rw [List.foldlM_cons]
        exact bind_pure _
      rw [hstep, firstOccurrences_concat]
      rcases hr.reduceEvent event with ⟨hseen, hkey, error, herr⟩ | ⟨hwhy, r', hok, hr'⟩
      · refine .inl ⟨⟨event, ?_, hkey⟩, error, herr⟩
        unfold noteFirst
        rw [← hr.seen, if_neg hseen]
        simp
      · refine .inr ⟨?_, r', hok, hr'⟩
        rintro ⟨e, he, hkey⟩
        unfold noteFirst at he
        rw [← hr.seen] at he
        split at he
        · exact hnot ⟨e, he, hkey⟩
        · rename_i hseen
          rcases List.mem_append.mp he with he | he
          · exact hnot ⟨e, he, hkey⟩
          · rw [List.mem_singleton.mp he] at hkey
            exact hwhy.elim hseen fun h => h hkey

/-- **The reducer is a fold per node**, unless an event names an inherited property. -/
theorem reduceLifecycle_spec (events : List LifecycleEvent) :
    (NamesInherited (firstOccurrences events) ∧ ∃ error, reduceLifecycle events = .error error) ∨
    (¬ NamesInherited (firstOccurrences events) ∧ ∃ r, reduceLifecycle events = .ok r ∧
      ∀ nodeId, (r.nodes.get? nodeId).getD .initial = replay nodeId (firstOccurrences events)) := by
  unfold reduceLifecycle
  rcases foldlM_reduceEvent events with ⟨hkey, error, hfold⟩ | ⟨hnot, r, hfold, hr⟩
  · exact .inl ⟨hkey, error, by rw [hfold]; rfl⟩
  · exact .inr ⟨hnot, r.reduced, by rw [hfold]; rfl, hr.nodes⟩

/-! ### Redelivery -/

theorem mem_ids_firstOccurrences {id : String} (events : List LifecycleEvent) :
    id ∈ (firstOccurrences events).map LifecycleEvent.event_id ↔
      id ∈ events.map LifecycleEvent.event_id := by
  induction events using List.reverseRecOn with
  | nil => exact Iff.rfl
  | append_singleton events event ih =>
    rw [firstOccurrences_concat, List.map_append, List.mem_append, ← ih]
    unfold noteFirst
    split
    · rename_i hmem
      refine ⟨.inl, fun h => h.elim (fun h => h) fun h => ?_⟩
      rw [List.mem_singleton.mp h]
      exact hmem
    · rw [List.map_append, List.mem_append]

/-- **Idempotence.** A repeat of an event that was seen is skipped. -/
theorem reduceLifecycle_insert {event : LifecycleEvent} {seen rest : List LifecycleEvent}
    (h : event.event_id ∈ seen.map LifecycleEvent.event_id) :
    reduceLifecycle (seen ++ event :: rest) = reduceLifecycle (seen ++ rest) := by
  unfold reduceLifecycle
  rw [List.foldlM_append, List.foldlM_append]
  rcases foldlM_reduceEvent seen with ⟨-, error, hfold⟩ | ⟨-, r, hfold, hr⟩
  · rw [hfold]
    rfl
  · have hskip : reduceEvent r event = .ok r := by
      refine if_pos ?_
      rw [hr.seen, mem_ids_firstOccurrences]
      exact h
    rw [hfold]
    show Reducing.reduced <$> (reduceEvent r event >>= fun r => rest.foldlM reduceEvent r) = _
    rw [hskip]

/-- `events'` repeats some of the events later, any number of times. -/
inductive Redelivers (events : List LifecycleEvent) : List LifecycleEvent → Prop
  | refl : Redelivers events events
  | insert {event : LifecycleEvent} {seen rest : List LifecycleEvent}
      (h : Redelivers events (seen ++ rest))
      (hseen : event.event_id ∈ seen.map LifecycleEvent.event_id) :
      Redelivers events (seen ++ event :: rest)

theorem reduceLifecycle_redelivers {events events' : List LifecycleEvent}
    (h : Redelivers events events') : reduceLifecycle events' = reduceLifecycle events := by
  induction h with
  | refl => rfl
  | insert _ hseen ih => rw [reduceLifecycle_insert hseen, ih]

/-- The reducer returns, with the fold of every node, and redelivery changes nothing. -/
def FoldsPerNode (events : List LifecycleEvent) : Prop :=
  ∃ r, reduceLifecycle events = .ok r ∧
    (∀ nodeId, (r.nodes.get? nodeId).getD .initial = replay nodeId (firstOccurrences events)) ∧
    ∀ events', Redelivers events events' → reduceLifecycle events' = .ok r

/-- **The reducer folds per node and ignores redelivery** exactly if no first occurrence names a
property that every object inherits. -/
theorem foldsPerNode_iff (events : List LifecycleEvent) :
    FoldsPerNode events ↔ ¬ NamesInherited (firstOccurrences events) := by
  rcases reduceLifecycle_spec events with ⟨hkey, error, hr⟩ | ⟨hnot, r, hr, hnodes⟩
  · refine iff_of_false ?_ (not_not.mpr hkey)
    rintro ⟨r, hr', -⟩
    cases hr.symm.trans hr'
  · refine iff_of_true ⟨r, hr, hnodes, fun events' h => ?_⟩ hnot
    rw [reduceLifecycle_redelivers h, hr]

/-- A module may be called `constructor`. -/
theorem constructor_throws : ¬ FoldsPerNode [⟨"evt_1", "constructor", .ready, none⟩] := by
  rw [foldsPerNode_iff, not_not]
  exact ⟨⟨"evt_1", "constructor", .ready, none⟩, List.mem_singleton_self _, by decide⟩

end Norns.Contracts.Reducer
