import Mathlib.Data.List.Sublists
import Norns.Lib.Run
import Norns.Server.Gateway

/-! # The order of event ingress

The events of one connection, from its arrival at the handler to its acknowledgement, while the
application of some of them throws. The legacy path looks at the socket again when a callback of the
chain starts; the device path does not.

* `InOrder`: an event is handled only if every earlier one was, and the store changes with what is
  handled only;
* `Placed`: the invariant behind it, kept by every operation (`Placed.step`);
* `ingress_in_order`: the legacy path is in order, and the device path too, and handles the same
  events, as long as nothing waits on the chain when the ingress ends;
* `device_skips_rejected`: otherwise it handles what follows a rejected event. -/

namespace Norns.Server.Ingress

open Norns.Lib Norns.Lib.Run Norns.Contracts.Protocol Norns.Server.Stores Norns.Server.Gateway

/-! ### One connection -/

inductive IngressOp
  | event (event : EventEnvelope)
  | begin
  | finish (applied : Bool) (now : ℕ)
  /-- A socket reconciles as the same runner, or device. -/
  | reconcile (socket : ℕ)
  | close

def step (c : ℕ) (id : String) (generation : ℕ) (s : RelayServer) : IngressOp → RelayServer
  | .event event => s.onMessage c (.event event)
  | .begin => s.begin c
  | .finish applied now => s.finish c applied now
  | .reconcile socket => s.register socket id generation
  | .close => s.onClose c

/-- A socket that a device has authenticated on. -/
def deviceConnection (id : String) (generation : ℕ) : Connection :=
  { Connection.new with
    authenticationState := .authenticated_device
    authedDevice := some (id, generation)
    out := [] }

/-- A socket that a legacy runner has authenticated on. -/
def runnerConnection (id : String) : Connection :=
  { Connection.new with
    authenticationState := .authenticated_legacy_runner
    authedRunnerId := some id
    out := [] }

/-- The server just after the socket has reconciled. -/
def connected (s : RelayServer) (c : ℕ) (id public_key_pem : String) (generation : ℕ)
    (k : Connection) : RelayServer :=
  { s.register c id generation with
    stores := (s.stores.restoreDurableRunnerIdentity id public_key_pem generation).1 }.modify c
      fun _ => k

/-- The event of a callback, with its place among the events that arrived. -/
def place (d : Delivery) : EventEnvelope × ℕ := (d.event, d.index)

/-- The places of the events that were handled, in order. -/
def handledPlaces (k : Connection) : List (EventEnvelope × ℕ) := k.handled.map fun h => place h.1

/-- What the store becomes of the handled events. -/
def handle (initial : RelayStores) (handled : List (Delivery × ℕ)) : RelayStores :=
  handled.foldl (fun stores h => RelayServer.settleEvent stores h.1 h.2) initial

/-- **Ingress in order**: the handled events are the first to have arrived, the store is what they made
of it, and only they are acknowledged. -/
structure InOrder (initial stores : RelayStores) (k : Connection) : Prop where
  handled : handledPlaces k <+: k.arrivals.zipIdx
  stores : stores = handle initial k.handled
  acknowledged : k.acknowledged.Sublist (k.handled.map Prod.fst)
  acks : (k.out.filterMap ServerFrame.ack?).length = k.acknowledged.length

/-- The callbacks that will still be handled if nothing throws. -/
def waiting (path : Option String) (k : Connection) : List Delivery :=
  if path = none then k.runnerEventDelivery else []

/-- The socket is one of the path: of a device, or of the legacy runner that it captures. -/
def OnPath (path : Option String) (k : Connection) : Prop :=
  k.authenticationState ≠ .awaiting ∧
    (path = none → k.authenticationState ≠ .authenticated_legacy_runner ∧ k.authedRunnerId = none) ∧
    ∀ id, path = some id → k.authenticationState ≠ .authenticated_device ∧
      k.authedRunnerId = some id ∧ k.authedDevice = none

/-- **The invariant** of a connection: the handled events, the one applied now and the waiting ones are
the first to have arrived; they are all of them while the ingress is open. -/
structure Placed (path : Option String) (initial stores : RelayStores) (k : Connection) :
    Prop where
  stores : stores = handle initial k.handled
  acknowledged : k.acknowledged.Sublist (k.handled.map Prod.fst)
  acks : (k.out.filterMap ServerFrame.ack?).length = k.acknowledged.length
  captured : ∀ d ∈ k.applying.toList ++ k.runnerEventDelivery, d.authenticatedRunnerId = path
  authenticated : OnPath path k
  placed : handledPlaces k ++ (k.applying.toList ++ waiting path k).map place <+: k.arrivals.zipIdx
  opened : k.runnerEventIngressOpen = true →
    handledPlaces k ++ (k.applying.toList ++ k.runnerEventDelivery).map place = k.arrivals.zipIdx

section Step

variable {path : Option String} {initial stores : RelayStores} {k : Connection} {s : RelayServer}
  {c c' : ℕ}

theorem Placed.inOrder (h : Placed path initial stores k) : InOrder initial stores k :=
  ⟨(List.prefix_append _ _).trans h.placed, h.stores, h.acknowledged, h.acks⟩

@[simp] theorem modify_connections_self (f : Connection → Connection) :
    (s.modify c f).connections c = f (s.connections c) := Function.update_self ..

theorem modify_connections_ne (h : c ≠ c') (f : Connection → Connection) :
    (s.modify c' f).connections c = s.connections c := Function.update_of_ne h ..

/-- The socket is authenticated no longer. -/
theorem OnPath.close (h : OnPath path k) :
    OnPath path { k with authenticationState := .closed } :=
  ⟨by simp, fun hp => ⟨by simp, (h.2.1 hp).2⟩, fun id hp => ⟨by simp, (h.2.2 id hp).2⟩⟩

theorem Placed.closeSocket (h : Placed path initial s.stores (s.connections c)) :
    Placed path initial (s.closeSocket c').stores ((s.closeSocket c').connections c) := by
  by_cases hc : c = c'
  · subst hc
    unfold RelayServer.closeSocket
    rw [modify_connections_self]
    split_ifs
    · exact { h with }
    · exact h
  · unfold RelayServer.closeSocket
    rw [modify_connections_ne hc]
    exact h

/-- A frame that acknowledges nothing. -/
theorem Placed.tell (h : Placed path initial s.stores (s.connections c)) {frame : ServerFrame}
    (hack : frame.ack? = none) :
    Placed path initial (s.sendFrame c frame).stores ((s.sendFrame c frame).connections c) := by
  unfold RelayServer.sendFrame
  split_ifs
  · show Placed path initial s.stores
      ((s.modify c fun k => { k with out := k.out ++ [frame] }).connections c)
    rw [modify_connections_self]
    have hacks : ((s.connections c).out ++ [frame]).filterMap ServerFrame.ack? =
        (s.connections c).out.filterMap ServerFrame.ack? := by
      simp [List.filterMap_append, hack]
    exact { h with acks := by rw [hacks]; exact h.acks }
  · exact h

theorem Placed.rejectRunnerEvents
    (h : Placed path initial s.stores { s.connections c with runnerEventIngressOpen := false })
    (fencedGeneration : Option ℕ) :
    Placed path initial (s.rejectRunnerEvents c fencedGeneration).stores
      ((s.rejectRunnerEvents c fencedGeneration).connections c) := by
  unfold RelayServer.rejectRunnerEvents
  split_ifs with hopen
  · have hshut : Placed path initial s.stores
        ((s.modify c fun k => { k with runnerEventIngressOpen := false }).connections c) := by
      rw [modify_connections_self]
      exact h
    cases fencedGeneration with
    | none => exact hshut.closeSocket
    | some generation => exact (Placed.tell hshut rfl).closeSocket
  · have hk : { s.connections c with runnerEventIngressOpen := false } = s.connections c := by
      rw [← Bool.eq_false_iff.mpr hopen]
    rwa [hk] at h

theorem Placed.rejectDevice
    (h : Placed path initial s.stores { s.connections c with runnerEventIngressOpen := false }) :
    Placed path initial (s.rejectDevice c).stores ((s.rejectDevice c).connections c) := by
  unfold RelayServer.rejectDevice
  refine Placed.closeSocket ?_
  rw [modify_connections_self]
  exact { h with authenticated := h.authenticated.close }

/-- An event arrives and is not queued: the ingress is shut, or will be. -/
theorem Placed.arrive (h : Placed path initial stores k) (event : EventEnvelope) :
    Placed path initial stores
      { k with arrivals := k.arrivals ++ [event], runnerEventIngressOpen := false } := by
  refine { h with placed := ?_, opened := fun ho => by cases ho }
  refine h.placed.trans ?_
  rw [List.zipIdx_append]
  exact List.prefix_append _ _

/-- An event arrives and is queued. -/
theorem Placed.enqueue (h : Placed path initial stores k) (hopen : k.runnerEventIngressOpen = true)
    {d : Delivery} (hindex : d.index = k.arrivals.length) (hpath : d.authenticatedRunnerId = path) :
    Placed path initial stores { k with
      arrivals := k.arrivals ++ [d.event]
      runnerEventDelivery := k.runnerEventDelivery ++ [d] } := by
  have hgrow : (k.arrivals ++ [d.event]).zipIdx = k.arrivals.zipIdx ++ [place d] := by
    rw [List.zipIdx_append]
    simp [place, hindex]
  have hopened : handledPlaces k ++ (k.applying.toList ++
      (k.runnerEventDelivery ++ [d])).map place = (k.arrivals ++ [d.event]).zipIdx := by
    rw [hgrow, ← h.opened hopen]
    simp
  refine { h with captured := fun d' hd => ?_, placed := ?_, opened := fun _ => hopened }
  · simp only [List.mem_append, List.mem_singleton] at hd
    rcases hd with hd | hd | rfl
    · exact h.captured d' (List.mem_append_left _ hd)
    · exact h.captured d' (List.mem_append_right _ hd)
    · exact hpath
  · have hsub : handledPlaces k ++ (k.applying.toList ++
        (if path = none then k.runnerEventDelivery ++ [d] else [])).map place <+:
          handledPlaces k ++ (k.applying.toList ++ (k.runnerEventDelivery ++ [d])).map place := by
      split_ifs
      · exact List.prefix_refl _
      · simp only [List.append_nil, List.map_append, ← List.append_assoc]
        exact ⟨_, by simp only [List.append_assoc]; rfl⟩
    rw [hopened] at hsub
    exact hsub

theorem Placed.onDeviceEvent (h : Placed none initial s.stores (s.connections c)) (id : String)
    (generation : ℕ) (event : EventEnvelope) :
    Placed none initial (s.onDeviceEvent c id generation event).stores
      ((s.onDeviceEvent c id generation event).connections c) := by
  unfold RelayServer.onDeviceEvent
  dsimp only
  split_ifs with hopen
  · unfold RelayServer.enqueue
    rw [modify_connections_self, modify_connections_self]
    exact h.enqueue (d := ⟨event, _, none⟩) hopen.1 rfl rfl
  · refine Placed.rejectDevice ?_
    rw [modify_connections_self]
    exact h.arrive event

theorem Placed.onRunnerEvent {id : String}
    (h : Placed (some id) initial s.stores (s.connections c)) (event : EventEnvelope) :
    Placed (some id) initial (s.onRunnerEvent c id event).stores
      ((s.onRunnerEvent c id event).connections c) := by
  have hshut := h.arrive event
  unfold RelayServer.onRunnerEvent
  dsimp only
  split_ifs with hopen hcur
  · unfold RelayServer.enqueue
    rw [modify_connections_self, modify_connections_self]
    exact h.enqueue (d := ⟨event, _, some id⟩) hopen rfl rfl
  · refine Placed.rejectRunnerEvents ?_ _
    rw [modify_connections_self]
    exact hshut
  · rw [modify_connections_self]
    rw [← Bool.eq_false_iff.mpr hopen] at hshut
    exact hshut

theorem Placed.onMessage (h : Placed path initial s.stores (s.connections c))
    (event : EventEnvelope) :
    Placed path initial (s.onMessage c (.event event)).stores
      ((s.onMessage c (.event event)).connections c) := by
  unfold RelayServer.onMessage
  dsimp only
  rcases path with _ | id
  · split
    · split
      · rename_i hevent
        cases hevent
        exact h.onDeviceEvent _ _ event
      · exact h
    · exact absurd (by assumption) (h.authenticated.2.1 rfl).1
    · exact h
  · obtain ⟨hstate, hid, -⟩ := h.authenticated.2.2 id rfl
    rw [hid]
    split
    · exact absurd (by assumption) hstate
    · dsimp only
      split_ifs
      · exact h.onRunnerEvent event
      · exact h
    · exact h

/-- The callback at the head of the chain starts. -/
theorem Placed.start (h : Placed path initial stores k) {d : Delivery} {rest : List Delivery}
    (hnone : k.applying = none) (hqueue : k.runnerEventDelivery = d :: rest)
    (hopen : path ≠ none → k.runnerEventIngressOpen = true) :
    Placed path initial stores { k with runnerEventDelivery := rest, applying := some d } := by
  have hcaptured := h.captured
  have hopened := h.opened
  have hplaced := h.placed
  unfold waiting at hplaced
  rw [hnone, hqueue] at hcaptured hopened hplaced
  refine { h with captured := hcaptured, opened := hopened, placed := ?_ }
  unfold waiting
  split_ifs with hp
  · rw [if_pos hp] at hplaced
    exact hplaced
  · rw [← hopened (hopen hp)]
    exact ⟨rest.map place, by simp [handledPlaces]⟩

/-- The callback at the head of the chain is skipped. -/
theorem Placed.skip (h : Placed path initial stores k) {d : Delivery} {rest : List Delivery}
    (hpath : path ≠ none) (hqueue : k.runnerEventDelivery = d :: rest) :
    Placed path initial stores
      { k with runnerEventDelivery := rest, runnerEventIngressOpen := false } := by
  have hcaptured := h.captured
  have hplaced := h.placed
  unfold waiting at hplaced
  rw [if_neg hpath] at hplaced
  refine { h with
    captured := fun d' hd => hcaptured d' ?_
    opened := fun ho => by cases ho
    placed := ?_ }
  · rw [hqueue]
    rcases List.mem_append.mp hd with hd | hd
    · exact List.mem_append_left _ hd
    · exact List.mem_append_right _ (List.mem_cons_of_mem _ hd)
  · unfold waiting
    rw [if_neg hpath]
    exact hplaced

theorem Placed.begin (h : Placed path initial s.stores (s.connections c)) :
    Placed path initial (s.begin c).stores ((s.begin c).connections c) := by
  unfold RelayServer.begin
  split
  swap
  · exact h
  rename_i d rest hnone hqueue
  have hpath : d.authenticatedRunnerId = path := h.captured d (by rw [hqueue, hnone]; simp)
  dsimp only
  split
  · rename_i hnull
    rw [modify_connections_self]
    exact h.start hnone hqueue fun hp => absurd (hpath.symm.trans hnull) hp
  · rename_i id hsome
    have hp : path ≠ none := by rw [← hpath, hsome]; exact Option.some_ne_none id
    split_ifs with hopen hcur
    · rw [modify_connections_self]
      exact h.start hnone hqueue fun _ => hopen
    · refine Placed.rejectRunnerEvents ?_ _
      rw [modify_connections_self]
      exact h.skip hp hqueue
    · rw [modify_connections_self]
      have hskip := h.skip hp hqueue
      rw [← Bool.eq_false_iff.mpr hopen] at hskip
      exact hskip

/-- The application of an event ends well: the event is handled. -/
theorem Placed.settle (h : Placed path initial stores k) {d : Delivery} (now : ℕ)
    (happlying : k.applying = some d) {out : List ServerFrame} {acknowledged : List Delivery}
    (hout : acknowledged = k.acknowledged ∧ out = k.out ∨ acknowledged = k.acknowledged ++ [d] ∧
      (out.filterMap ServerFrame.ack?).length = k.acknowledged.length + 1) :
    Placed path initial (RelayServer.settleEvent stores d now) { k with
      applying := none
      handled := k.handled ++ [(d, now)]
      out
      acknowledged } := by
  have hcaptured := h.captured
  have hplaced := h.placed
  have hopened := h.opened
  have hplaces : (k.handled ++ [(d, now)]).map (fun h => place h.1) =
      handledPlaces k ++ [place d] := by
    rw [List.map_append]; rfl
  unfold waiting at hplaced
  rw [happlying] at hcaptured hplaced hopened
  refine ⟨?_, ?_, ?_, fun d' hd => hcaptured d' (List.mem_cons_of_mem _ hd), h.authenticated, ?_, ?_⟩
  · rw [h.stores]
    unfold handle
    rw [List.foldl_append]
    rfl
  · show acknowledged.Sublist ((k.handled ++ [(d, now)]).map Prod.fst)
    rw [List.map_append]
    rcases hout with ⟨rfl, -⟩ | ⟨rfl, -⟩
    · exact h.acknowledged.trans (List.sublist_append_left _ _)
    · exact h.acknowledged.append (List.Sublist.refl _)
  · rcases hout with ⟨rfl, rfl⟩ | ⟨rfl, hlen⟩
    · exact h.acks
    · simpa using hlen
  · unfold waiting handledPlaces
    rw [hplaces]
    simpa using hplaced
  · intro ho
    rw [← hopened ho]
    unfold handledPlaces
    rw [hplaces]
    simp [handledPlaces]

/-- The application of an event throws, and on the device path nothing waits. -/
theorem Placed.throw (h : Placed path initial stores k)
    (hempty : path = none → k.runnerEventDelivery = []) :
    Placed path initial stores
      { k with applying := none, runnerEventIngressOpen := false } := by
  refine { h with
    captured := fun d hd => h.captured d (List.mem_append_right _ hd)
    opened := fun ho => by cases ho
    placed := List.IsPrefix.trans ?_ h.placed }
  have hwaiting : waiting path k = [] := by
    unfold waiting
    split_ifs with hp
    · exact hempty hp
    · rfl
  have hwaiting' : waiting path { k with applying := none, runnerEventIngressOpen := false } = [] :=
    hwaiting
  rw [hwaiting, hwaiting']
  exact ⟨k.applying.toList.map place, by simp [handledPlaces]⟩

theorem Placed.finish (h : Placed path initial s.stores (s.connections c)) (applied : Bool) (now : ℕ)
    (hempty : applied = false → path = none → (s.connections c).applying ≠ none →
      (s.connections c).runnerEventDelivery = []) :
    Placed path initial (s.finish c applied now).stores ((s.finish c applied now).connections c) := by
  unfold RelayServer.finish
  split
  · exact h
  rename_i d happlying
  dsimp only
  split_ifs with happlied
  · -- the frame goes out if the socket is open, and the acknowledgement is noted with it
    cases RelayServer.ackOf (RelayServer.settleEvent s.stores d now) d with
    | none =>
      simp only [modify_connections_self, Option.isSome_none, Bool.false_eq_true, and_false, if_false,
        List.append_nil]
      exact h.settle now happlying (.inl ⟨rfl, rfl⟩)
    | some ack =>
      unfold RelayServer.sendFrame
      simp only [modify_connections_self, Option.isSome_some, and_true]
      by_cases hopen : (s.connections c).readyState = .OPEN
      · rw [if_pos hopen]
        simp only [if_pos hopen, modify_connections_self]
        refine h.settle now happlying (.inr ⟨rfl, ?_⟩)
        simp [ServerFrame.ack?, h.acks]
      · rw [if_neg hopen]
        simp only [if_neg hopen, modify_connections_self, List.append_nil]
        exact h.settle now happlying (.inl ⟨rfl, rfl⟩)
  · have hthrow := h.throw fun hp => hempty (by simpa using happlied) hp
      (by rw [happlying]; exact Option.some_ne_none d)
    split
    · refine Placed.rejectDevice ?_
      rw [modify_connections_self]
      exact hthrow
    · refine Placed.rejectRunnerEvents ?_ _
      rw [modify_connections_self]
      exact hthrow

theorem Placed.register (h : Placed path initial s.stores (s.connections c)) (socket : ℕ)
    (id : String) (generation : ℕ) :
    Placed path initial (s.register socket id generation).stores
      ((s.register socket id generation).connections c) := by
  unfold RelayServer.register
  rcases s.runnerSockets.get? id with _ | prior
  · exact h
  · dsimp only
    split_ifs
    · exact h.closeSocket
    · exact h

theorem Placed.deregister (h : Placed path initial s.stores (s.connections c)) (id : String) :
    Placed path initial (s.deregister c' id).stores ((s.deregister c' id).connections c) := by
  unfold RelayServer.deregister
  split_ifs <;> exact h

theorem Placed.onClose (h : Placed path initial s.stores (s.connections c)) :
    Placed path initial (s.onClose c).stores ((s.onClose c).connections c) := by
  have hclosed : Placed path initial s.stores ((s.modify c fun k => { k with
      readyState := .CLOSED
      authenticationState := .closed
      authedDevice := none }).connections c) := by
    rw [modify_connections_self]
    refine { h with authenticated := ⟨by simp, fun hp => ⟨by simp, (h.authenticated.2.1 hp).2⟩,
      fun id hp => ⟨by simp, (h.authenticated.2.2 id hp).2.1, rfl⟩⟩ }
  unfold RelayServer.onClose
  dsimp only
  split
  · split
    · exact Placed.deregister (Placed.deregister hclosed _) _
    · exact Placed.deregister hclosed _
  · split
    · exact Placed.deregister hclosed _
    · exact hclosed

/-- **One operation**; on the device path, nothing waits behind an application that throws. -/
theorem Placed.step (h : Placed path initial s.stores (s.connections c)) (id : String)
    (generation : ℕ) {op : IngressOp}
    (hop : ∀ now, op = .finish false now → path = none →
      (s.connections c).applying ≠ none → (s.connections c).runnerEventDelivery = []) :
    Placed path initial (step c id generation s op).stores
      ((step c id generation s op).connections c) := by
  cases op with
  | event event => exact h.onMessage event
  | begin => exact h.begin
  | finish applied now =>
    refine h.finish applied now fun ha => ?_
    subst ha
    exact hop now rfl
  | reconcile socket => exact h.register socket id generation
  | close => exact h.onClose

end Step

/-! ### The two paths -/

section Paths

variable {s d l : RelayServer} {c c' : ℕ} {id : String} {generation : ℕ}

theorem closeSocket_connections (c' : ℕ) : ∃ readyState,
    (s.closeSocket c').connections c = { s.connections c with readyState } := by
  by_cases hc : c = c'
  · subst hc
    unfold RelayServer.closeSocket
    rw [modify_connections_self]
    split_ifs
    · exact ⟨_, rfl⟩
    · exact ⟨_, rfl⟩
  · unfold RelayServer.closeSocket
    rw [modify_connections_ne hc]
    exact ⟨_, rfl⟩

theorem rejectDevice_connections : ∃ readyState, (s.rejectDevice c).connections c =
    { s.connections c with
      runnerEventIngressOpen := false
      authenticationState := .closed
      readyState } := by
  unfold RelayServer.rejectDevice
  obtain ⟨readyState, he⟩ := closeSocket_connections c (c := c) (s := s.modify c fun k =>
    { k with runnerEventIngressOpen := false, authenticationState := .closed })
  rw [modify_connections_self] at he
  exact ⟨readyState, he⟩

theorem sendFrame_connections (frame : ServerFrame) : ∃ out,
    (s.sendFrame c frame).connections c = { s.connections c with out } := by
  unfold RelayServer.sendFrame
  split_ifs
  · refine ⟨(s.connections c).out ++ [frame], ?_⟩
    show (s.modify c fun k => { k with out := k.out ++ [frame] }).connections c = _
    exact modify_connections_self _
  · exact ⟨_, rfl⟩

theorem rejectRunnerEvents_connections (fencedGeneration : Option ℕ) : ∃ readyState out,
    (s.rejectRunnerEvents c fencedGeneration).connections c =
      { s.connections c with runnerEventIngressOpen := false, readyState, out } := by
  unfold RelayServer.rejectRunnerEvents
  split_ifs with hopen
  · let shut := s.modify c fun k => { k with runnerEventIngressOpen := false }
    have hshut : shut.connections c = { s.connections c with runnerEventIngressOpen := false } :=
      modify_connections_self _
    rcases fencedGeneration with _ | generation
    · obtain ⟨readyState, he⟩ := closeSocket_connections c (s := shut) (c := c)
      rw [hshut] at he
      exact ⟨readyState, _, he⟩
    · obtain ⟨out, ho⟩ := sendFrame_connections (s := shut) (c := c) (.fenced generation)
      obtain ⟨readyState, he⟩ := closeSocket_connections c
        (s := shut.sendFrame c (.fenced generation)) (c := c)
      rw [ho, hshut] at he
      exact ⟨readyState, out, he⟩
  · rw [← Bool.eq_false_iff.mpr hopen]
    exact ⟨_, _, rfl⟩

/-- The ingress of the connection ends with the operation. -/
def EndsIngress (c : ℕ) (id : String) (generation : ℕ) (s : RelayServer) : IngressOp → Prop
  | .event event => (s.connections c).authenticationState = .authenticated_device ∧
    ¬ s.isCurrentDevice c id generation event = true
  | .begin => False
  | .finish applied _ => (s.connections c).applying ≠ none ∧ applied = false
  | .reconcile socket => socket ≠ c
  | .close => True

/-- **The condition**: nothing waits on the chain when the ingress ends. -/
def EndsIdle (c : ℕ) (id : String) (generation : ℕ) (s : RelayServer) (op : IngressOp) : Prop :=
  EndsIngress c id generation s op → (s.connections c).runnerEventDelivery = []

/-- Both connections take events. -/
structure BothOpen (c : ℕ) (id : String) (generation : ℕ) (d l : RelayServer) : Prop where
  device : (d.connections c).authenticationState = .authenticated_device
  runner : (l.connections c).authenticationState = .authenticated_legacy_runner
  identity : (d.connections c).authedDevice = some (id, generation)
  open_device : (d.connections c).runnerEventIngressOpen = true
  open_runner : (l.connections c).runnerEventIngressOpen = true
  arrivals : (d.connections c).arrivals.length = (l.connections c).arrivals.length
  sockets : d.runnerSockets = l.runnerSockets
  reconciled : d.reconciledRunners = l.reconciledRunners
  generations : ∀ entry, l.reconciledRunners.get? id = some entry → entry.2 = generation
  record : ∃ runner, l.stores.runners.get? id = some runner ∧ runner.generation = generation
  current : ∀ t ∈ (l.connections c).runnerEventDelivery, l.isCurrent c id t.event = true

/-- Neither takes any, and nothing waits. -/
structure BothShut (c : ℕ) (d l : RelayServer) : Prop where
  device : (d.connections c).authenticationState = .closed
  runner : (l.connections c).runnerEventIngressOpen = false ∨
    (l.connections c).authenticationState = .closed
  empty : (l.connections c).runnerEventDelivery = []

/-- The connections have handled the same events, and have the same ones to handle. -/
structure Same (c : ℕ) (id : String) (generation : ℕ) (d l : RelayServer) : Prop where
  handled : handledPlaces (d.connections c) = handledPlaces (l.connections c)
  applying : (d.connections c).applying.map place = (l.connections c).applying.map place
  queue : (d.connections c).runnerEventDelivery.map place =
    (l.connections c).runnerEventDelivery.map place
  mode : BothOpen c id generation d l ∨ BothShut c d l

/-- The two paths look for the same. -/
theorem BothOpen.isCurrent_eq (h : BothOpen c id generation d l) (event : EventEnvelope) :
    d.isCurrentDevice c id generation event = l.isCurrent c id event := by
  obtain ⟨runner, hrunner, hgen⟩ := h.record
  unfold RelayServer.isCurrentDevice RelayServer.isCurrent
  rw [h.sockets, h.reconciled, hrunner]
  rcases hentry : l.reconciledRunners.get? id with _ | ⟨socket, g⟩
  · simp
  · have hg : g = generation := h.generations _ hentry
    subst hg
    simp [hgen]

theorem map_place_eq_nil {queue queue' : List Delivery}
    (h : queue.map place = queue'.map place) (hempty : queue = []) : queue' = [] := by
  rw [hempty] at h
  exact List.map_eq_nil_iff.mp h.symm

/-- An event meets a connection that takes none. -/
theorem onMessage_shut {event : EventEnvelope}
    (hshut : (l.connections c).runnerEventIngressOpen = false ∨
      (l.connections c).authenticationState = .closed)
    (hstate : (l.connections c).authenticationState ≠ .authenticated_device) :
    ∃ arrivals, (l.onMessage c (.event event)).connections c =
      { l.connections c with arrivals } := by
  unfold RelayServer.onMessage
  dsimp only
  split
  · exact absurd (by assumption) hstate
  · rename_i hrunner
    have hclosed : (l.connections c).runnerEventIngressOpen = false :=
      hshut.resolve_right fun h => by rw [hrunner] at h; cases h
    split
    · exact ⟨_, rfl⟩
    · split_ifs
      · unfold RelayServer.onRunnerEvent
        dsimp only
        rw [if_neg (Bool.eq_false_iff.mp hclosed)]
        exact ⟨(l.connections c).arrivals ++ [event], modify_connections_self _⟩
      · exact ⟨_, rfl⟩
  · exact ⟨_, rfl⟩

theorem Same.event (h : Same c id generation d l)
    (hrunner : (l.connections c).authedRunnerId = some id)
    (hstate : (l.connections c).authenticationState ≠ .authenticated_device)
    {event : EventEnvelope} (hidle : EndsIdle c id generation d (.event event)) :
    Same c id generation (d.onMessage c (.event event)) (l.onMessage c (.event event)) := by
  rcases h.mode with hopen | hshut
  · obtain ⟨runner, hrec, -⟩ := hopen.record
    have hhas : l.stores.runners.has id = true := by unfold OrdMap.has; rw [hrec]; rfl
    have hd : d.onMessage c (.event event) = d.onDeviceEvent c id generation event := by
      unfold RelayServer.onMessage
      simp only [hopen.device, hopen.identity]
    have hl : l.onMessage c (.event event) = l.onRunnerEvent c id event := by
      unfold RelayServer.onMessage
      simp only [hopen.runner, hrunner, hhas, if_true]
    rw [hd, hl]
    unfold RelayServer.onDeviceEvent RelayServer.onRunnerEvent
    simp only [hopen.open_device, hopen.open_runner, true_and, if_true, hopen.isCurrent_eq event]
    split_ifs with hcur
    · -- both queue it
      unfold RelayServer.enqueue
      refine ⟨?_, ?_, ?_, .inl ⟨?_, ?_, ?_, ?_, ?_, ?_, hopen.sockets, hopen.reconciled,
        hopen.generations, hopen.record, fun t ht => ?_⟩⟩
      · simp only [modify_connections_self]; exact h.handled
      · simp only [modify_connections_self]; exact h.applying
      · simp only [modify_connections_self, List.map_append, h.queue, List.map_singleton, place,
          hopen.arrivals]
      · simp only [modify_connections_self]; exact hopen.device
      · simp only [modify_connections_self]; exact hopen.runner
      · simp only [modify_connections_self]; exact hopen.identity
      · simp only [modify_connections_self]; exact hopen.open_device
      · simp only [modify_connections_self]; exact hopen.open_runner
      · simp only [modify_connections_self, List.length_append, hopen.arrivals, List.length_singleton]
      · simp only [modify_connections_self, List.mem_append, List.mem_singleton] at ht
        rcases ht with ht | rfl
        · exact hopen.current t ht
        · exact hcur
    · -- both refuse it, and nothing waits
      have hempty := hidle ⟨hopen.device, by rw [hopen.isCurrent_eq]; exact hcur⟩
      obtain ⟨readyState, hd'⟩ := rejectDevice_connections (c := c)
        (s := d.modify c fun k => { k with arrivals := k.arrivals ++ [event] })
      obtain ⟨readyState', out, hl'⟩ := rejectRunnerEvents_connections (c := c)
        (s := l.modify c fun k => { k with arrivals := k.arrivals ++ [event] })
        (some (l.currentGeneration id event))
      rw [modify_connections_self] at hd' hl'
      refine ⟨?_, ?_, ?_, .inr ⟨?_, ?_, ?_⟩⟩
      · rw [hd', hl']; exact h.handled
      · rw [hd', hl']; exact h.applying
      · rw [hd', hl']; exact h.queue
      · rw [hd']
      · rw [hl']; exact .inl rfl
      · rw [hl']; exact map_place_eq_nil h.queue hempty
  · have hd : d.onMessage c (.event event) = d := by
      unfold RelayServer.onMessage
      simp only [hshut.device]
    obtain ⟨arrivals, hl⟩ := onMessage_shut hshut.runner hstate
    rw [hd]
    refine ⟨?_, ?_, ?_, .inr ⟨hshut.device, ?_, ?_⟩⟩
    · rw [hl]; exact h.handled
    · rw [hl]; exact h.applying
    · rw [hl]; exact h.queue
    · rw [hl]; exact hshut.runner
    · rw [hl]; exact hshut.empty

theorem begin_of_empty (hempty : (s.connections c).runnerEventDelivery = []) : s.begin c = s := by
  unfold RelayServer.begin
  rw [hempty]
  split
  · rename_i hcons
    cases hcons
  · rfl

theorem begin_of_applying {t : Delivery} (happlying : (s.connections c).applying = some t) :
    s.begin c = s := by
  unfold RelayServer.begin
  rw [happlying]

/-- The next callback starts on both paths. -/
theorem Same.begin (h : Same c id generation d l)
    (hdevice : ∀ t ∈ (d.connections c).runnerEventDelivery, t.authenticatedRunnerId = none)
    (hrunner : ∀ t ∈ (l.connections c).runnerEventDelivery, t.authenticatedRunnerId = some id) :
    Same c id generation (d.begin c) (l.begin c) := by
  rcases hq : (l.connections c).runnerEventDelivery with _ | ⟨t, rest⟩
  · rw [begin_of_empty hq, begin_of_empty (map_place_eq_nil h.queue.symm hq)]
    exact h
  have hopen := h.mode.resolve_right fun hs => by rw [hs.empty] at hq; cases hq
  rcases hqd : (d.connections c).runnerEventDelivery with _ | ⟨t', rest'⟩
  · rw [map_place_eq_nil h.queue hqd] at hq; cases hq
  have hqueue := h.queue
  rw [hq, hqd, List.map_cons, List.map_cons, List.cons.injEq] at hqueue
  rcases ha : (l.connections c).applying with _ | t₁
  · have had : (d.connections c).applying = none := by
      have := h.applying
      rw [ha] at this
      exact Option.map_eq_none_iff.mp this
    have hcur : l.isCurrent c id t.event = true := hopen.current t (by rw [hq]; simp)
    have hd : d.begin c = d.modify c fun k =>
        { k with runnerEventDelivery := rest', applying := some t' } := by
      unfold RelayServer.begin
      simp only [had, hqd, hdevice t' (by rw [hqd]; simp)]
    have hl : l.begin c = l.modify c fun k =>
        { k with runnerEventDelivery := rest, applying := some t } := by
      unfold RelayServer.begin
      simp only [ha, hq, hrunner t (by rw [hq]; simp), hopen.open_runner, hcur, if_true]
    rw [hd, hl]
    refine ⟨?_, ?_, ?_, .inl ⟨?_, ?_, ?_, ?_, ?_, ?_, hopen.sockets, hopen.reconciled,
      hopen.generations, hopen.record, fun u hu => ?_⟩⟩
    · simp only [modify_connections_self]; exact h.handled
    · simp only [modify_connections_self]; exact congrArg some hqueue.1
    · simp only [modify_connections_self]; exact hqueue.2
    · simp only [modify_connections_self]; exact hopen.device
    · simp only [modify_connections_self]; exact hopen.runner
    · simp only [modify_connections_self]; exact hopen.identity
    · simp only [modify_connections_self]; exact hopen.open_device
    · simp only [modify_connections_self]; exact hopen.open_runner
    · simp only [modify_connections_self]; exact hopen.arrivals
    · rw [modify_connections_self] at hu
      exact hopen.current u (by rw [hq]; exact List.mem_cons_of_mem _ hu)
  · have had : ∃ t₂, (d.connections c).applying = some t₂ := by
      have := h.applying
      rw [ha] at this
      obtain ⟨t₂, ht₂, -⟩ := Option.map_eq_some_iff.mp this
      exact ⟨t₂, ht₂⟩
    obtain ⟨t₂, had⟩ := had
    rw [begin_of_applying ha, begin_of_applying had]
    exact h

theorem runners_settleEvent (stores : RelayStores) (t : Delivery) (now : ℕ) :
    (RelayServer.settleEvent stores t now).runners = stores.runners := by
  have hingest : (stores.ingestEvent t.event).1.runners = stores.runners := by
    unfold RelayStores.ingestEvent; split_ifs <;> rfl
  unfold RelayServer.settleEvent
  split
  · unfold RelayStores.acknowledgeEventWatermark
    split_ifs <;> exact hingest
  · unfold RelayStores.receive RelayStores.applyEventSideEffects RelayStores.setCommandState
    dsimp only
    split_ifs
    · split
      · split <;> exact hingest
      · exact hingest
    · exact hingest

/-- What an application that ends well leaves. -/
theorem finish_applied {t : Delivery} (happlying : (s.connections c).applying = some t) (now : ℕ) :
    ∃ acknowledged out, (s.finish c true now).connections c = { s.connections c with
        applying := none, handled := (s.connections c).handled ++ [(t, now)], acknowledged, out } ∧
      (s.finish c true now).runnerSockets = s.runnerSockets ∧
      (s.finish c true now).reconciledRunners = s.reconciledRunners ∧
      (s.finish c true now).stores = RelayServer.settleEvent s.stores t now := by
  unfold RelayServer.finish
  simp only [happlying, if_true]
  generalize RelayServer.ackOf (RelayServer.settleEvent s.stores t now) t = ack
  let noted := { (s.modify c fun k => { k with applying := none }) with
    stores := RelayServer.settleEvent s.stores t now }.modify c fun k => { k with
      handled := k.handled ++ [(t, now)]
      acknowledged := k.acknowledged ++ if k.readyState = ReadyState.OPEN ∧ ack.isSome = true then [t] else [] }
  have hnoted : noted.connections c = { s.connections c with
      applying := none
      handled := (s.connections c).handled ++ [(t, now)]
      acknowledged := (s.connections c).acknowledged ++
        if (s.connections c).readyState = ReadyState.OPEN ∧ ack.isSome = true then [t] else [] } := by
    simp only [noted, modify_connections_self]
  cases ack with
  | none => exact ⟨_, _, hnoted, rfl, rfl, rfl⟩
  | some ack =>
    obtain ⟨out, hout⟩ := sendFrame_connections (s := noted) (c := c) (.event_ack ack)
    rw [hnoted] at hout
    refine ⟨_, out, hout, ?_⟩
    unfold RelayServer.sendFrame
    split_ifs <;> exact ⟨rfl, rfl, rfl⟩

/-- What an application that throws leaves. -/
theorem finish_thrown {t : Delivery} (happlying : (s.connections c).applying = some t) (now : ℕ) :
    ∃ readyState out, (s.finish c false now).connections c = { s.connections c with
      applying := none
      runnerEventIngressOpen := false
      authenticationState :=
        if t.authenticatedRunnerId = none then .closed else (s.connections c).authenticationState
      readyState
      out } := by
  unfold RelayServer.finish
  simp only [happlying, Bool.false_eq_true, if_false]
  split
  · rename_i hpath
    obtain ⟨readyState, he⟩ := rejectDevice_connections (c := c)
      (s := s.modify c fun k => { k with applying := none })
    rw [modify_connections_self] at he
    rw [hpath, if_pos rfl]
    exact ⟨readyState, _, he⟩
  · rename_i hpath
    obtain ⟨readyState, out, he⟩ := rejectRunnerEvents_connections (c := c)
      (s := s.modify c fun k => { k with applying := none }) none
    rw [modify_connections_self] at he
    rw [hpath, if_neg (Option.some_ne_none _)]
    exact ⟨readyState, out, he⟩

/-- The application of an event ends on both paths. -/
theorem Same.finish (h : Same c id generation d l) {applied : Bool} {now : ℕ}
    (hdevice : ∀ t ∈ (d.connections c).applying, t.authenticatedRunnerId = none)
    (hidle : EndsIdle c id generation d (.finish applied now)) :
    Same c id generation (d.finish c applied now) (l.finish c applied now) := by
  rcases hl : (l.connections c).applying with _ | t
  · have hd : (d.connections c).applying = none := by
      have happlying := h.applying
      rw [hl] at happlying
      exact Option.map_eq_none_iff.mp happlying
    have hdf : d.finish c applied now = d := by unfold RelayServer.finish; rw [hd]
    have hlf : l.finish c applied now = l := by unfold RelayServer.finish; rw [hl]
    rw [hdf, hlf]
    exact h
  obtain ⟨t', hd, hplace⟩ : ∃ t', (d.connections c).applying = some t' ∧ place t' = place t := by
    have happlying := h.applying
    rw [hl] at happlying
    exact Option.map_eq_some_iff.mp happlying
  rcases applied with _ | _
  · -- it throws, and nothing waits
    have hempty := hidle ⟨by rw [hd]; exact Option.some_ne_none t', rfl⟩
    obtain ⟨rd, outd, hdf⟩ := finish_thrown hd now
    obtain ⟨rl, outl, hlf⟩ := finish_thrown hl now
    rw [if_pos (hdevice t' hd)] at hdf
    refine ⟨?_, ?_, ?_, .inr ⟨?_, ?_, ?_⟩⟩
    · rw [hdf, hlf]; exact h.handled
    · rw [hdf, hlf]
    · rw [hdf, hlf]; exact h.queue
    · rw [hdf]
    · rw [hlf]; exact .inl rfl
    · rw [hlf]; exact map_place_eq_nil h.queue hempty
  · obtain ⟨ackd, outd, hdf, hds, hdr, -⟩ := finish_applied hd now
    obtain ⟨ackl, outl, hlf, hls, hlr, hlst⟩ := finish_applied hl now
    refine ⟨?_, ?_, ?_, h.mode.imp (fun hopen => ?_) fun hshut => ?_⟩
    · rw [hdf, hlf]
      have hhandled := h.handled
      unfold handledPlaces at hhandled ⊢
      rw [List.map_append, List.map_append, hhandled, List.map_singleton, List.map_singleton, hplace]
    · rw [hdf, hlf]
    · rw [hdf, hlf]; exact h.queue
    · refine ⟨?_, ?_, ?_, ?_, ?_, ?_, ?_, ?_, ?_, ?_, fun u hu => ?_⟩
      · rw [hdf]; exact hopen.device
      · rw [hlf]; exact hopen.runner
      · rw [hdf]; exact hopen.identity
      · rw [hdf]; exact hopen.open_device
      · rw [hlf]; exact hopen.open_runner
      · rw [hdf, hlf]; exact hopen.arrivals
      · rw [hds, hls]; exact hopen.sockets
      · rw [hdr, hlr]; exact hopen.reconciled
      · rw [hlr]; exact hopen.generations
      · rw [hlst, runners_settleEvent]; exact hopen.record
      · rw [hlf] at hu
        have hcur := hopen.current u hu
        unfold RelayServer.isCurrent at hcur ⊢
        rwa [hls, hlr, hlst, runners_settleEvent]
    · refine ⟨?_, ?_, ?_⟩
      · rw [hdf]; exact hshut.device
      · rw [hlf]; exact hshut.runner
      · rw [hlf]; exact hshut.empty

/-- What a registration leaves. -/
theorem register_spec (s : RelayServer) (c socket : ℕ) (id : String) (generation : ℕ) :
    (∃ readyState, (s.register socket id generation).connections c =
      { s.connections c with readyState }) ∧
      (s.register socket id generation).runnerSockets = s.runnerSockets.set id socket ∧
      (s.register socket id generation).reconciledRunners =
        s.reconciledRunners.set id (socket, generation) ∧
      (s.register socket id generation).stores = s.stores := by
  unfold RelayServer.register
  rcases s.runnerSockets.get? id with _ | prior
  · exact ⟨⟨_, rfl⟩, rfl, rfl, rfl⟩
  · dsimp only
    split_ifs
    · exact ⟨closeSocket_connections _, rfl, rfl, rfl⟩
    · exact ⟨⟨_, rfl⟩, rfl, rfl, rfl⟩

theorem Same.reconcile (h : Same c id generation d l) {socket : ℕ}
    (hidle : EndsIdle c id generation d (.reconcile socket)) :
    Same c id generation (d.register socket id generation) (l.register socket id generation) := by
  obtain ⟨⟨rd, hd⟩, hds, hdr, -⟩ := register_spec d c socket id generation
  obtain ⟨⟨rl, hl⟩, hls, hlr, hlst⟩ := register_spec l c socket id generation
  refine ⟨?_, ?_, ?_, h.mode.imp (fun hopen => ?_) fun hshut => ?_⟩
  · rw [hd, hl]; exact h.handled
  · rw [hd, hl]; exact h.applying
  · rw [hd, hl]; exact h.queue
  · refine ⟨?_, ?_, ?_, ?_, ?_, ?_, ?_, ?_, ?_, ?_, fun u hu => ?_⟩
    · rw [hd]; exact hopen.device
    · rw [hl]; exact hopen.runner
    · rw [hd]; exact hopen.identity
    · rw [hd]; exact hopen.open_device
    · rw [hl]; exact hopen.open_runner
    · rw [hd, hl]; exact hopen.arrivals
    · rw [hds, hls, hopen.sockets]
    · rw [hdr, hlr, hopen.reconciled]
    · intro entry hentry
      rw [hlr, OrdMap.get?_set_self] at hentry
      cases hentry
      rfl
    · rw [hlst]; exact hopen.record
    · rw [hl] at hu
      -- what waits is of this socket, so it is the one that registers
      have hsocket : socket = c := by
        by_contra hne
        have hempty := map_place_eq_nil h.queue (hidle hne)
        have hu : u ∈ (l.connections c).runnerEventDelivery := hu
        rw [hempty] at hu
        cases hu
      have hcur := hopen.current u hu
      obtain ⟨runner, hrec, hgen⟩ := hopen.record
      unfold RelayServer.isCurrent at hcur ⊢
      rw [hls, hlr, hlst, hrec, OrdMap.get?_set_self, OrdMap.get?_set_self, hsocket]
      rw [hrec] at hcur
      rcases hentry : l.reconciledRunners.get? id with _ | ⟨socket', g⟩
      · rw [hentry] at hcur; cases hcur
      · rw [hentry] at hcur
        have hg : g = generation := hopen.generations _ hentry
        simp only [decide_eq_true_eq] at hcur
        obtain ⟨-, -, hid, hg', hgen'⟩ := hcur
        exact decide_eq_true ⟨rfl, rfl, hid, by rw [← hg, hg'], by rw [hgen', hg]⟩
  · refine ⟨?_, ?_, ?_⟩
    · rw [hd]; exact hshut.device
    · rw [hl]; exact hshut.runner
    · rw [hl]; exact hshut.empty

/-- What the end of the connection leaves. -/
theorem onClose_connections : (s.onClose c).connections c = { s.connections c with
    readyState := .CLOSED
    authenticationState := .closed
    authedDevice := none } := by
  have hderegister : ∀ (s' : RelayServer) (id : String),
      (s'.deregister c id).connections = s'.connections := by
    intro s' id
    unfold RelayServer.deregister
    split_ifs <;> rfl
  unfold RelayServer.onClose
  dsimp only
  split <;> split <;> simp only [hderegister, modify_connections_self]

theorem Same.close (h : Same c id generation d l)
    (hidle : EndsIdle c id generation d .close) :
    Same c id generation (d.onClose c) (l.onClose c) := by
  have hempty := map_place_eq_nil h.queue (hidle trivial)
  refine ⟨?_, ?_, ?_, .inr ⟨?_, ?_, ?_⟩⟩
  · rw [onClose_connections, onClose_connections]; exact h.handled
  · rw [onClose_connections, onClose_connections]; exact h.applying
  · rw [onClose_connections, onClose_connections]; exact h.queue
  · rw [onClose_connections]
  · rw [onClose_connections]; exact .inr rfl
  · rw [onClose_connections]; exact hempty

end Paths

/-! ### Runs -/

theorem placed_connected (s : RelayServer) (c : ℕ) (id public_key_pem : String) (generation : ℕ)
    {path : Option String} {k : Connection} (hpath : OnPath path k)
    (hk : k.handled = [] ∧ k.acknowledged = [] ∧ k.out = [] ∧ k.applying = none ∧
      k.runnerEventDelivery = [] ∧ k.arrivals = []) :
    Placed path (s.stores.restoreDurableRunnerIdentity id public_key_pem generation).1
      (connected s c id public_key_pem generation k).stores
      ((connected s c id public_key_pem generation k).connections c) := by
  obtain ⟨hhandled, hack, hout, happlying, hqueue, harrivals⟩ := hk
  unfold connected
  rw [modify_connections_self]
  refine ⟨?_, ?_, ?_, ?_, hpath, ?_, fun _ => ?_⟩
  · rw [hhandled]; rfl
  · rw [hack]; exact List.nil_sublist _
  · rw [hout, hack]; rfl
  · rw [happlying, hqueue]; intro t ht; cases ht
  · unfold waiting handledPlaces
    rw [hhandled, happlying, hqueue, harrivals]
    simp
  · unfold handledPlaces
    rw [hhandled, happlying, hqueue, harrivals]
    rfl

/-- The connection of a device, and that of a legacy runner in its place. -/
structure Paired (initial : RelayStores) (c : ℕ) (id : String) (generation : ℕ)
    (d l : RelayServer) : Prop where
  device : Placed none initial d.stores (d.connections c)
  runner : Placed (some id) initial l.stores (l.connections c)
  same : Same c id generation d l

/-- **One operation** on both. -/
theorem Paired.step {initial : RelayStores} {c : ℕ} {id : String} {generation : ℕ}
    {d l : RelayServer} (h : Paired initial c id generation d l) {op : IngressOp}
    (hidle : EndsIdle c id generation d op) :
    Paired initial c id generation (step c id generation d op) (step c id generation l op) := by
  have hrunner := h.runner.authenticated.2.2 id rfl
  refine ⟨h.device.step id generation ?_, h.runner.step id generation ?_, ?_⟩
  · rintro now rfl - happlying
    exact hidle ⟨happlying, rfl⟩
  · intro now _ hp; cases hp
  · cases op with
    | event event => exact h.same.event hrunner.2.1 hrunner.1 hidle
    | begin =>
      exact h.same.begin (fun t ht => h.device.captured t (List.mem_append_right _ ht))
        fun t ht => h.runner.captured t (List.mem_append_right _ ht)
    | finish applied now =>
      refine h.same.finish (fun t ht => h.device.captured t ?_) hidle
      exact List.mem_append_left _ (Option.mem_toList.mpr ht)
    | reconcile socket => exact h.same.reconcile hidle
    | close => exact h.same.close hidle

theorem paired_connected (s : RelayServer) (c : ℕ) (id public_key_pem : String) (generation : ℕ) :
    Paired (s.stores.restoreDurableRunnerIdentity id public_key_pem generation).1 c id generation
      (connected s c id public_key_pem generation (deviceConnection id generation))
      (connected s c id public_key_pem generation (runnerConnection id)) := by
  obtain ⟨-, hsockets, hreconciled, -⟩ := register_spec s c c id generation
  refine ⟨placed_connected _ _ _ _ _ ?_ ⟨rfl, rfl, rfl, rfl, rfl, rfl⟩,
    placed_connected _ _ _ _ _ ?_ ⟨rfl, rfl, rfl, rfl, rfl, rfl⟩, ?_⟩
  · exact ⟨by simp [deviceConnection], fun _ => ⟨by simp [deviceConnection], rfl⟩,
      fun id hid => by cases hid⟩
  · refine ⟨by simp [runnerConnection], (fun hp => by cases hp), fun id' hid => ?_⟩
    cases hid
    exact ⟨by simp [runnerConnection], rfl, rfl⟩
  · unfold connected
    refine ⟨?_, ?_, ?_, .inl ⟨?_, ?_, ?_, ?_, ?_, ?_, rfl, rfl, ?_, ?_, ?_⟩⟩
    · simp only [modify_connections_self]; rfl
    · simp only [modify_connections_self]; rfl
    · simp only [modify_connections_self]; rfl
    · simp only [modify_connections_self]; rfl
    · simp only [modify_connections_self]; rfl
    · simp only [modify_connections_self]; rfl
    · simp only [modify_connections_self]; rfl
    · simp only [modify_connections_self]; rfl
    · simp only [modify_connections_self]; rfl
    · intro entry hentry
      have hentry : (s.register c id generation).reconciledRunners.get? id = some entry := hentry
      rw [hreconciled, OrdMap.get?_set_self] at hentry
      cases hentry
      rfl
    · exact ⟨⟨id, public_key_pem, generation, none⟩, OrdMap.get?_set_self _ _ _, rfl⟩
    · intro t ht
      rw [modify_connections_self] at ht
      cases ht

/-- A run of the device path. -/
def deviceRun (s : RelayServer) (c : ℕ) (id public_key_pem : String) (generation : ℕ)
    (ops : List IngressOp) : RelayServer :=
  run (step c id generation)
    (connected s c id public_key_pem generation (deviceConnection id generation)) ops

/-- The same run of the legacy path. -/
def runnerRun (s : RelayServer) (c : ℕ) (id public_key_pem : String) (generation : ℕ)
    (ops : List IngressOp) : RelayServer :=
  run (step c id generation) (connected s c id public_key_pem generation (runnerConnection id)) ops

/-- The server after a run is in order, for the connection. -/
def RunInOrder (s : RelayServer) (c : ℕ) (id public_key_pem : String) (generation : ℕ)
    (s' : RelayServer) : Prop :=
  InOrder (s.stores.restoreDurableRunnerIdentity id public_key_pem generation).1 s'.stores
    (s'.connections c)

/-- The law of the device path: it is in order, and handles what the legacy path does. -/
def Lawful (s : RelayServer) (c : ℕ) (id public_key_pem : String) (generation : ℕ)
    (ops : List IngressOp) : Prop :=
  RunInOrder s c id public_key_pem generation (deviceRun s c id public_key_pem generation ops) ∧
    handledPlaces ((deviceRun s c id public_key_pem generation ops).connections c) =
      handledPlaces ((runnerRun s c id public_key_pem generation ops).connections c)

/-- **Ingress in order**: the legacy path always is; the device path is, and handles the same events, in
every run in which nothing waits when its ingress ends. -/
theorem ingress_in_order (s : RelayServer) (c : ℕ) (id public_key_pem : String) (generation : ℕ)
    (ops : List IngressOp) :
    RunInOrder s c id public_key_pem generation (runnerRun s c id public_key_pem generation ops) ∧
      (Along (step c id generation) (EndsIdle c id generation)
        (connected s c id public_key_pem generation (deviceConnection id generation)) ops →
          Lawful s c id public_key_pem generation ops) := by
  have hstart := paired_connected s c id public_key_pem generation
  refine ⟨?_, fun hrun => ?_⟩
  · suffices h : Placed (some id) _ _ _ from h.inOrder
    have hstep : ∀ (l : RelayServer) (op : IngressOp),
        Placed (some id) (s.stores.restoreDurableRunnerIdentity id public_key_pem generation).1
          l.stores (l.connections c) →
        Placed (some id) (s.stores.restoreDurableRunnerIdentity id public_key_pem generation).1
          (step c id generation l op).stores ((step c id generation l op).connections c) := by
      intro l op h
      refine h.step id generation fun now _ hp => ?_
      cases hp
    exact run_induct' hstep hstart.runner ops
  · have hpaired : ∀ (ops : List IngressOp) (d l : RelayServer),
        Paired (s.stores.restoreDurableRunnerIdentity id public_key_pem generation).1 c id generation
          d l → Along (step c id generation) (EndsIdle c id generation) d ops →
        Paired (s.stores.restoreDurableRunnerIdentity id public_key_pem generation).1 c id generation
          (run (step c id generation) d ops) (run (step c id generation) l ops) := by
      intro ops
      induction ops with
      | nil => intro d l h _; exact h
      | cons op ops ih => intro d l h hrun; exact ih _ _ (h.step hrun.1) hrun.2
    have h := hpaired ops _ _ hstart hrun
    exact ⟨h.device.inOrder, h.same.handled⟩

/-- A server that nobody has connected to. -/
def idle : RelayServer := ⟨RelayStores.new, OrdMap.empty, OrdMap.empty, fun _ => Connection.new, 0⟩

def heartbeat (event_seq : ℕ) : EventEnvelope :=
  ⟨event_seq, "d", 1, "runner:d", none, 0, .run .heartbeat⟩

/-- The application of the only event throws. -/
theorem ingress_in_order_rejected :
    Lawful idle 0 "d" "key" 1 [.event (heartbeat 1), .begin, .finish false 0, .event (heartbeat 2)] :=
  (ingress_in_order idle 0 "d" "key" 1 _).2
    ⟨(fun _ => rfl), (fun h => h.elim), (fun _ => rfl), (fun _ => rfl), trivial⟩

/-- Two events arrive, and the application of the first throws: the second is applied, is out of order for
the log, and raises the watermark over both. The socket is closing, so nothing is acknowledged. -/
theorem device_skips_rejected :
    ¬ ∀ (s : RelayServer) (c : ℕ) (id public_key_pem : String) (generation : ℕ)
      (ops : List IngressOp), Lawful s c id public_key_pem generation ops := by
  intro hall
  have h := (hall idle 0 "d" "key" 1 [.event (heartbeat 1), .event (heartbeat 2), .begin,
    .finish false 0, .begin, .finish true 0]).1.handled
  revert h
  decide

end Norns.Server.Ingress
