import Mathlib.Data.List.Dedup
import Mathlib.Data.List.Perm.Subperm
import Norns.Relay.Window
import Norns.Server.Gateway
import Norns.Server.Outbox

/-! # Event delivery

A legacy runner that does not crash, its server, and the connections between them. Frames of one
connection arrive in order; what is in flight on a connection that the runner has left may be lost at
any time; the server may start again from a snapshot that holds what it has acknowledged.

* `Served`, `Advances`: what every callback of the server keeps, and what it sends;
* `Delivering`: the invariant of the whole, kept by every operation (`Delivering.step`);
* `delivery_run`: the server's log is an initial part of the events created, an event is pruned only
  if it is in the log, and the window bounds what is sent and not acknowledged. -/

namespace Norns.Relay.Delivery

open Norns.Lib Norns.Lib.Run Norns.Contracts.Protocol Norns.Server.Stores Norns.Server.Outbox
open Norns.Server.Gateway Norns.Runner Norns.Relay.Replay Norns.Relay.Log Norns.Relay.Window

/-! ### The network -/

structure Net where
  runner : RunnerDaemon
  server : RelayServer
  /-- The last snapshot of the server. -/
  saved : RelayStores
  /-- The frames of the runner in flight, by connection. -/
  up : ℕ → List RunnerFrame
  /-- How many connections there were. -/
  opened : ℕ
  /-- The runner's connection. -/
  current : Option ℕ
  /-- Every event that the runner put on a connection. -/
  sent : List EventEnvelope

inductive NetOp
  /-- A callback of the runner that no frame causes: an event, a settled promise, a start, a stop. -/
  | act (op : Op) (now : ℕ)
  | connect (now : ℕ)
  | disconnect (now : ℕ)
  /-- The runner reads the next frame of its connection. -/
  | receive (now : ℕ)
  /-- What is in flight on a connection that the runner has left is lost. -/
  | lose (c : ℕ)
  /-- The next frame of a connection arrives at the server. -/
  | arrive (c : ℕ)
  | respond (c : ℕ) (now : ℕ)
  | failReconcile (c : ℕ)
  | begin (c : ℕ)
  | finish (c : ℕ) (applied : Bool) (now : ℕ)
  /-- The server sees the end of a connection. -/
  | onClose (c : ℕ)
  | enqueueCommand (envelope : CommandEnvelope) (now : ℕ)
  | sendCommand (envelope : CommandEnvelope)
  | persist
  /-- The server starts again from the last snapshot. -/
  | restart

/-- The callbacks that no frame and no connection causes. -/
def isLocal : Op → Bool
  | .emit _ _ | .settled _ | .start | .emergencyStop _ => true
  | _ => false

section Step

variable (opts : DaemonOptions)

/-- A callback of the runner: what it sends is put on its connection. The runner does not crash, so a
callback that would is none. -/
def Net.callback (s : Net) (op : Op) (now : ℕ) : Net :=
  match Runner.callback opts s.runner ⟨op, now, none⟩ with
  | .error _ _ => s
  | .ok _ runner => { s with
    runner := { runner with outbox := [] }
    up := match s.current with
      | some c => Function.update s.up c (s.up c ++ runner.outbox.map .event)
      | none => s.up
    current := if runner.connected then s.current else none
    sent := s.sent ++ runner.outbox }

/-- A frame of the runner on its connection. -/
def Net.send (s : Net) (c : ℕ) (frame : RunnerFrame) : Net :=
  { s with up := Function.update s.up c (s.up c ++ [frame]) }

/-- The message handler of the runner. -/
def Net.onMessage (s : Net) (c : ℕ) (now : ℕ) : ServerFrame → Net
  | .challenge => s.send c (.auth s.runner.file.runner_id s.runner.file.generation true)
  | .auth_ok =>
    s.send c (.reconcile_request ⟨s.runner.file.generation, s.runner.file.executedIds⟩)
  | .auth_error => s.callback opts .disconnect now
  | .reconcile_response body => s.callback opts (.reconcile_response body) now
  | .event_ack n => s.callback opts (.event_ack n) now
  | .command command => s.callback opts (.command command) now
  | .fenced _ => s.callback opts .fenced now

def step (s : Net) : NetOp → Net
  | .act op now => if isLocal op then s.callback opts op now else s
  | .connect now =>
    if s.runner.fenced ∨ s.current ≠ none then s
    else
      let s := s.callback opts .connect now
      { s with
        server := s.server.modify s.opened fun _ => Connection.new
        up := Function.update s.up s.opened []
        opened := s.opened + 1
        current := some s.opened }
  | .disconnect now => s.callback opts .disconnect now
  | .receive now =>
    match s.current with
    | none => s
    | some c =>
      match (s.server.connections c).out with
      | [] => s
      | frame :: rest =>
        { s with server := s.server.modify c fun k => { k with out := rest } }.onMessage opts c now
          frame
  | .lose c =>
    if s.current = some c then s
    else { s with
      server := s.server.modify c fun k => { k with out := [] }
      up := Function.update s.up c [] }
  | .arrive c =>
    if (s.server.connections c).readyState = .CLOSED then s
    else match s.up c with
      | [] => s
      | frame :: rest => { s with
        server := s.server.onMessage c frame
        up := Function.update s.up c rest }
  | .respond c now => { s with server := s.server.respond c now }
  | .failReconcile c => { s with server := s.server.failReconcile c }
  | .begin c => { s with server := s.server.begin c }
  | .finish c applied now => { s with server := s.server.finish c applied now }
  | .onClose c => { s with server := s.server.onClose c, up := Function.update s.up c [] }
  | .enqueueCommand envelope now =>
    match s.server.stores.enqueueCommand envelope now with
    | .ok (stores, _) => { s with server := { s.server with stores } }
    | .error _ => s
  | .sendCommand envelope =>
    match s.server.runnerSockets.get? envelope.runner_id with
    | some c => { s with server := s.server.sendFrame c (.command envelope) }
    | none => s
  | .persist => { s with saved := s.server.stores }
  | .restart =>
    if s.server.acksSent ≤ s.saved.eventWatermark s.runner.file.runner_id then
      { s with server := s.server.restart s.saved, up := fun _ => [] }
    else s

end Step

/-- A newly paired runner and a server that knows it, with an empty log. -/
def start (runner_id public_key_pem : String) (generation : ℕ) : Net where
  runner := paired runner_id generation
  server := {
    stores := (RelayStores.new.restoreDurableRunnerIdentity runner_id public_key_pem generation).1
    runnerSockets := OrdMap.empty
    reconciledRunners := OrdMap.empty
    connections := fun _ => { Connection.new with readyState := .CLOSED, out := [] }
    acksSent := 0 }
  saved := (RelayStores.new.restoreDurableRunnerIdentity runner_id public_key_pem generation).1
  up := fun _ => []
  opened := 0
  current := none
  sent := []

/-! ### What the server keeps -/

/-- The sequences that frames acknowledge. -/
def acksIn (frames : List ServerFrame) : List ℕ := frames.filterMap ServerFrame.ack?

/-- The callbacks on the chain, the running one included. -/
def chain (k : Connection) : List Delivery := k.runnerEventDelivery ++ k.applying.toList

/-- The socket is not that of a device, nor of another runner. -/
def Legacy (runnerId : String) (k : Connection) : Prop :=
  k.authenticationState ≠ .authenticated_device ∧ k.authedDevice = none ∧
    ∀ id, k.authedRunnerId = some id → id = runnerId

/-- **The invariant of the server**, for the events that the runner has created. -/
structure Served (runnerId : String) (created : List EventEnvelope) (s : RelayServer) : Prop where
  log : LogOf runnerId s.stores created
  tasks : ∀ c, ∀ d ∈ chain (s.connections c), d.event ∈ created ∧ d.authenticatedRunnerId ≠ none
  identity : ∀ c, Legacy runnerId (s.connections c)
  acks : ∀ c, ∀ n ∈ acksIn (s.connections c).out, n ≤ s.acksSent
  acksSent : s.acksSent ≤ s.stores.eventWatermark runnerId

/-- What a callback of the server does: it keeps the invariant, and acknowledges upwards. -/
structure Serves (runnerId : String) (created : List EventEnvelope) (s s' : RelayServer) :
    Prop where
  served : Served runnerId created s'
  acksSent : s.acksSent ≤ s'.acksSent
  out : ∀ c, ∃ extra, acksIn (s'.connections c).out = acksIn (s.connections c).out ++ extra ∧
    extra.Pairwise (· ≤ ·) ∧ ∀ n ∈ extra, s.acksSent ≤ n

section Server

variable {runnerId : String} {created : List EventEnvelope} {s s₁ s₂ : RelayServer} {c : ℕ}

theorem Served.serves (h : Served runnerId created s) : Serves runnerId created s s :=
  ⟨h, le_rfl, fun _ => ⟨[], by simp⟩⟩

theorem Serves.trans (h : Serves runnerId created s s₁) (h' : Serves runnerId created s₁ s₂) :
    Serves runnerId created s s₂ := by
  refine ⟨h'.served, h.acksSent.trans h'.acksSent, fun c => ?_⟩
  obtain ⟨extra, he, hsorted, hlow⟩ := h.out c
  obtain ⟨extra', he', hsorted', hlow'⟩ := h'.out c
  refine ⟨extra ++ extra', by rw [he', he, List.append_assoc], ?_, fun n hn => ?_⟩
  · refine List.pairwise_append.mpr ⟨hsorted, hsorted', fun n hn m hm => ?_⟩
    have hle : n ≤ s₁.acksSent :=
      h.served.acks c n (by rw [he]; exact List.mem_append_right _ hn)
    exact hle.trans (hlow' m hm)
  · rcases List.mem_append.mp hn with hn | hn
    · exact hlow n hn
    · exact h.acksSent.trans (hlow' n hn)

theorem Serves.andThen (h : Serves runnerId created s s₁)
    (h' : Served runnerId created s₁ → Serves runnerId created s₁ s₂) :
    Serves runnerId created s s₂ := h.trans (h' h.served)

/-- A change of one connection that sends nothing. -/
theorem Served.modify (h : Served runnerId created s) {f : Connection → Connection}
    (hout : (f (s.connections c)).out = (s.connections c).out)
    (htasks : ∀ d ∈ chain (f (s.connections c)),
      d.event ∈ created ∧ d.authenticatedRunnerId ≠ none)
    (hid : Legacy runnerId (f (s.connections c))) :
    Serves runnerId created s (s.modify c f) := by
  have hacks : ∀ c', acksIn ((s.modify c f).connections c').out = acksIn (s.connections c').out := by
    intro c'
    by_cases hc : c' = c
    · subst hc; simp [RelayServer.modify, hout]
    · simp [RelayServer.modify, hc]
  refine ⟨⟨h.log, fun c' => ?_, fun c' => ?_, fun c' => ?_, h.acksSent⟩, le_rfl, fun c' => ?_⟩
  · by_cases hc : c' = c
    · subst hc; simpa [RelayServer.modify] using htasks
    · simpa [RelayServer.modify, hc] using h.tasks c'
  · by_cases hc : c' = c
    · subst hc; simpa [RelayServer.modify] using hid
    · simpa [RelayServer.modify, hc] using h.identity c'
  · rw [hacks]; exact h.acks c'
  · exact ⟨[], by simp [hacks]⟩

/-- The same, with the callbacks and the identity left alone. -/
theorem Served.adjust (h : Served runnerId created s) {f : Connection → Connection}
    (hout : ∀ k, (f k).out = k.out) (htasks : ∀ k, chain (f k) = chain k)
    (hid : ∀ k, Legacy runnerId k → Legacy runnerId (f k)) :
    Serves runnerId created s (s.modify c f) :=
  h.modify (hout _) (by rw [htasks]; exact h.tasks c) (hid _ (h.identity c))

theorem Served.closeSocket (h : Served runnerId created s) :
    Serves runnerId created s (s.closeSocket c) := by
  refine h.adjust (fun k => ?_) (fun k => ?_) fun k hk => ?_
  · split_ifs <;> rfl
  · split_ifs <;> rfl
  · split_ifs <;> exact hk

/-- What is acknowledged is the watermark. -/
theorem Served.sendFrame (h : Served runnerId created s) {frame : ServerFrame}
    (hack : ∀ n, frame.ack? = some n → n = s.stores.eventWatermark runnerId) :
    Serves runnerId created s (s.sendFrame c frame) := by
  unfold RelayServer.sendFrame
  split_ifs with hopen
  swap
  · exact h.serves
  have hextra : ∀ n, frame.ack? = some n → s.acksSent ≤ n := fun n hn => hack n hn ▸ h.acksSent
  have hout : ∀ c', ∃ extra, acksIn ((s.modify c fun k => { k with
        out := k.out ++ [frame] }).connections c').out = acksIn (s.connections c').out ++ extra ∧
      extra.Pairwise (· ≤ ·) ∧ ∀ n ∈ extra, frame.ack? = some n := by
    intro c'
    by_cases hc : c' = c
    · subst hc
      refine ⟨frame.ack?.toList, ?_, ?_, fun n hn => ?_⟩
      · simp only [RelayServer.modify, Function.update_self, acksIn, List.filterMap_append]
        congr 1
      · rcases frame.ack? with _ | n <;> simp
      · simpa using hn
    · exact ⟨[], by simp [RelayServer.modify, hc]⟩
  refine ⟨⟨h.log, fun c' => ?_, fun c' => ?_, fun c' n hn => ?_, ?_⟩, Nat.le_max_left _ _,
    fun c' => ?_⟩
  · by_cases hc : c' = c
    · subst hc; simpa [RelayServer.modify, chain] using h.tasks c'
    · simpa [RelayServer.modify, hc] using h.tasks c'
  · by_cases hc : c' = c
    · subst hc; simpa [RelayServer.modify, Legacy] using h.identity c'
    · simpa [RelayServer.modify, hc] using h.identity c'
  · obtain ⟨extra, he, -, hn'⟩ := hout c'
    show n ≤ max s.acksSent (frame.ack?.getD 0)
    have hn : n ∈ acksIn (s.connections c').out ++ extra := he ▸ hn
    rcases List.mem_append.mp hn with hn | hn
    · exact (h.acks c' n hn).trans (Nat.le_max_left _ _)
    · rw [hn' n hn]; exact Nat.le_max_right _ _
  · show max s.acksSent (frame.ack?.getD 0) ≤ s.stores.eventWatermark runnerId
    have := h.acksSent
    rcases hf : frame.ack? with _ | n
    · simpa using this
    · have := hack n hf
      simp only [Option.getD_some]
      omega
  · obtain ⟨extra, he, hsorted, hn⟩ := hout c'
    exact ⟨extra, he, hsorted, fun n hm => hextra n (hn n hm)⟩

/-- Only the stores change, and the watermark does not fall. -/
theorem Served.withStores (h : Served runnerId created s) {stores : RelayStores}
    (hlog : LogOf runnerId stores created)
    (hw : s.stores.eventWatermark runnerId ≤ stores.eventWatermark runnerId) :
    Serves runnerId created s { s with stores } :=
  ⟨⟨hlog, h.tasks, h.identity, h.acks, h.acksSent.trans hw⟩, le_rfl, fun _ => ⟨[], by simp⟩⟩

theorem Served.withRegistration (h : Served runnerId created s) (runnerSockets : OrdMap String ℕ)
    (reconciledRunners : OrdMap String (ℕ × ℕ)) :
    Serves runnerId created s { s with runnerSockets, reconciledRunners } :=
  ⟨⟨h.log, h.tasks, h.identity, h.acks, h.acksSent⟩, le_rfl, fun _ => ⟨[], by simp⟩⟩

end Server

/-! ### The callbacks of the server -/

section Callbacks

variable {runnerId : String} {created : List EventEnvelope} {s : RelayServer} {c : ℕ}

/-- Nothing that is no response and no acknowledgement acknowledges. -/
theorem Served.tell (h : Served runnerId created s) {frame : ServerFrame}
    (hack : frame.ack? = none) : Serves runnerId created s (s.sendFrame c frame) :=
  h.sendFrame fun n hn => by rw [hack] at hn; cases hn

theorem Served.close (h : Served runnerId created s) : Serves runnerId created s
    (s.modify c fun k => { k with authenticationState := .closed }) :=
  h.modify rfl (h.tasks c) ⟨by simp, (h.identity c).2⟩

theorem Served.rejectAuthentication (h : Served runnerId created s) :
    Serves runnerId created s (s.rejectAuthentication c) := by
  unfold RelayServer.rejectAuthentication
  split_ifs
  · exact h.serves
  · refine (h.close (c := c)).andThen fun h => ?_
    exact (h.tell rfl).andThen fun h => h.closeSocket

theorem Served.onAuth (h : Served runnerId created s) (generation : ℕ) (signed : Bool) :
    Serves runnerId created s (s.onAuth c runnerId generation signed) := by
  unfold RelayServer.onAuth
  split_ifs
  · exact h.rejectAuthentication
  split
  · split_ifs
    · refine (h.close (c := c)).andThen fun h => ?_
      exact (h.tell rfl).andThen fun h => h.closeSocket
    · have authed : Serves runnerId created s (s.modify c fun k => { k with
          authedRunnerId := some runnerId
          authenticationState := .authenticated_legacy_runner }) := by
        refine h.modify rfl (h.tasks c) ⟨by simp, (h.identity c).2.1, fun id hid => ?_⟩
        exact (Option.some.inj hid).symm
      exact authed.andThen fun h => h.tell rfl
  · exact h.rejectAuthentication

theorem Served.onReconcileRequest (h : Served runnerId created s) (id : String)
    (body : ReconcileRequest) :
    Serves runnerId created s (s.onReconcileRequest c id body) := by
  have register : ∀ generation, Serves runnerId created s (s.register c id generation) := by
    intro generation
    unfold RelayServer.register
    rcases s.runnerSockets.get? id with _ | prior
    · exact h.withRegistration _ _
    · dsimp only
      split_ifs
      · exact h.closeSocket.andThen fun h => h.withRegistration _ _
      · exact h.withRegistration _ _
  unfold RelayServer.onReconcileRequest
  split
  · exact h.serves
  · split_ifs
    · exact (h.tell rfl).andThen fun h => h.closeSocket
    · exact (register _).andThen fun h => h.adjust (fun _ => rfl) (fun _ => rfl) fun _ hk => hk

/-- The store changes, and its log does not. -/
theorem Served.withCommands (h : Served runnerId created s) {stores : RelayStores}
    (hlog : SameLog s.stores stores) : Serves runnerId created s { s with stores } :=
  h.withStores (h.log.congr (hlog.eventsFor runnerId) (hlog.eventWatermark runnerId))
    (hlog.eventWatermark runnerId).ge

theorem Served.respond (h : Served runnerId created s) (now : ℕ) :
    Serves runnerId created s (s.respond c now) := by
  unfold RelayServer.respond
  split
  swap
  · exact h.serves
  rename_i id generation recentlyExecuted hstate _
  obtain rfl : id = runnerId := (h.identity c).2.2 id hstate
  dsimp only
  have hpending : SameLog s.stores (s.stores.pendingCommandsFor id recentlyExecuted now).1 :=
    sameLog_pendingCommandsFor
  refine (h.withCommands hpending).andThen fun h => ?_
  refine (h.adjust (c := c) (f := fun k => { k with reconciling := none }) (fun _ => rfl)
    (fun _ => rfl) fun _ hk => hk).andThen fun h => ?_
  have hack : ∀ n, ServerFrame.ack? (.reconcile_response
      ⟨(s.stores.pendingCommandsFor id recentlyExecuted now).1.eventWatermark id, generation,
        (s.stores.pendingCommandsFor id recentlyExecuted now).2⟩) = some n →
      n = (s.stores.pendingCommandsFor id recentlyExecuted now).1.eventWatermark id := by
    intro n hn
    exact (Option.some.inj hn).symm
  split_ifs
  · exact h.withCommands (markDelivered_spec _ now _).1
  · exact (h.sendFrame (c := c) hack).andThen fun h => h.withCommands (markDelivered_spec _ now _).1

theorem Served.failReconcile (h : Served runnerId created s) :
    Serves runnerId created s (s.failReconcile c) := by
  unfold RelayServer.failReconcile
  exact (h.adjust (c := c) (f := fun k => { k with reconciling := none }) (fun _ => rfl)
    (fun _ => rfl) fun _ hk => hk).andThen fun h => h.closeSocket

theorem Served.rejectRunnerEvents (h : Served runnerId created s) (fencedGeneration : Option ℕ) :
    Serves runnerId created s (s.rejectRunnerEvents c fencedGeneration) := by
  unfold RelayServer.rejectRunnerEvents
  split_ifs
  swap
  · exact h.serves
  refine (h.adjust (c := c) (f := fun k => { k with runnerEventIngressOpen := false })
    (fun _ => rfl) (fun _ => rfl) fun _ hk => hk).andThen fun h => ?_
  cases fencedGeneration with
  | none => exact h.closeSocket
  | some generation => exact (h.tell rfl).andThen fun h => h.closeSocket

theorem Served.onRunnerEvent (h : Served runnerId created s) (id : String) {event : EventEnvelope}
    (hevent : event ∈ created) : Serves runnerId created s (s.onRunnerEvent c id event) := by
  have arrived : Serves runnerId created s
      (s.modify c fun k => { k with arrivals := k.arrivals ++ [event] }) :=
    h.adjust (fun _ => rfl) (fun _ => rfl) fun _ hk => hk
  unfold RelayServer.onRunnerEvent
  dsimp only
  split_ifs
  · refine arrived.andThen fun h => ?_
    refine h.modify rfl (fun d hd => ?_) (h.identity c)
    -- the new callback is at the end of the chain, before the running one
    simp only [chain, List.mem_append, List.mem_singleton] at hd
    rcases hd with (hd | rfl) | hd
    · exact h.tasks c d (List.mem_append_left _ hd)
    · exact ⟨hevent, Option.some_ne_none _⟩
    · exact h.tasks c d (List.mem_append_right _ hd)
  · exact arrived.andThen fun h => h.rejectRunnerEvents _
  · exact arrived

theorem Served.begin (h : Served runnerId created s) :
    Serves runnerId created s (s.begin c) := by
  unfold RelayServer.begin
  split
  swap
  · exact h.serves
  rename_i delivery rest hnone hqueue
  have htask := h.tasks c
  unfold chain at htask
  rw [hqueue, hnone] at htask
  have started : Serves runnerId created s (s.modify c fun k =>
      { k with runnerEventDelivery := rest, applying := some delivery }) := by
    refine h.modify rfl (fun d hd => htask d ?_) (h.identity c)
    simpa [chain, or_comm] using hd
  have skipped : Serves runnerId created s (s.modify c fun k =>
      { k with runnerEventDelivery := rest }) := by
    refine h.modify rfl (fun d hd => htask d ?_) (h.identity c)
    simp only [chain, hnone, Option.toList_none, List.append_nil] at hd
    simp [hd]
  dsimp only
  split
  · exact started
  · split_ifs
    · exact started
    · exact skipped.andThen fun h => h.rejectRunnerEvents _
    · exact skipped

theorem sameLog_applyEventSideEffects (stores : RelayStores) (event : EventEnvelope) (now : ℕ) :
    SameLog stores (stores.applyEventSideEffects event now) := by
  unfold RelayStores.applyEventSideEffects
  split
  · exact sameLog_setCommandState _ _ _ _
  · exact ⟨rfl, rfl⟩

/-- An event is ingested into the log of its runner. -/
theorem LogOf.receive {stores : RelayStores} (h : LogOf runnerId stores created)
    (hinc : (created.map (·.event_seq)).Pairwise (· < ·)) (hpos : ∀ e ∈ created, 0 < e.event_seq)
    {event : EventEnvelope} (hevent : event ∈ created) (hid : event.runner_id = runnerId) (now : ℕ) :
    LogOf runnerId (stores.receive event now) created ∧
      stores.eventWatermark runnerId ≤ (stores.receive event now).eventWatermark runnerId := by
  obtain ⟨hlog, hcases⟩ := h.ingest hinc hpos hevent hid
  have hgrow : stores.eventWatermark runnerId ≤
      (stores.ingestEvent event).1.eventWatermark runnerId := by
    by_cases hnext : stores.Next event
    · have hw := (RelayStores.ingestEvent_accepted hnext).2.1
      have hseq := hnext.2
      rw [hid] at hw hseq
      omega
    · rw [(RelayStores.ingestEvent_refused hnext).1]
  have hside := sameLog_applyEventSideEffects (stores.ingestEvent event).1 event now
  unfold RelayStores.receive
  dsimp only
  split_ifs
  · exact ⟨hlog.congr (hside.eventsFor _) (hside.eventWatermark _),
      (hside.eventWatermark runnerId).symm ▸ hgrow⟩
  · exact ⟨hlog, hgrow⟩

theorem Served.finish (h : Served runnerId created s)
    (hinc : (created.map (·.event_seq)).Pairwise (· < ·)) (hpos : ∀ e ∈ created, 0 < e.event_seq)
    (hid : ∀ e ∈ created, e.runner_id = runnerId) (applied : Bool) (now : ℕ) :
    Serves runnerId created s (s.finish c applied now) := by
  unfold RelayServer.finish
  split
  · exact h.serves
  rename_i delivery happlying
  obtain ⟨hevent, hpath⟩ := h.tasks c delivery (by simp [chain, happlying])
  obtain ⟨authenticatedRunnerId, hpath⟩ := Option.ne_none_iff_exists'.mp hpath
  have ended : Serves runnerId created s (s.modify c fun k => { k with applying := none }) := by
    refine h.modify rfl (fun d hd => h.tasks c d ?_) (h.identity c)
    have hd : d ∈ (s.connections c).runnerEventDelivery := by simpa [chain] using hd
    exact List.mem_append_left _ hd
  have hsettle : RelayServer.settleEvent s.stores delivery now = s.stores.receive delivery.event now := by
    unfold RelayServer.settleEvent; rw [hpath]
  obtain ⟨hlog, hgrow⟩ := LogOf.receive h.log hinc hpos hevent (hid _ hevent) now
  dsimp only
  split_ifs
  · rw [hsettle]
    refine ended.andThen fun h => ?_
    refine (h.withStores hlog hgrow).andThen fun h => ?_
    cases hack : RelayServer.ackOf (s.stores.receive delivery.event now) delivery with
    | none => exact h.adjust (fun _ => rfl) (fun _ => rfl) fun _ hk => hk
    | some ack =>
      refine Serves.andThen (h.adjust (c := c) (f := fun k => { k with
        handled := k.handled ++ [(delivery, now)]
        acknowledged := k.acknowledged ++
          if k.readyState = ReadyState.OPEN ∧ (some ack).isSome = true then [delivery] else [] })
        (fun _ => rfl) (fun _ => rfl) fun _ hk => hk) fun h => ?_
      refine h.sendFrame fun n hn => ?_
      cases Option.some.inj hn
      unfold RelayServer.ackOf at hack
      rw [hpath] at hack
      dsimp only at hack
      split_ifs at hack
      cases hack
      rw [hid _ hevent]
      rfl
  · rw [hpath]
    exact ended.andThen fun h => h.rejectRunnerEvents none

theorem Served.onClose (h : Served runnerId created s) :
    Serves runnerId created s (s.onClose c) := by
  have deregister : ∀ {s' : RelayServer} {id : String}, Serves runnerId created s s' →
      Serves runnerId created s (s'.deregister c id) := by
    intro s' id hs
    unfold RelayServer.deregister
    split_ifs
    · exact hs.andThen fun h => h.withRegistration _ _
    · exact hs
  have closed : Serves runnerId created s (s.modify c fun k => { k with
      readyState := .CLOSED
      authenticationState := .closed
      authedDevice := none }) :=
    h.modify rfl (h.tasks c) ⟨by simp, rfl, (h.identity c).2.2⟩
  unfold RelayServer.onClose
  dsimp only
  rw [(h.identity c).2.1]
  split
  · exact deregister closed
  · exact closed

/-- What the frames of the runner carry is its own. -/
def Own (runnerId : String) (created : List EventEnvelope) : RunnerFrame → Prop
  | .auth id _ _ => id = runnerId
  | .reconcile_request _ => True
  | .event e => e ∈ created

theorem Served.onMessage (h : Served runnerId created s) {frame : RunnerFrame}
    (hframe : Own runnerId created frame) : Serves runnerId created s (s.onMessage c frame) := by
  cases frame with
  | auth id generation signed =>
    obtain rfl : id = runnerId := hframe
    exact h.onAuth generation signed
  | reconcile_request body =>
    unfold RelayServer.onMessage
    dsimp only
    split
    · exact absurd (by assumption) (h.identity c).1
    · split
      · exact h.serves
      · split_ifs
        · exact h.onReconcileRequest _ body
        · exact h.serves
    · exact h.serves
  | event e =>
    unfold RelayServer.onMessage
    dsimp only
    split
    · exact absurd (by assumption) (h.identity c).1
    · split
      · exact h.serves
      · split_ifs
        · exact h.onRunnerEvent _ hframe
        · exact h.serves
    · exact h.serves

end Callbacks

/-! ### The network -/

/-- **The invariant of the network.** -/
structure Delivering (runnerId : String) (s : Net) : Prop where
  healthy : Healthy s.runner
  numbered : Numbered s.runner
  windowed : Windowed s.runner
  identity : s.runner.file.runner_id = runnerId
  served : Served runnerId s.runner.created s.server
  saved : LogOf runnerId s.saved s.runner.created
  up : ∀ c, ∀ frame ∈ s.up c, Own runnerId s.runner.created frame
  heard : s.runner.serverAckSeq ≤ s.server.acksSent
  ordered : ∀ c, s.current = some c →
    (s.runner.serverAckSeq :: acksIn (s.server.connections c).out).Pairwise (· ≤ ·)
  sent : ∀ e ∈ s.sent, e ∈ s.runner.created ∧ e.event_seq ≤ s.runner.serverAckSeq + sendWindow

section Net

variable (opts : DaemonOptions) {runnerId : String} {s : Net}

/-- A callback of the server. -/
theorem Delivering.serve (h : Delivering runnerId s) {server : RelayServer}
    (hs : Serves runnerId s.runner.created s.server server) :
    Delivering runnerId { s with server } := by
  refine { h with
    served := hs.served
    heard := h.heard.trans hs.acksSent
    ordered := fun c hc => ?_ }
  obtain ⟨extra, he, hsorted, hlow⟩ := hs.out c
  have hold := h.ordered c hc
  show (s.runner.serverAckSeq :: acksIn (server.connections c).out).Pairwise (· ≤ ·)
  rw [he, ← List.cons_append]
  refine List.pairwise_append.mpr ⟨hold, hsorted, fun n hn m hm => ?_⟩
  rcases List.mem_cons.mp hn with rfl | hn
  · exact h.heard.trans (hlow m hm)
  · exact (h.served.acks c n hn).trans (hlow m hm)

theorem Delivering.withUp (h : Delivering runnerId s) {up : ℕ → List RunnerFrame}
    (hup : ∀ c, ∀ frame ∈ up c, Own runnerId s.runner.created frame) :
    Delivering runnerId { s with up } := { h with up := hup }

theorem Own.mono {created created' : List EventEnvelope} {frame : RunnerFrame}
    (h : Own runnerId created frame) (hc : created <+: created') : Own runnerId created' frame := by
  cases frame with
  | auth => exact h
  | reconcile_request => trivial
  | event e => exact hc.subset h

theorem Served.mono {created created' : List EventEnvelope} {server : RelayServer}
    (h : Served runnerId created server) (hc : created <+: created') :
    Served runnerId created' server :=
  { h with
    log := h.log.mono hc
    tasks := fun c d hd => ⟨hc.subset (h.tasks c d hd).1, (h.tasks c d hd).2⟩ }

/-- **A callback of the runner**: an acknowledgement that it hears is not older than the last, and not
newer than those still to come. -/
theorem Delivering.callback (h : Delivering runnerId s) {op : Op} (now : ℕ)
    (hop : op ≠ .authenticateDeviceExecution)
    (hack : ∀ n, op.ack? = some n → s.runner.serverAckSeq ≤ n ∧ n ≤ s.server.acksSent ∧
      ∀ c, s.current = some c → ∀ m ∈ acksIn (s.server.connections c).out, n ≤ m) :
    Delivering runnerId (s.callback opts op now) := by
  unfold Net.callback
  rcases step_cases opts h.healthy ⟨op, now, none⟩ with ⟨r, hm, hrest, -, hok⟩ | ⟨r, -, -, herr⟩
  swap
  · rw [herr]; exact h
  rw [hok]
  have hwin₀ : Windowed (s.runner.begin ⟨op, now, none⟩) :=
    h.windowed.congr (h.windowed.gapless.congr rfl rfl rfl rfl le_rfl h.windowed.gapless.serverAck)
      rfl rfl rfl rfl h.windowed.window fun _ he => he
  have hnum₀ : Numbered (s.runner.begin ⟨op, now, none⟩) := h.numbered.congr rfl rfl rfl rfl
  obtain ⟨hwin, hle, hn, hnone⟩ := hwin₀.moves hop (fun n hn => (hack n hn).1) hm
  have hle : s.runner.serverAckSeq ≤ r.serverAckSeq := hle
  have hnone : op.ack? = none → r.serverAckSeq = s.runner.serverAckSeq := hnone
  have hcreated : s.runner.created <+: r.created := hm.created
  have hsound := (h.healthy.begin ⟨op, now, none⟩).sound.moves hm
  -- what is heard was sent
  have hheard : r.serverAckSeq ≤ s.server.acksSent := by
    rcases ha : op.ack? with _ | n
    · rw [hnone ha]; exact h.heard
    · exact (hn n ha).trans (hack n ha).2.1
  refine {
    healthy := ⟨hsound.congr rfl rfl rfl (fun _ h => h) (fun h => h) rfl,
      { hrest with begun := fun _ _ hx => .inl hx, entered := fun _ _ hx hi => ⟨hx, hi⟩ }⟩
    numbered := (hnum₀.moves hm).congr rfl rfl rfl rfl
    windowed := hwin.congr (hwin.gapless.congr rfl rfl rfl rfl le_rfl hwin.gapless.serverAck)
      rfl rfl rfl rfl hwin.window fun _ he => by cases he
    identity := hm.identity.1.trans h.identity
    served := h.served.mono hcreated
    saved := h.saved.mono hcreated
    up := ?_
    heard := hheard
    ordered := fun c hc => ?_
    sent := fun e he => ?_ }
  · -- what is sent was created
    have hold : ∀ c, ∀ frame ∈ s.up c, Own runnerId r.created frame :=
      fun c frame hf => (h.up c frame hf).mono hcreated
    rcases s.current with _ | c
    · exact hold
    · intro c' frame hf
      by_cases hc : c' = c
      · subst hc
        simp only [Function.update_self, List.mem_append, List.mem_map] at hf
        rcases hf with hf | ⟨e, he, rfl⟩
        · exact hold c' frame hf
        · exact (hwin.outbox e he).1
      · simp only [Function.update_of_ne hc] at hf
        exact hold c' frame hf
  · have hcur : s.current = some c := by
      have hc : (if r.connected = true then s.current else none) = some c := hc
      split_ifs at hc
      exact hc
    have hold := h.ordered c hcur
    rw [List.pairwise_cons] at hold ⊢
    refine ⟨fun m hm => ?_, hold.2⟩
    rcases ha : op.ack? with _ | n
    · show r.serverAckSeq ≤ m
      rw [hnone ha]
      exact hold.1 m hm
    · exact (hn n ha).trans ((hack n ha).2.2 c hcur m hm)
  · rcases List.mem_append.mp he with he | he
    · obtain ⟨hc, hseq⟩ := h.sent e he
      refine ⟨hcreated.subset hc, ?_⟩
      show e.event_seq ≤ r.serverAckSeq + sendWindow
      omega
    · exact hwin.outbox e he

/-- A callback that hears no acknowledgement. -/
theorem Delivering.quiet (h : Delivering runnerId s) (op : Op) (now : ℕ)
    (hop : op ≠ .authenticateDeviceExecution) (hnone : op.ack? = none) :
    Delivering runnerId (s.callback opts op now) :=
  h.callback opts now hop fun n hn => by rw [hnone] at hn; cases hn

/-- A connection is replaced by one that acknowledges nothing new. -/
theorem Served.replace {created : List EventEnvelope} {server : RelayServer} {c : ℕ}
    (h : Served runnerId created server) {f : Connection → Connection}
    (htasks : ∀ d ∈ chain (f (server.connections c)),
      d.event ∈ created ∧ d.authenticatedRunnerId ≠ none)
    (hid : Legacy runnerId (f (server.connections c)))
    (hacks : ∀ n ∈ acksIn (f (server.connections c)).out, n ≤ server.acksSent) :
    Served runnerId created (server.modify c f) := by
  refine ⟨h.log, fun c' => ?_, fun c' => ?_, fun c' => ?_, h.acksSent⟩
  · by_cases hc : c' = c
    · subst hc; simpa [RelayServer.modify] using htasks
    · simpa [RelayServer.modify, hc] using h.tasks c'
  · by_cases hc : c' = c
    · subst hc; simpa [RelayServer.modify] using hid
    · simpa [RelayServer.modify, hc] using h.identity c'
  · by_cases hc : c' = c
    · subst hc; simpa [RelayServer.modify] using hacks
    · simpa [RelayServer.modify, hc] using h.acks c'

/-- Frames of the server are read, or lost. -/
theorem Delivering.forget (h : Delivering runnerId s) (c : ℕ) {out : List ServerFrame}
    (hout : out.Sublist (s.server.connections c).out) :
    Delivering runnerId { s with server := s.server.modify c fun k => { k with out } } := by
  have hacks : (acksIn out).Sublist (acksIn (s.server.connections c).out) := hout.filterMap _
  have hserved : Served runnerId s.runner.created
      (s.server.modify c fun k => { k with out }) :=
    h.served.replace (h.served.tasks c) (h.served.identity c)
      fun n hn => h.served.acks c n (hacks.subset hn)
  refine { h with served := hserved, ordered := fun c' hc' => ?_ }
  have hold := h.ordered c' hc'
  by_cases hc : c' = c
  · subst hc
    simp only [RelayServer.modify, Function.update_self]
    exact hold.sublist (hacks.cons_cons _)
  · simpa [RelayServer.modify, hc] using hold

theorem Delivering.send (h : Delivering runnerId s) (c : ℕ) {frame : RunnerFrame}
    (hframe : Own runnerId s.runner.created frame) : Delivering runnerId (s.send c frame) := by
  refine h.withUp fun c' frame' hf => ?_
  by_cases hc : c' = c
  · subst hc
    simp only [Function.update_self, List.mem_append, List.mem_singleton] at hf
    rcases hf with hf | rfl
    · exact h.up c' frame' hf
    · exact hframe
  · rw [Function.update_of_ne hc] at hf
    exact h.up c' frame' hf

theorem Delivering.onMessage (h : Delivering runnerId s) {c : ℕ} (hc : s.current = some c) (now : ℕ)
    {frame : ServerFrame}
    (hack : ∀ n, frame.ack? = some n → s.runner.serverAckSeq ≤ n ∧ n ≤ s.server.acksSent ∧
      ∀ m ∈ acksIn (s.server.connections c).out, n ≤ m) :
    Delivering runnerId (s.onMessage opts c now frame) := by
  have heard : ∀ n, frame.ack? = some n → s.runner.serverAckSeq ≤ n ∧ n ≤ s.server.acksSent ∧
      ∀ c', s.current = some c' → ∀ m ∈ acksIn (s.server.connections c').out, n ≤ m := by
    intro n hn
    obtain ⟨hle, hsent, hlow⟩ := hack n hn
    refine ⟨hle, hsent, fun c' hc' => ?_⟩
    rw [hc] at hc'
    cases hc'
    exact hlow
  cases frame with
  | challenge => exact h.send c h.identity
  | auth_ok => exact h.send c trivial
  | auth_error => exact h.quiet opts .disconnect now (by simp) rfl
  | reconcile_response body => exact h.callback opts now (by simp) heard
  | event_ack n => exact h.callback opts now (by simp) heard
  | command command => exact h.quiet opts (.command command) now (by simp) rfl
  | fenced generation => exact h.quiet opts .fenced now (by simp) rfl

theorem sameLog_enqueueCommand {stores stores' : RelayStores} {envelope : CommandEnvelope} {now : ℕ}
    {record : CommandRecord} (h : stores.enqueueCommand envelope now = .ok (stores', record)) :
    SameLog stores stores' := by
  unfold RelayStores.enqueueCommand at h
  split at h
  · split_ifs at h
    cases h
    exact ⟨rfl, rfl⟩
  · cases h
    exact ⟨rfl, rfl⟩

/-- **One operation.** -/
theorem Delivering.step (h : Delivering runnerId s) (op : NetOp) :
    Delivering runnerId (step opts s op) := by
  cases op with
  | act op now =>
    unfold Delivery.step
    dsimp only
    split_ifs with hlocal
    · refine h.quiet opts op now ?_ ?_
      · rintro rfl; cases hlocal
      · cases op <;> first | rfl | cases hlocal
    · exact h
  | connect now =>
    unfold Delivery.step
    dsimp only
    split_ifs
    · exact h
    -- the new connection carries nothing yet
    have h := h.quiet opts .connect now (by simp) rfl
    refine { h with
      served := h.served.replace (f := fun _ => Connection.new) (fun d hd => by cases hd)
        ⟨by simp [Connection.new], rfl, fun id hid => by cases hid⟩ fun n hn => by cases hn
      up := fun c frame hf => ?_
      ordered := fun c hc => ?_ }
    · by_cases hc : c = (s.callback opts .connect now).opened
      · subst hc; simp at hf
      · simp only [Function.update_of_ne hc] at hf
        exact h.up c frame hf
    · cases hc
      simp only [RelayServer.modify, Function.update_self]
      exact List.pairwise_singleton _ _
  | disconnect now => exact h.quiet opts .disconnect now (by simp) rfl
  | receive now =>
    unfold Delivery.step
    dsimp only
    split
    · exact h
    rename_i c hc
    split
    · exact h
    rename_i frame rest hout
    have hold := h.ordered c hc
    have hacks : acksIn (frame :: rest) = frame.ack?.toList ++ acksIn rest := by
      unfold acksIn
      rcases hf : frame.ack? with _ | n <;> simp [hf]
    rw [hout, hacks] at hold
    have hrest : rest.Sublist (s.server.connections c).out := by
      rw [hout]; exact List.sublist_cons_self _ _
    refine (h.forget c hrest).onMessage opts hc now fun n hn => ?_
    rw [hn, List.pairwise_cons] at hold
    refine ⟨hold.1 n (by simp), h.served.acks c n ?_, ?_⟩
    · rw [hout, hacks, hn]; simp
    · simp only [RelayServer.modify, Function.update_self]
      exact (List.pairwise_cons.mp hold.2).1
  | lose c =>
    unfold Delivery.step
    dsimp only
    split_ifs
    · exact h
    · refine (h.forget c (List.nil_sublist _)).withUp fun c' frame hf => ?_
      by_cases hc : c' = c
      · subst hc; simp at hf
      · rw [Function.update_of_ne hc] at hf
        exact h.up c' frame hf
  | arrive c =>
    unfold Delivery.step
    dsimp only
    split_ifs
    · exact h
    split
    · exact h
    rename_i frame rest hup
    have hframe : Own runnerId s.runner.created frame := h.up c frame (by rw [hup]; simp)
    refine (h.serve (h.served.onMessage hframe)).withUp fun c' frame' hf => ?_
    by_cases hc : c' = c
    · subst hc
      rw [Function.update_self] at hf
      exact h.up c' frame' (by rw [hup]; exact List.mem_cons_of_mem _ hf)
    · rw [Function.update_of_ne hc] at hf
      exact h.up c' frame' hf
  | respond c now => exact h.serve (h.served.respond now)
  | failReconcile c => exact h.serve h.served.failReconcile
  | begin c => exact h.serve h.served.begin
  | finish c applied now =>
    exact h.serve (h.served.finish h.numbered.increasing (fun e he => (h.numbered.bounded e he).1)
      (fun e he => (h.numbered.runner_id e he).trans h.identity) applied now)
  | onClose c =>
    refine (h.serve h.served.onClose).withUp fun c' frame hf => ?_
    by_cases hc : c' = c
    · subst hc; simp at hf
    · rw [Function.update_of_ne hc] at hf
      exact h.up c' frame hf
  | enqueueCommand envelope now =>
    unfold Delivery.step
    dsimp only
    split
    · rename_i hok
      exact h.serve (h.served.withCommands (sameLog_enqueueCommand hok))
    · exact h
  | sendCommand envelope =>
    unfold Delivery.step
    dsimp only
    split
    · exact h.serve (h.served.tell rfl)
    · exact h
  | persist => exact { h with saved := h.served.log }
  | restart =>
    unfold Delivery.step
    dsimp only
    split_ifs with hsaved
    · exact { h with
        served := ⟨h.saved, fun c d hd => by simp [RelayServer.restart, chain] at hd,
          fun c => ⟨by simp [RelayServer.restart], rfl, fun id hid => by cases hid⟩, h.served.acks, h.identity ▸ hsaved⟩
        up := fun c frame hf => by cases hf }
    · exact h

end Net

/-! ### The law -/

/-- **What delivery means.** -/
structure Delivered (runnerId : String) (s : Net) : Prop where
  /-- The log is an initial part of the events created, each of which has its own sequence. -/
  initial : s.server.stores.eventsFor runnerId <+: s.runner.created
  numbered : (s.runner.created.map (·.event_seq)).Pairwise (· < ·)
  /-- An event is pruned only if it is in the log. -/
  kept : ∀ e ∈ s.runner.created,
    e ∈ s.runner.file.buffer ∨ e ∈ s.server.stores.eventsFor runnerId
  /-- The window bounds what is sent and not acknowledged. -/
  window : (s.sent.filter fun e => decide (s.runner.serverAckSeq < e.event_seq)).dedup.length ≤
    sendWindow

theorem Delivering.delivered {runnerId : String} {s : Net} (h : Delivering runnerId s) :
    Delivered runnerId s := by
  have hpos : ∀ e ∈ s.runner.created, 0 < e.event_seq := fun e he => (h.numbered.bounded e he).1
  refine ⟨h.served.log.initial, h.numbered.increasing, fun e he => ?_, ?_⟩
  · by_cases hack : s.runner.acked < e.event_seq
    · exact .inl (h.windowed.kept e he hack)
    · right
      have hheard := h.heard
      have hsent := h.served.acksSent
      have hacked := h.windowed.acked
      exact h.served.log.mem h.numbered.increasing hpos he (by omega)
  · -- distinct events have distinct sequences, all of them in the window
    let pending := (s.sent.filter fun e => decide (s.runner.serverAckSeq < e.event_seq)).dedup
    have hmem : ∀ e ∈ pending, e ∈ s.sent ∧ s.runner.serverAckSeq < e.event_seq := by
      intro e he
      have he := List.mem_filter.mp (List.mem_dedup.mp he)
      exact ⟨he.1, of_decide_eq_true he.2⟩
    have hnodup : (pending.map (·.event_seq)).Nodup := by
      refine (List.nodup_dedup _).map_on fun e he e' he' heq => ?_
      exact List.inj_on_of_nodup_map (h.numbered.increasing.imp fun hlt => Nat.ne_of_lt hlt)
        (h.sent e (hmem e he).1).1 (h.sent e' (hmem e' he').1).1 heq
    have hsub : pending.map (·.event_seq) ⊆
        List.range' (s.runner.serverAckSeq + 1) sendWindow := by
      intro n hn
      obtain ⟨e, he, rfl⟩ := List.mem_map.mp hn
      have hle := (h.sent e (hmem e he).1).2
      have hlt := (hmem e he).2
      rw [List.mem_range'_1]
      omega
    have hlen := (hnodup.subperm hsub).length_le
    rwa [List.length_map, List.length_range'] at hlen

theorem delivering_start (runner_id public_key_pem : String) (generation : ℕ) :
    Delivering runner_id (start runner_id public_key_pem generation) where
  healthy := healthy_paired runner_id generation
  numbered := numbered_paired runner_id generation
  windowed := windowed_paired runner_id generation
  identity := rfl
  served := {
    log := (logOf_new runner_id _).congr rfl rfl
    tasks := fun c d hd => by cases hd
    identity := fun c => ⟨by simp [start, Connection.new], rfl, fun id hid => by cases hid⟩
    acks := fun c n hn => by cases hn
    acksSent := Nat.zero_le _ }
  saved := (logOf_new runner_id _).congr rfl rfl
  up := fun c frame hf => by cases hf
  heard := le_rfl
  ordered := fun c hc => by cases hc
  sent := fun e he => by cases he

/-- **Event delivery**, after any operations in any order. -/
theorem delivery_run (opts : DaemonOptions) (runner_id public_key_pem : String) (generation : ℕ)
    (ops : List NetOp) :
    Delivered runner_id (run (step opts) (start runner_id public_key_pem generation) ops) :=
  (run_induct' (fun _ op h => h.step opts op)
    (delivering_start runner_id public_key_pem generation) ops).delivered

/-- Two heartbeats are created and only the first is sent before the connection ends; both are in the
log at the end. -/
example :
    ((run (step ⟨false, false, id⟩) (start "r" "key" 1) [.connect 0, .receive 0, .arrive 0,
      .receive 0, .arrive 0, .act (.emit .heartbeat {}) 0, .arrive 0, .begin 0, .disconnect 0,
      .act (.emit .heartbeat {}) 0, .finish 0 true 0, .onClose 0, .connect 1, .receive 1, .arrive 1,
      .receive 1, .arrive 1, .respond 1 1, .receive 1, .arrive 1, .begin 1,
      .finish 1 true 1]).server.stores.eventsFor "r").map (·.event_seq) = [1, 2] := by
  decide

end Norns.Relay.Delivery
