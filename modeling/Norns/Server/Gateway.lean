import Mathlib.Logic.Function.Basic
import Norns.Server.Stores

/-! # The gateway of the relay

The message handler of one socket (`/ws/runner` of `server.ts`), for a legacy runner and, in the part
that takes events, for a device. An event goes through the promise chain of its socket: `onMessage`
queues it, `begin` starts its callback, which awaits the application of the event, and `finish` resumes
with the outcome. Between any two of them other callbacks of the server may run.

The identity of a socket is a number, and `connections` knows every socket that there ever was. -/

namespace Norns.Server.Gateway

open Norns.Lib Norns.Contracts.Protocol Norns.Server.Stores

inductive ReadyState
  | OPEN | CLOSING | CLOSED
  deriving DecidableEq, Repr

inductive AuthenticationState
  | awaiting | authenticated_legacy_runner | authenticated_device | closed
  deriving DecidableEq, Repr

/-- One callback on the promise chain, with what it captured. -/
structure Delivery where
  event : EventEnvelope
  /-- Its place among the events that arrived on the connection. -/
  index : ℕ
  /-- Of the legacy path; the device path captures none. -/
  authenticatedRunnerId : Option String
  deriving DecidableEq, Repr

structure Connection where
  readyState : ReadyState
  authenticationState : AuthenticationState
  authedRunnerId : Option String
  /-- Device id and generation. -/
  authedDevice : Option (String × ℕ)
  runnerEventIngressOpen : Bool
  /-- The callbacks that have not started. -/
  runnerEventDelivery : List Delivery
  /-- The callback that awaits the application of its event. -/
  applying : Option Delivery
  /-- The reconcile that awaits the pending commands: its generation, and the executed ids. -/
  reconciling : Option (ℕ × List String)
  /-- The frames sent that the runner has not read. -/
  out : List ServerFrame
  -- of the observer
  /-- The events that arrived. -/
  arrivals : List EventEnvelope
  /-- The callbacks that applied and ingested their event, and when. -/
  handled : List (Delivery × ℕ)
  /-- The callbacks that acknowledged it. -/
  acknowledged : List Delivery
  deriving DecidableEq

/-- A socket that has just connected. -/
def Connection.new : Connection where
  readyState := .OPEN
  authenticationState := .awaiting
  authedRunnerId := none
  authedDevice := none
  runnerEventIngressOpen := true
  runnerEventDelivery := []
  applying := none
  reconciling := none
  out := [.challenge]
  arrivals := []
  handled := []
  acknowledged := []

structure RelayServer where
  stores : RelayStores
  runnerSockets : OrdMap String ℕ
  /-- Socket and generation. -/
  reconciledRunners : OrdMap String (ℕ × ℕ)
  connections : ℕ → Connection
  /-- The highest sequence acknowledged in a frame that was sent; of the observer. -/
  acksSent : ℕ

namespace RelayServer

def modify (s : RelayServer) (c : ℕ) (f : Connection → Connection) : RelayServer :=
  { s with connections := Function.update s.connections c (f (s.connections c)) }

/-- A frame to a socket that is not open goes nowhere. -/
def sendFrame (s : RelayServer) (c : ℕ) (frame : ServerFrame) : RelayServer :=
  if (s.connections c).readyState = .OPEN then
    { s.modify c fun k => { k with out := k.out ++ [frame] } with
      acksSent := max s.acksSent (frame.ack?.getD 0) }
  else s

/-- `socket.close` -/
def closeSocket (s : RelayServer) (c : ℕ) : RelayServer :=
  s.modify c fun k => if k.readyState = .OPEN then { k with readyState := .CLOSING } else k

/-! ### Authentication and reconciliation of a legacy runner -/

def rejectAuthentication (s : RelayServer) (c : ℕ) : RelayServer :=
  if (s.connections c).authenticationState = .closed then s
  else
    let s := s.modify c fun k => { k with authenticationState := .closed }
    (s.sendFrame c .auth_error).closeSocket c

def onAuth (s : RelayServer) (c : ℕ) (runner_id : String) (generation : ℕ) (signed : Bool) :
    RelayServer :=
  if (s.connections c).authenticationState ≠ .awaiting then s.rejectAuthentication c
  else match s.stores.runners.get? runner_id, signed with
    | some runner, true =>
      if generation ≠ runner.generation then
        let s := s.modify c fun k => { k with authenticationState := .closed }
        (s.sendFrame c (.fenced runner.generation)).closeSocket c
      else
        let s := s.modify c fun k => { k with
          authedRunnerId := some runner_id
          authenticationState := .authenticated_legacy_runner }
        s.sendFrame c .auth_ok
    | _, _ => s.rejectAuthentication c

/-- The socket becomes the current one of the runner; a prior one is closed. -/
def register (s : RelayServer) (c : ℕ) (runnerId : String) (generation : ℕ) : RelayServer :=
  let s := match s.runnerSockets.get? runnerId with
    | some prior => if prior ≠ c then s.closeSocket prior else s
    | none => s
  { s with
    runnerSockets := s.runnerSockets.set runnerId c
    reconciledRunners := s.reconciledRunners.set runnerId (c, generation) }

/-- Up to the first `await`. -/
def onReconcileRequest (s : RelayServer) (c : ℕ) (runnerId : String) (body : ReconcileRequest) :
    RelayServer :=
  match s.stores.runners.get? runnerId with
  | none => s
  | some runner =>
    if body.generation ≠ runner.generation then
      (s.sendFrame c (.fenced runner.generation)).closeSocket c
    else
      (s.register c runnerId runner.generation).modify c fun k =>
        { k with reconciling := some (runner.generation, body.recently_executed_command_ids) }

/-- The pending commands are there: the response, with what must be sent again. -/
def respond (s : RelayServer) (c : ℕ) (now : ℕ) : RelayServer :=
  match (s.connections c).authedRunnerId, (s.connections c).reconciling with
  | some runnerId, some (generation, recentlyExecuted) =>
    let (stores, inMemoryPending) := s.stores.pendingCommandsFor runnerId recentlyExecuted now
    let s := { s with stores }.modify c fun k => { k with reconciling := none }
    -- a watermark that is no number makes a response that the runner does not read
    let s := if stores.inheritsWatermark runnerId then s
      else s.sendFrame c (.reconcile_response ⟨stores.eventWatermark runnerId, generation, inMemoryPending⟩)
    { s with stores := s.stores.markDelivered inMemoryPending now }
  | _, _ => s

/-- The pending commands could not be read. -/
def failReconcile (s : RelayServer) (c : ℕ) : RelayServer :=
  (s.modify c fun k => { k with reconciling := none }).closeSocket c

/-! ### Events -/

/-- Stop the ingress of the socket, once. -/
def rejectRunnerEvents (s : RelayServer) (c : ℕ) (fencedGeneration : Option ℕ) : RelayServer :=
  if (s.connections c).runnerEventIngressOpen then
    let s := s.modify c fun k => { k with runnerEventIngressOpen := false }
    let s := match fencedGeneration with
      | some generation => s.sendFrame c (.fenced generation)
      | none => s
    s.closeSocket c
  else s

/-- The event is of the reconciled generation of the runner, on its current socket. -/
def isCurrent (s : RelayServer) (c : ℕ) (runnerId : String) (event : EventEnvelope) : Bool :=
  match s.reconciledRunners.get? runnerId, s.stores.runners.get? runnerId with
  | some (socket, generation), some currentRunner =>
    decide (s.runnerSockets.get? runnerId = some c ∧ socket = c ∧ event.runner_id = runnerId ∧
      generation = currentRunner.generation ∧ event.generation = generation)
  | _, _ => false

/-- The same for a device, whose generation is the one it authenticated with. -/
def isCurrentDevice (s : RelayServer) (c : ℕ) (device_id : String) (generation : ℕ)
    (event : EventEnvelope) : Bool :=
  decide (s.runnerSockets.get? device_id = some c ∧
    (s.reconciledRunners.get? device_id).map Prod.fst = some c ∧ event.runner_id = device_id ∧
    event.generation = generation)

/-- The generation that a mismatched event is told. -/
def currentGeneration (s : RelayServer) (runnerId : String) (event : EventEnvelope) : ℕ :=
  ((s.stores.runners.get? runnerId).map (·.generation)).getD (event.generation + 1)

/-- Put a callback on the promise chain. -/
def enqueue (s : RelayServer) (c : ℕ) (delivery : Delivery) : RelayServer :=
  s.modify c fun k => { k with runnerEventDelivery := k.runnerEventDelivery ++ [delivery] }

/-- The device path closes the socket for good. -/
def rejectDevice (s : RelayServer) (c : ℕ) : RelayServer :=
  (s.modify c fun k =>
    { k with runnerEventIngressOpen := false, authenticationState := .closed }).closeSocket c

/-- An event frame of a device. -/
def onDeviceEvent (s : RelayServer) (c : ℕ) (device_id : String) (generation : ℕ)
    (event : EventEnvelope) : RelayServer :=
  let k := s.connections c
  let arrived := s.modify c fun k => { k with arrivals := k.arrivals ++ [event] }
  if k.runnerEventIngressOpen = true ∧ s.isCurrentDevice c device_id generation event = true then
    arrived.enqueue c ⟨event, k.arrivals.length, none⟩
  else arrived.rejectDevice c

/-- An event frame of a legacy runner. -/
def onRunnerEvent (s : RelayServer) (c : ℕ) (runnerId : String) (event : EventEnvelope) :
    RelayServer :=
  let k := s.connections c
  let arrived := s.modify c fun k => { k with arrivals := k.arrivals ++ [event] }
  if k.runnerEventIngressOpen then
    if s.isCurrent c runnerId event then
      arrived.enqueue c ⟨event, k.arrivals.length, some runnerId⟩
    else arrived.rejectRunnerEvents c (some (s.currentGeneration runnerId event))
  else arrived

/-- The next callback on the chain starts. Only the legacy path looks at the socket again. -/
def begin (s : RelayServer) (c : ℕ) : RelayServer :=
  match (s.connections c).applying, (s.connections c).runnerEventDelivery with
  | none, delivery :: rest =>
    let started := s.modify c fun k =>
      { k with runnerEventDelivery := rest, applying := some delivery }
    let skipped := s.modify c fun k => { k with runnerEventDelivery := rest }
    match delivery.authenticatedRunnerId with
    | none => started
    | some runnerId =>
      if (s.connections c).runnerEventIngressOpen then
        if s.isCurrent c runnerId delivery.event then started
        else skipped.rejectRunnerEvents c (some (s.currentGeneration runnerId delivery.event))
      else skipped
  | _, _ => s

/-- The store after an event was applied. -/
def settleEvent (stores : RelayStores) (delivery : Delivery) (now : ℕ) : RelayStores :=
  match delivery.authenticatedRunnerId with
  | none => (stores.ingestEvent delivery.event).1.acknowledgeEventWatermark
      delivery.event.runner_id delivery.event.event_seq
  | some _ => stores.receive delivery.event now

/-- What it is acknowledged with: the event itself on the device path, the watermark on the other. The runner
does not read one that is no number. -/
def ackOf (stores : RelayStores) (delivery : Delivery) : Option ℕ :=
  match delivery.authenticatedRunnerId with
  | none => some delivery.event.event_seq
  | some _ =>
    if stores.inheritsWatermark delivery.event.runner_id then none
    else some (stores.eventWatermark delivery.event.runner_id)

/-- The application of the event ends: `applied`, or it threw. -/
def finish (s : RelayServer) (c : ℕ) (applied : Bool) (now : ℕ) : RelayServer :=
  match (s.connections c).applying with
  | none => s
  | some delivery =>
    let ended := s.modify c fun k => { k with applying := none }
    if applied then
      let stores := settleEvent s.stores delivery now
      let noted := { ended with stores }.modify c fun k => { k with
        handled := k.handled ++ [(delivery, now)]
        acknowledged := k.acknowledged ++
          if k.readyState = ReadyState.OPEN ∧ (ackOf stores delivery).isSome then [delivery] else [] }
      match ackOf stores delivery with
      | some ack => noted.sendFrame c (.event_ack ack)
      | none => noted
    else match delivery.authenticatedRunnerId with
      | none => ended.rejectDevice c
      | some _ => ended.rejectRunnerEvents c none

/-! ### The end of a connection -/

/-- The socket is no longer the current one of the id. -/
def deregister (s : RelayServer) (c : ℕ) (id : String) : RelayServer :=
  if s.runnerSockets.get? id = some c then { s with
    runnerSockets := s.runnerSockets.delete id
    reconciledRunners := s.reconciledRunners.delete id }
  else s

/-- The `close` event of the socket. -/
def onClose (s : RelayServer) (c : ℕ) : RelayServer :=
  let closed := s.modify c fun k => { k with
    readyState := .CLOSED
    authenticationState := .closed
    authedDevice := none }
  let ofDevice := match (s.connections c).authedDevice with
    | some (device_id, _) => closed.deregister c device_id
    | none => closed
  match (s.connections c).authedRunnerId with
  | some runnerId => ofDevice.deregister c runnerId
  | none => ofDevice

/-- The process starts again from a snapshot. -/
def restart (s : RelayServer) (stores : RelayStores) : RelayServer where
  stores := stores
  runnerSockets := OrdMap.empty
  reconciledRunners := OrdMap.empty
  connections c := { s.connections c with
    readyState := .CLOSED
    authenticationState := .closed
    authedRunnerId := none
    authedDevice := none
    runnerEventDelivery := []
    applying := none
    reconciling := none }
  acksSent := s.acksSent

/-- A frame arrives; before the authentication nothing else is read. -/
def onMessage (s : RelayServer) (c : ℕ) : RunnerFrame → RelayServer
  | .auth runner_id generation signed => s.onAuth c runner_id generation signed
  | frame =>
    match (s.connections c).authenticationState with
    | .authenticated_device =>
      match (s.connections c).authedDevice, frame with
      | some (device_id, generation), .event event => s.onDeviceEvent c device_id generation event
      | _, _ => s
    | .authenticated_legacy_runner =>
      match (s.connections c).authedRunnerId with
      | none => s
      | some runnerId =>
        if s.stores.runners.has runnerId then
          match frame with
          | .reconcile_request body => s.onReconcileRequest c runnerId body
          | .event event => s.onRunnerEvent c runnerId event
          | .auth _ _ _ => s
        else s
    | _ => s

end RelayServer

end Norns.Server.Gateway
