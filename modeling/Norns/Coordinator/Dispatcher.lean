import Norns.Coordinator.EventProcessor

/-! # The dispatcher

`Phase4DispatchRepository` (`phase4Dispatcher.ts`): a job is claimed under a lease, delivered,
retried or given up. A claim takes some job that can be claimed, since it skips locked rows; whether
the command is still authorized is an input, as is what the pauses and the continuations answer. -/

namespace Norns.Coordinator

open Norns.Lib Norns.Lib.Transaction Norns.Contracts.Protocol Norns.Contracts.V2Lifecycle

namespace Database

/-- `status NOT IN ('succeeded','failed','rejected','expired','cancelled')` -/
def isOpen : CommandStatus → Bool
  | .state .succeeded | .state .failed | .state .rejected | .state .expired
  | .state .cancelled => false
  | .state _ | .dispatched => true

/-- The job of a stale command. -/
def cancelJob (db : Database) (job_id : String) : Database :=
  match db.dispatch_jobs.get? job_id with
  | none => db
  | some job =>
    if [JobStatus.queued, .leased, .awaiting_enrollment, .delivered].contains job.status then
      db.setJob job_id { job with
        status := .cancelled, lease_owner := none, lease_expires_at := none }
    else db

/-- The stale command itself. -/
def cancelCommand (db : Database) (command_id : String) : Database :=
  match db.commands.get? command_id with
  | none => db
  | some row =>
    if isOpen row.status then db.setCommandStatus command_id (.state .cancelled) else db

def cancelStaleCommand (db : Database) (job_id command_id : String) : Database :=
  (db.cancelJob job_id).cancelCommand command_id

/-- `claim` -/
def claim (db : Database) (job_id owner : String) (now leaseMs : ℕ) (authorized : Bool) :
    Database :=
  match db.dispatch_jobs.get? job_id with
  | none => db
  | some job =>
    match db.commands.get? job.command_id with
    | none => db
    | some command =>
      if (job.status = .queued ∨ job.status = .leased ∧ job.lease_expires_at.any (· ≤ now)) ∧
          job.available_at ≤ now ∧ command.kind = .launch_run then
        let db := db.setJob job_id { job with
          status := .leased
          attempts := job.attempts + 1
          lease_owner := some owner
          lease_expires_at := some (now + leaseMs) }
        if authorized then db else db.cancelStaleCommand job_id job.command_id
      else db

/-- The command of a delivered job. -/
def dispatchCommand (db : Database) (command_id : String) : Database :=
  match db.commands.get? command_id with
  | none => db
  | some row =>
    if row.status = .state .queued ∨ row.status = .dispatched then
      db.setCommandStatus command_id .dispatched
    else db

/-- `markDeliveredInTransaction` -/
def markDelivered (db : Database) (job_id owner : String) (allowAwaitingEnrollment receipts : Bool)
    (occurred_at : ℕ) : Except Abort Database :=
  match db.dispatch_jobs.get? job_id with
  | none => .error (.rejected ("dispatch job " ++ job_id ++ " is not leased by " ++ owner))
  | some job =>
    if job.status = .leased ∧ job.lease_owner = some owner ∨ job.status = .delivered ∨
        allowAwaitingEnrollment ∧ job.status = .awaiting_enrollment then do
      refuse (receipts = false) (.rejected "continuation action was not recordable as sent")
      let db := (db.setJob job_id { job with
        status := .delivered
        lease_owner := none
        lease_expires_at := none }).dispatchCommand job.command_id
      match db.scope? job.run_id with
      | none => pure db
      | some s =>
        if s.run.state = .created then
          db.putScope job.run_id <$> s.transitionRun .dispatched occurred_at
        else pure db
    else .error (.rejected ("dispatch job " ++ job_id ++ " is not leased by " ++ owner))

/-- `deliverClaimed`, `pendingForRunner` and `deliverPendingForRunner`: the command is authorized
again, sent and marked, or it is cancelled. -/
def deliver (db : Database) (job_id owner : String)
    (authorized sent allowAwaitingEnrollment receipts : Bool) (occurred_at : ℕ) :
    Except Abort Database :=
  match db.dispatch_jobs.get? job_id with
  | none => .error (.rejected ("dispatch job " ++ job_id ++ " is not leased by " ++ owner))
  | some job =>
    if authorized then
      if sent then db.markDelivered job_id owner allowAwaitingEnrollment receipts occurred_at
      else .error (.rejected "delivery failed")
    else .ok (db.cancelStaleCommand job_id job.command_id)

/-- `retry` -/
def retryJob (db : Database) (job_id owner : String) (available_at : ℕ) : Except Abort Database :=
  match db.dispatch_jobs.get? job_id with
  | none => .error (.rejected ("dispatch job " ++ job_id ++ " retry lost its lease"))
  | some job =>
    if job.status = .leased ∧ job.lease_owner = some owner then
      .ok (db.setJob job_id { job with
        status := .queued, available_at, lease_owner := none, lease_expires_at := none })
    else if job.status = .cancelled then .ok db
    else .error (.rejected ("dispatch job " ++ job_id ++ " retry lost its lease"))

/-- The run and the task of a job that is given up. -/
def giveUp (s : Scope) (occurred_at : ℕ) : Except Abort Scope := do
  let s ← (if s.run.state = .created ∨ s.run.state = .dispatched then
      s.transitionRun .expired occurred_at
    else pure s)
  if s.task.state = .completed ∨ s.task.state = .failed ∨ s.task.state = .cancelled then pure s
  else s.transitionTask .blocked

/-- `deadLetter`, where `cost_usd` is the usage attributable to the run. -/
def deadLetter (db : Database) (job_id owner : String) (occurred_at cost_usd : ℕ) :
    Except Abort Database :=
  match db.dispatch_jobs.get? job_id with
  | none => .error (.rejected ("dispatch job " ++ job_id ++ " dead-letter lost its lease"))
  | some job =>
    if job.status = .leased ∧ job.lease_owner = some owner then do
      let db := (db.setJob job_id { job with
        status := .dead_letter
        lease_owner := none
        lease_expires_at := none }).setCommandStatus job.command_id (.state .failed)
      let db ← (match db.scope? job.run_id with
        | none => pure db
        | some s => db.putScope job.run_id <$> giveUp s occurred_at)
      db.resolveActive job.run_id
        (fun usage => if 0 < usage then .partial_usage else .dead_letter) cost_usd
    else if job.status = .cancelled then .ok db
    else .error (.rejected ("dispatch job " ++ job_id ++ " dead-letter lost its lease"))

end Database

end Norns.Coordinator
