import Norns.Coordinator.Effects

/-! # The status of a command

Acknowledgements, cancellations and the dispatcher's own marks write one column. `Moves` is an edge
of `COMMAND_TRANSITIONS`, with the dispatcher's `dispatched` read as `delivered`, or no change. The
event path writes whatever state a runner acknowledged and the cancellation of a stale command
spares every terminal state but `waiting_for_human`; `Respects` says which steps keep to the edges,
and `commands_advance` that then every status does, and that a finished command stays finished. -/

namespace Norns.Coordinator.Commands

open Norns.Lib Norns.Lib.Run Norns.Lib.Transaction Norns.Coordinator.Database
  Norns.Contracts.Protocol Norns.Contracts.V2Lifecycle

variable {db db' : Database} {event : RunnerEvent} {here : Elsewhere} {id : String}
  {row : CommandRow}

/-! ### Edges -/

/-- No change, or an edge of the contract. -/
def Moves (a b : CommandStatus) : Prop :=
  a.contract = b.contract ∨ canCommandTransition a.contract b.contract = true

/-- Every command keeps its place and its status moves along the edges. -/
def Advances (m m' : OrdMap String CommandRow) : Prop :=
  ∀ id row, m.get? id = some row → ∃ row', m'.get? id = some row' ∧ Moves row.status row'.status

theorem Advances.refl (m : OrdMap String CommandRow) : Advances m m :=
  fun _ row h => ⟨row, h, .inl rfl⟩

theorem advances_set {m : OrdMap String CommandRow} {row' : CommandRow}
    (h : ∀ row, m.get? id = some row → Moves row.status row'.status) :
    Advances m (m.set id row') := by
  intro k row hk
  by_cases hid : id = k
  · subst hid
    exact ⟨row', OrdMap.get?_set_self .., h row hk⟩
  · exact ⟨row, by rwa [OrdMap.get?_set_ne _ _ hid], .inl rfl⟩

theorem advances_setCommandStatus (db : Database) {status : CommandStatus}
    (h : ∀ row, db.commands.get? id = some row → Moves row.status status) :
    Advances db.commands (db.setCommandStatus id status).commands := by
  unfold setCommandStatus
  split
  · exact .refl _
  · exact advances_set h

theorem moves_cancelled {status : CommandStatus} (hopen : isOpen status = true)
    (hwait : status ≠ .state .waiting_for_human) : Moves status (.state .cancelled) := by
  rcases status with _ | state
  · exact .inr rfl
  · rcases state <;> first | exact .inr rfl | exact absurd rfl hwait | cases hopen

/-! ### The steps -/

/-- **The condition.** An acknowledgement that is new and passes the fences carries the state the
command has, or one the contract allows after it; a cancellation does not meet a command that waits for a human; a job is
given up while its command executes, or has failed. -/
def Respects (db : Database) : Op → Prop
  | .event event here => ∀ id state detail row, event.payload = .command_ack id state detail →
      here.authorized = true →
      ¬ (db.runner_revocations.get? event.runner_id).any (event.generation ≤ ·) →
      db.runner_events.has event.key = false → db.commands.get? id = some row →
      Accepts row event id → Moves row.status (.state state)
  | .claim job_id _ _ _ authorized | .deliver job_id _ authorized _ _ _ _ =>
    authorized = false → ∀ job row, db.dispatch_jobs.get? job_id = some job →
      db.commands.get? job.command_id = some row → row.status ≠ .state .waiting_for_human
  | .deadLetter job_id owner _ _ => ∀ job row, db.dispatch_jobs.get? job_id = some job →
      job.lease_owner = some owner → db.commands.get? job.command_id = some row →
      Moves row.status (.state .failed)
  | _ => True

theorem advances_cancelStaleCommand (db : Database) {job_id : String}
    (h : ∀ row, db.commands.get? id = some row → row.status ≠ .state .waiting_for_human) :
    Advances db.commands (db.cancelStaleCommand job_id id).commands := by
  obtain ⟨jobs, hjobs⟩ := cancelJob_eq db job_id
  unfold cancelStaleCommand cancelCommand
  rw [hjobs]
  split
  · exact .refl _
  · rename_i row hrow
    split
    · rename_i hopen
      refine advances_setCommandStatus { db with dispatch_jobs := jobs } fun row' hrow' => ?_
      cases hrow.symm.trans hrow'
      exact moves_cancelled hopen (h row hrow)
    · exact .refl _

theorem endCommand_commands {run_id : String} {state : CommandState} {terminal : Terminal}
    {detail : String} (h : db.endCommand event id run_id state terminal detail here = .ok db') :
    db'.commands = db.commands := by
  obtain ⟨budget, -, ⟨-, rfl⟩ | ⟨s, s', settles, -, -, rfl⟩⟩ := endCommand_ok h
  · rfl
  · rfl

theorem apply_advances (hrespects : Respects db (.event event here)) :
    Ensures (db.apply event here) fun r => Advances db.commands r.2.commands := by
  rintro ⟨reply, db'⟩ h
  obtain ⟨hauthorized, hrevoked⟩ := apply_authorized h
  cases apply_ok h with
  | duplicate _ => exact .refl _
  | ignored _ => exact .refl _
  | quiet _ => exact .refl _
  | ack id state detail row _ hnew hpayload hrow hack =>
    obtain ⟨haccepts, hack⟩ := applyCommandAck_ok hack
    have hack' : Advances db.commands (db.acknowledge id state).commands := by
      rw [acknowledge_commands]
      refine advances_setCommandStatus db fun row' hrow' => ?_
      cases hrow.symm.trans hrow'
      exact hrespects id state detail row hpayload hauthorized hrevoked hnew hrow haccepts
    obtain ⟨rfl, -⟩ | ⟨terminal, mid, -, -, hend, rfl⟩ := hack
    · exact hack'
    · show Advances db.commands mid.commands
      rw [endCommand_commands hend]
      exact hack'
  | report run_id s _ _ _ _ hreport =>
    obtain ⟨-, -, s', terminal, budget, -, -, rfl⟩ := applyRunEvent_ok hreport
    exact .refl _

theorem claim_advances {job_id owner : String} {now leaseMs : ℕ} {authorized : Bool}
    (hrespects : Respects db (.claim job_id owner now leaseMs authorized)) :
    Advances db.commands (db.claim job_id owner now leaseMs authorized).commands := by
  unfold claim
  split
  · exact .refl _
  · rename_i job hjob
    split
    · exact .refl _
    · split
      · dsimp only
        split
        · exact .refl _
        · rename_i hauthorized
          exact advances_cancelStaleCommand (db.setJob job_id _) fun row hrow =>
            hrespects (by simpa using hauthorized) job row hjob hrow
      · exact .refl _

theorem dispatchCommand_advances (db : Database) (id : String) :
    Advances db.commands (db.dispatchCommand id).commands := by
  unfold dispatchCommand
  split
  · exact .refl _
  · rename_i row hrow
    split
    · rename_i hstatus
      refine advances_setCommandStatus db fun row' hrow' => ?_
      cases hrow.symm.trans hrow'
      rcases hstatus with hstatus | hstatus
      · rw [hstatus]
        exact .inr rfl
      · rw [hstatus]
        exact .inl rfl
    · exact .refl _

theorem markDelivered_advances {job_id owner : String} {allow receipts : Bool} {at_ : ℕ} :
    Ensures (db.markDelivered job_id owner allow receipts at_) fun db' =>
      Advances db.commands db'.commands := by
  intro db' h
  unfold markDelivered at h
  split at h
  · cases h
  · rename_i job hjob
    split at h
    · obtain ⟨-, h⟩ := refuse_bind_ok.mp h
      have hdispatch := dispatchCommand_advances (db.setJob job_id { job with
        status := .delivered, lease_owner := none, lease_expires_at := none }) job.command_id
      dsimp only at h
      split at h
      · cases h
        exact hdispatch
      · split at h
        · obtain ⟨s', -, rfl⟩ := map_eq_ok.mp h
          exact hdispatch
        · cases h
          exact hdispatch
    · cases h

theorem deliver_advances {job_id owner : String} {authorized sent allow receipts : Bool} {at_ : ℕ}
    (hrespects : Respects db (.deliver job_id owner authorized sent allow receipts at_)) :
    Ensures (db.deliver job_id owner authorized sent allow receipts at_) fun db' =>
      Advances db.commands db'.commands := by
  intro db' h
  unfold deliver at h
  split at h
  · cases h
  · rename_i job hjob
    split at h
    · split at h
      · exact markDelivered_advances db' h
      · cases h
    · rename_i hauthorized
      cases h
      exact advances_cancelStaleCommand db fun row hrow =>
        hrespects (by simpa using hauthorized) job row hjob hrow

theorem resolveActive_commands {run_id : String} {outcome : ℕ → BudgetOutcome} {cost : ℕ}
    (h : db.resolveActive run_id outcome cost = .ok db') : db'.commands = db.commands := by
  obtain ⟨m, -, rfl⟩ := resolveActive_ok h
  rfl

theorem deadLetter_advances {job_id owner : String} {at_ cost : ℕ}
    (hrespects : Respects db (.deadLetter job_id owner at_ cost)) :
    Ensures (db.deadLetter job_id owner at_ cost) fun db' => Advances db.commands db'.commands := by
  intro db' h
  unfold deadLetter at h
  split at h
  · cases h
  · rename_i job hjob
    split at h
    · rename_i hheld
      obtain ⟨mid, hmid, h⟩ := bind_eq_ok.mp h
      rw [resolveActive_commands h]
      have hset : Advances db.commands ((db.setJob job_id { job with
          status := .dead_letter, lease_owner := none, lease_expires_at := none }).setCommandStatus
            job.command_id (.state .failed)).commands :=
        advances_setCommandStatus (db.setJob job_id _) fun row hrow =>
          hrespects job row hjob hheld.2 hrow
      split at hmid
      · cases hmid
        exact hset
      · obtain ⟨s', -, rfl⟩ := map_eq_ok.mp hmid
        exact hset
    · split at h
      · cases h
        exact .refl _
      · cases h

theorem perform_advances {op : Op} (hrespects : Respects db op) :
    Ensures (db.perform op) fun db' => Advances db.commands db'.commands := by
  intro db' h
  rcases op with ⟨event, here⟩ | ⟨job_id, owner, now, leaseMs, authorized⟩ |
    ⟨job_id, owner, authorized, sent, allow, receipts, at_⟩ | ⟨job_id, owner, available_at⟩ |
    ⟨job_id, owner, at_, cost⟩ | ⟨input, gates⟩ | input | ⟨input, gates⟩ | ⟨run_id, at_⟩ |
    ⟨run_id, at_⟩ | ⟨run_id, clear, cost⟩
  · obtain ⟨⟨reply, db''⟩, happly, rfl⟩ := map_eq_ok.mp h
    exact apply_advances hrespects (reply, db'') happly
  · cases h
    exact claim_advances hrespects
  · exact deliver_advances hrespects db' h
  · obtain ⟨jobs, rfl⟩ := retryJob_ok h
    exact .refl _
  · exact deadLetter_advances hrespects db' h
  · obtain ⟨row, -, hinsert⟩ := schedule_ok h
    obtain ⟨s, commands, jobs, -, -, -, -, hnew, rfl, rfl⟩ := insertAttempt_ok hinsert
    exact advances_set fun row hrow => absurd (hnew.symm.trans hrow) (by simp)
  · obtain ⟨s, s', assignments, phases, -, -, rfl⟩ := prepareRetry_ok h
    exact .refl _
  · obtain rfl | ⟨s, s', jobs, -, -, -, hnew, -, rfl⟩ := provision_ok h
    · exact .refl _
    · exact advances_set fun row hrow => absurd (hnew.symm.trans hrow) (by simp)
  · obtain rfl | ⟨s, s', -, -, rfl⟩ := sweep_ok h
    · exact .refl _
    · exact .refl _
  · obtain rfl | ⟨s, s', -, -, rfl⟩ := sweep_ok h
    · exact .refl _
    · exact .refl _
  · obtain rfl | ⟨s, s', budget, phases, -, -, -, -, rfl⟩ := complete_ok h
    · exact .refl _
    · exact .refl _

theorem step_advances {op : Op} (hrespects : Respects db op) :
    Advances db.commands (step db op).commands :=
  commit_induct (.refl _) (perform_advances hrespects)

/-! ### Runs -/

theorem moves_terminal {a b : CommandStatus} (ha : a.contract.isTerminal = true) (h : Moves a b) :
    b = a := by
  have heq : a.contract = b.contract := by
    rcases h with h | h
    · exact h
    · exact absurd h (by rw [terminal_no_transition ha]; simp)
  rcases a with _ | a
  · cases ha
  · rcases b with _ | b
    · rw [heq] at ha
      cases ha
    · exact congrArg CommandStatus.state heq.symm

/-- A finished command stays finished, through any steps that respect the edges. -/
theorem terminal_stays {ops : List Op} (h : Along step Respects db ops)
    (hrow : db.commands.get? id = some row) (hterminal : row.status.contract.isTerminal = true) :
    ∃ row', (run step db ops).commands.get? id = some row' ∧ row'.status = row.status := by
  refine run_induct (I := fun db' => ∃ row', db'.commands.get? id = some row' ∧
    row'.status = row.status) ?_ ⟨row, hrow, rfl⟩ h
  rintro s op ⟨row', hrow', hstatus⟩ hrespects
  obtain ⟨row'', hrow'', hmoves⟩ := step_advances hrespects id row' hrow'
  rw [← hstatus] at hterminal
  exact ⟨row'', hrow'', (moves_terminal hterminal hmoves).trans hstatus⟩

/-- **The conflict rule.** While every step respects the edges, every status moves along them, and
the first terminal state of a command is its last. -/
theorem commands_advance (db : Database) (ops : List Op) (h : Along step Respects db ops) :
    (∀ pre op, pre ++ [op] <+: ops →
      Advances (run step db pre).commands (run step db (pre ++ [op])).commands) ∧
    ∀ pre post id row, pre ++ post <+: ops → (run step db pre).commands.get? id = some row →
      row.status.contract.isTerminal = true →
        ∃ row', (run step db (pre ++ post)).commands.get? id = some row' ∧
          row'.status = row.status := by
  constructor
  · rintro pre op ⟨rest, rfl⟩
    have hop := (along_append.mp ( along_prefix h)).2.1
    rw [run_concat]
    exact step_advances hop
  · rintro pre post id row ⟨rest, rfl⟩ hrow hterminal
    have hpost := (along_append.mp ( along_prefix h)).2
    rw [run_append]
    exact terminal_stays hpost hrow hterminal

theorem respects_acked {run_id : String} {event_seq : ℕ} {state : CommandState} {c : CommandRow}
    (hrow : db.commands.get? (v2CommandIdForDispatchJob (dispatchJobId run_id)) = some c)
    (hmoves : Moves c.status (.state state)) : Respects db (acked run_id event_seq state) := by
  intro id state' detail row' hpayload _ _ _ hrow' _
  cases hpayload
  cases hrow.symm.trans hrow'
  exact hmoves

/-- The command of a first attempt, up to its start. -/
def startedOps : List Op :=
  attempt none :: sent "run:task:1" ++
    [acked "run:task:1" 1 .accepted, acked "run:task:1" 2 .executing]

theorem commands_advance_started :
    (∀ pre op, pre ++ [op] <+: startedOps → Advances (run step oneTask pre).commands
      (run step oneTask (pre ++ [op])).commands) ∧
    ∀ pre post id row, pre ++ post <+: startedOps →
      (run step oneTask pre).commands.get? id = some row →
        row.status.contract.isTerminal = true →
          ∃ row', (run step oneTask (pre ++ post)).commands.get? id = some row' ∧
            row'.status = row.status := by
  refine commands_advance oneTask startedOps ⟨trivial, (fun h => by cases h), (fun h => by cases h),
    ?_, ?_, trivial⟩
  · exact respects_acked (c := ⟨.launch_run, "run:task:1", "runner", 0, "launch", .dispatched⟩)
      (by decide +kernel) (.inr rfl)
  · exact respects_acked
      (c := ⟨.launch_run, "run:task:1", "runner", 0, "launch", .state .accepted⟩)
      (by decide +kernel) (.inr rfl)

/-- A cancelled command is reopened by an acknowledgement that was on its way. -/
theorem cancelled_command_reopens :
    ¬ ∀ (ops pre post : List Op) (id : String) (row : CommandRow), pre ++ post <+: ops →
      (run step oneTask pre).commands.get? id = some row →
        row.status.contract.isTerminal = true →
          ∃ row', (run step oneTask (pre ++ post)).commands.get? id = some row' ∧
            row'.status = row.status := by
  intro h
  obtain ⟨row', hrow', hstatus⟩ := h _
    (attempt none :: sent "run:task:1" ++ [acked "run:task:1" 1 .accepted,
      .deliver "dispatch-job:run:task:1" "worker" false true false true 0])
    [acked "run:task:1" 2 .executing] "dispatch:dispatch-job:run:task:1"
    ⟨.launch_run, "run:task:1", "runner", 0, "launch", .state .cancelled⟩ (List.prefix_refl _)
    (by decide +kernel) (by decide)
  have hlate : (run step oneTask (attempt none :: sent "run:task:1" ++
      [acked "run:task:1" 1 .accepted,
        .deliver "dispatch-job:run:task:1" "worker" false true false true 0] ++
      [acked "run:task:1" 2 .executing])).commands.get? "dispatch:dispatch-job:run:task:1" =
        some ⟨.launch_run, "run:task:1", "runner", 0, "launch", .state .executing⟩ := by
    decide +kernel
  rw [hlate] at hrow'
  cases hrow'
  cases hstatus

end Norns.Coordinator.Commands
