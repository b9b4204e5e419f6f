import Norns.Lib.Run
import Norns.Conversations.InferenceBudget

/-! # The lifecycle of a reservation

The leases that `conversationLease` of `gateway/providerGateway.ts` hands out, over the reservations
of the inference budget. The flags of a lease are in memory; between a flag and the transaction that
follows it, and between the dispatch marker and the call of the provider, anything may happen, and a
lease that takes no further step is one whose process crashed. A replayed `reserve` hands out a second
lease on the same row.

* `step_row`: a row moves only while it is active;
* `Sound`: what holds of leases, calls and markers as long as no lease meets the marker of another;
* `reservation_lifecycle`: the runs. -/

namespace Norns.Conversations.Reservations

open Norns.Lib Norns.Lib.Run Norns.Lib.Transaction Norns.Conversations.InferenceBudget

/-- A conversation lease. -/
structure Lease where
  reservationKey : String
  provider : String
  model : String
  streamStarted : Bool := false
  resolved : Bool := false
  /-- `markDispatching` was sent. -/
  marking : Bool := false
  /-- `markDispatching` returned: `streamConversation` is called next. -/
  dispatching : Bool := false
  /-- The resolutions that were sent. -/
  pending : List Outcome := []
  deriving DecidableEq

structure Gateway where
  db : InferenceDb
  leases : List Lease
  /-- The reservations whose provider call was started, once for each call. -/
  calls : List String
  deriving DecidableEq

inductive Op
  | reserve (scope : ConversationInferenceScope) (quote : ConversationInferenceQuote) (reservedAt : ℤ)
  | stream (lease : ℕ) (provider model : String)
  /-- The transaction of `markDispatching`; its answer may be lost. -/
  | mark (lease : ℕ) (now : ℤ) (answered : Bool)
  | call (lease : ℕ)
  /-- `settle`, `release` or `retainAmbiguous` -/
  | finish (lease : ℕ) (outcome : Outcome)
  /-- The transaction of one of them. -/
  | resolve (lease : ℕ) (outcome : Outcome)
  | reconcile
  /-- The other tables change. -/
  | elsewhere (policies : List PolicyRow) (usage : List UsageEventRow)
      (attempts : OrdMap String AttemptRow)
  deriving DecidableEq

namespace Gateway

def setLease (s : Gateway) (i : ℕ) (lease : Lease) : Gateway :=
  { s with leases := s.leases.set i lease }

def row (s : Gateway) (key : String) : Option ReservationRow := s.db.reservations.get? key

end Gateway

def step (s : Gateway) : Op → Gateway
  | .reserve scope quote reservedAt =>
    match reserve s.db scope quote reservedAt with
    | .ok (true, db) => { s with
        db, leases := s.leases ++ [{
          reservationKey := scope.reservationKey, provider := scope.provider, model := scope.model }] }
    | .ok (false, db) => { s with db }
    | .error _ => s
  | .stream i provider model =>
    match s.leases[i]? with
    | none => s
    | some lease =>
      if lease.streamStarted = true ∨ lease.resolved = true then s
      else if provider ≠ lease.provider ∨ model ≠ lease.model then s
      else s.setLease i { lease with streamStarted := true, marking := true }
  | .mark i now answered =>
    match s.leases[i]? with
    | none => s
    | some lease =>
      if lease.marking = true then
        match markDispatching s.db lease.reservationKey now with
        | .ok db => { s with db }.setLease i { lease with marking := false, dispatching := answered }
        | .error _ => s.setLease i { lease with marking := false }
      else s
  | .call i =>
    match s.leases[i]? with
    | none => s
    | some lease =>
      if lease.dispatching = true then
        { s with calls := s.calls ++ [lease.reservationKey] }.setLease i
          { lease with dispatching := false }
      else s
  | .finish i outcome =>
    match s.leases[i]? with
    | none => s
    | some lease => s.setLease i { lease with resolved := true, pending := lease.pending ++ [outcome] }
  | .resolve i outcome =>
    match s.leases[i]? with
    | none => s
    | some lease =>
      if outcome ∈ lease.pending then
        { s with db := commit s.db (resolve s.db lease.reservationKey outcome) }.setLease i
          { lease with pending := lease.pending.erase outcome }
      else s
  | .reconcile => { s with db := commit s.db (reconcile s.db) }
  | .elsewhere policies usage attempts => { s with db := { s.db with policies, usage, attempts } }

/-- No reservation, no lease. -/
def boot (policies : List PolicyRow) (usage : List UsageEventRow)
    (attempts : OrdMap String AttemptRow) : Gateway :=
  ⟨⟨OrdMap.empty, policies, usage, attempts⟩, [], []⟩

/-! ### The law and the condition -/

/-- The lease is about to call the provider for the reservation. -/
def Calls (s : Gateway) (op : Op) (key : String) : Prop :=
  ∃ i lease, op = .call i ∧ s.leases[i]? = some lease ∧ lease.dispatching = true ∧
    lease.reservationKey = key

def ActiveMarked (s : Gateway) (key : String) : Prop :=
  ∃ row, s.row key = some row ∧ row.status = .active ∧ row.dispatch_started_at ≠ none

/-- **The law** of a run from `s₀`. -/
structure Lawful (s₀ : Gateway) (ops : List Op) : Prop where
  /-- A row that left `active` never changes again. -/
  final : ∀ pre post, pre ++ post <+: ops → ∀ key row, (run step s₀ pre).row key = some row →
    row.status ≠ .active → (run step s₀ (pre ++ post)).row key = some row
  /-- The marker was committed on an active reservation before the call. -/
  marked : ∀ pre op, pre ++ [op] <+: ops → ∀ key, Calls (run step s₀ pre) op key →
    ∃ before, before <+: pre ∧ ActiveMarked (run step s₀ before) key
  once : ∀ pre, pre <+: ops → (run step s₀ pre).calls.Nodup
  charged : ∀ pre, pre <+: ops → ∀ key ∈ (run step s₀ pre).calls,
    ∀ row, (run step s₀ pre).row key = some row → row.status ≠ .released

/-- The active row of the lease carries no marker. -/
def Unmarked (s : Gateway) (lease : Lease) : Prop :=
  ∀ row, s.row lease.reservationKey = some row → row.status = .active →
    row.dispatch_started_at = none

/-- **The condition**: neither a marking nor a release meets an active row that was marked before. -/
def Guarded (s : Gateway) : Op → Prop
  | .mark i _ _ => ∀ lease, s.leases[i]? = some lease → lease.marking = true → Unmarked s lease
  | .resolve i .released => ∀ lease, s.leases[i]? = some lease → .released ∈ lease.pending →
      Unmarked s lease
  | _ => True

instance (s : Gateway) (lease : Lease) : Decidable (Unmarked s lease) :=
  inferInstanceAs (Decidable (∀ row ∈ s.row lease.reservationKey, row.status = .active →
    row.dispatch_started_at = none))

instance (s : Gateway) (op : Op) : Decidable (Guarded s op) :=
  match op with
  | .mark i _ _ => inferInstanceAs (Decidable (∀ lease ∈ s.leases[i]?, lease.marking = true →
      Unmarked s lease))
  | .resolve i .released => inferInstanceAs (Decidable (∀ lease ∈ s.leases[i]?,
      .released ∈ lease.pending → Unmarked s lease))
  | .resolve _ (.settled _) | .resolve _ .retained_ambiguous | .reserve _ _ _ | .stream _ _ _
  | .call _ | .finish _ _ | .reconcile | .elsewhere _ _ _ => isTrue trivial

section

variable {s : Gateway} {op : Op} {key : String} {row : ReservationRow} {i : ℕ} {lease : Lease}

@[simp] theorem setLease_row : (s.setLease i lease).row key = s.row key := rfl

/-! ### Rows -/

/-- What a step can do to a row. -/
inductive RowMoves (s : Gateway) (op : Op) (row : ReservationRow) : ReservationRow → Prop
  | same : RowMoves s op row row
  | marked (now : ℤ) (active : row.status = .active) : RowMoves s op row (row.mark now)
  | resolved (outcome : Outcome) (active : row.status = .active)
      (unmarked : outcome = .released → Guarded s op → row.dispatch_started_at = none) :
      RowMoves s op row (row.resolve outcome)

/-- **Rows** stay, and change only while they are active. -/
theorem step_row (op : Op) (h : s.row key = some row) :
    ∃ row', (step s op).row key = some row' ∧ RowMoves s op row row' := by
  have hsame : ∀ {op : Op}, ∃ row', s.row key = some row' ∧ RowMoves s op row row' :=
    ⟨row, h, .same⟩
  -- a write to the row of another key changes nothing here
  have hset : ∀ (op : Op) (k : String) (old new : ReservationRow), s.row k = some old →
      RowMoves s op old new → ∃ row', (s.db.reservations.set k new).get? key = some row' ∧
        RowMoves s op row row' := by
    intro op k old new hold hmoves
    by_cases hk : k = key
    · subst hk
      cases h.symm.trans hold
      exact ⟨new, OrdMap.get?_set_self _ _ _, hmoves⟩
    · exact ⟨row, (OrdMap.get?_set_ne _ _ hk).trans h, .same⟩
  rcases op with ⟨scope, quote, reservedAt⟩ | ⟨i, provider, model⟩ | ⟨i, now, answered⟩ | i |
    ⟨i, outcome⟩ | ⟨i, outcome⟩ | _ | ⟨policies, usage, attempts⟩
  · have hreserve : ∀ hold db', reserve s.db scope quote reservedAt = .ok (hold, db') →
        ∃ row', db'.reservations.get? key = some row' ∧
          RowMoves s (.reserve scope quote reservedAt) row row' := by
      intro hold db' hr
      rcases reserve_ok hr with rfl | ⟨-, hnone, -, hinsert⟩
      · exact hsame
      · obtain ⟨-, -, rfl⟩ := insertReservation_ok hinsert
        have hne : (newRow scope quote reservedAt).reservation_key ≠ key := by
          intro hk
          have hrow : s.db.reservations.get? key = some row := h
          rw [← hk] at hrow
          cases hnone.symm.trans hrow
        exact ⟨row, (OrdMap.get?_set_ne _ _ hne).trans h, .same⟩
    unfold step
    dsimp only
    rcases hr : reserve s.db scope quote reservedAt with error | ⟨_ | _, db'⟩
    · exact hsame
    · exact hreserve _ _ hr
    · exact hreserve _ _ hr
  · unfold step
    dsimp only
    split
    · exact hsame
    · split
      · exact hsame
      · split
        · exact hsame
        · exact hsame
  · unfold step
    dsimp only
    split
    · exact hsame
    · rename_i lease hlease
      split
      · split
        · rename_i db' hmark
          obtain ⟨old, hold, hactive, rfl⟩ := markDispatching_ok hmark
          exact hset _ _ _ _ hold (.marked now hactive)
        · exact hsame
      · exact hsame
  · unfold step
    dsimp only
    split
    · exact hsame
    · split
      · exact hsame
      · exact hsame
  · unfold step
    dsimp only
    split
    · exact hsame
    · exact hsame
  · unfold step
    dsimp only
    split
    · exact hsame
    · rename_i lease hlease
      split
      · rename_i hpending
        show ∃ row', (commit s.db (resolve s.db lease.reservationKey outcome)).reservations.get? key =
          some row' ∧ _
        rcases hr : resolve s.db lease.reservationKey outcome with error | db'
        · exact hsame
        · rcases resolve_ok hr with rfl | ⟨old, hold, hactive, -, rfl⟩
          · exact hsame
          · refine hset _ _ _ _ hold (.resolved outcome hactive fun hreleased hguard => ?_)
            subst hreleased
            exact hguard lease hlease hpending old hold hactive
      · exact hsame
  · show ∃ row', (commit s.db (reconcile s.db)).reservations.get? key = some row' ∧ _
    rcases hr : reconcile s.db with error | db'
    · exact hsame
    · rw [(reconcile_ok hr).2]
      refine ⟨_, by
        show (s.db.reservations.mapValues _).get? key = _
        rw [OrdMap.get?_mapValues, show s.db.reservations.get? key = some row from h]
        rfl, ?_⟩
      rcases reconcileRow_cases s.db.attempts row with heq | ⟨hactive, attempt, -, heq⟩
      · rw [heq]
        exact .same
      · rw [heq]
        exact .resolved _ hactive fun hreleased _ => reconciled_released hreleased
  · exact hsame

/-! ### Leases and calls -/

/-- The lease was about to call before, or its `markDispatching` has just returned. -/
theorem step_dispatching {lease' : Lease} (h : (step s op).leases[i]? = some lease')
    (hd : lease'.dispatching = true) :
    (∃ lease, s.leases[i]? = some lease ∧ lease.dispatching = true ∧
      lease.reservationKey = lease'.reservationKey ∧ op ≠ .call i) ∨
    ∃ lease now answered row, op = .mark i now answered ∧ s.leases[i]? = some lease ∧
      lease.marking = true ∧ lease.reservationKey = lease'.reservationKey ∧
      s.row lease.reservationKey = some row ∧ row.status = .active ∧
      (step s op).row lease.reservationKey = some (row.mark now) := by
  have hsame : ∀ {op : Op}, op ≠ .call i → s.leases[i]? = some lease' →
      ∃ lease, s.leases[i]? = some lease ∧ lease.dispatching = true ∧
        lease.reservationKey = lease'.reservationKey ∧ op ≠ .call i :=
    fun hop hl => ⟨lease', hl, hd, rfl, hop⟩
  -- a write to one lease
  have hset : ∀ (op : Op) (j : ℕ) (old new : Lease), (op = .call i → j = i) → s.leases[j]? = some old →
      (s.leases.set j new)[i]? = some lease' → new.reservationKey = old.reservationKey →
      (new.dispatching = true → old.dispatching = true ∧ op ≠ .call j) →
      ∃ lease, s.leases[i]? = some lease ∧ lease.dispatching = true ∧
        lease.reservationKey = lease'.reservationKey ∧ op ≠ .call i := by
    intro op j old new hop hold hl hkey hdispatching
    by_cases hj : j = i
    · subst hj
      have hlt : j < s.leases.length := List.getElem?_eq_some_iff.mp hold |>.1
      rw [List.getElem?_set_self hlt] at hl
      cases hl
      obtain ⟨hold', hne⟩ := hdispatching hd
      exact ⟨old, hold, hold', hkey.symm, hne⟩
    · rw [List.getElem?_set_ne hj] at hl
      exact hsame (fun hcall => hj (hop hcall)) hl
  rcases op with ⟨scope, quote, reservedAt⟩ | ⟨j, provider, model⟩ | ⟨j, now, answered⟩ | j |
    ⟨j, outcome⟩ | ⟨j, outcome⟩ | _ | ⟨policies, usage, attempts⟩
  · refine .inl (hsame Op.noConfusion ?_)
    unfold step at h
    dsimp only at h
    split at h
    · dsimp only at h
      by_cases hi : i < s.leases.length
      · rwa [List.getElem?_append_left hi] at h
      · rw [List.getElem?_append_right (not_lt.mp hi)] at h
        have hnew := List.mem_of_getElem? h
        rw [List.mem_singleton.mp hnew] at hd
        cases hd
    · exact h
    · exact h
  · refine .inl ?_
    unfold step at h
    dsimp only at h
    split at h
    · exact hsame Op.noConfusion h
    · rename_i lease hlease
      split at h
      · exact hsame Op.noConfusion h
      · split at h
        · exact hsame Op.noConfusion h
        · exact hset _ j lease _ (fun hop => nomatch hop) hlease h rfl
            fun hd => ⟨hd, Op.noConfusion⟩
  · rcases hlease : s.leases[j]? with _ | lease
    · refine .inl (hsame Op.noConfusion ?_)
      unfold step at h
      dsimp only at h
      rwa [hlease] at h
    · by_cases hmarking : lease.marking = true
      · rcases hmark : markDispatching s.db lease.reservationKey now with error | db'
        · refine .inl ?_
          unfold step at h
          dsimp only at h
          rw [hlease] at h
          dsimp only at h
          rw [if_pos hmarking, hmark] at h
          exact hset _ j lease _ (fun hop => nomatch hop) hlease h rfl
            fun hd => ⟨hd, Op.noConfusion⟩
        · obtain ⟨row, hrow, hactive, rfl⟩ := markDispatching_ok hmark
          have hstep : step s (.mark j now answered) = ({ s with db := { s.db with
              reservations := s.db.reservations.set lease.reservationKey (row.mark now) } }
                : Gateway).setLease j { lease with marking := false, dispatching := answered } := by
            unfold step
            dsimp only
            rw [hlease]
            dsimp only
            rw [if_pos hmarking, hmark]
          rw [hstep] at h
          by_cases hj : j = i
          · subst hj
            have hlt : j < s.leases.length := List.getElem?_eq_some_iff.mp hlease |>.1
            refine .inr ⟨lease, now, answered, row, rfl, hlease, hmarking, ?_, hrow, hactive, ?_⟩
            · have hl : (s.leases.set j { lease with marking := false, dispatching := answered })[j]? =
                  some lease' := h
              rw [List.getElem?_set_self hlt] at hl
              cases hl
              rfl
            · rw [hstep]
              exact OrdMap.get?_set_self _ _ _
          · refine .inl (hsame Op.noConfusion ?_)
            have hl : (s.leases.set j { lease with marking := false, dispatching := answered })[i]? =
                some lease' := h
            rwa [List.getElem?_set_ne hj] at hl
      · refine .inl (hsame Op.noConfusion ?_)
        unfold step at h
        dsimp only at h
        rw [hlease] at h
        dsimp only at h
        rwa [if_neg hmarking] at h
  · refine .inl ?_
    unfold step at h
    dsimp only at h
    rcases hlease : s.leases[j]? with _ | lease
    · rw [hlease] at h
      refine hsame (fun hop => ?_) h
      cases hop
      cases hlease.symm.trans h
    · rw [hlease] at h
      dsimp only at h
      split at h
      · exact hset _ j lease _ (fun hop => Op.call.inj hop) hlease h rfl fun hd => nomatch hd
      · rename_i hnot
        refine hsame (fun hop => ?_) h
        cases hop
        cases hlease.symm.trans h
        exact hnot hd
  · refine .inl ?_
    unfold step at h
    dsimp only at h
    split at h
    · exact hsame Op.noConfusion h
    · rename_i lease hlease
      exact hset _ j lease _ (fun hop => nomatch hop) hlease h rfl fun hd => ⟨hd, Op.noConfusion⟩
  · refine .inl ?_
    unfold step at h
    dsimp only at h
    split at h
    · exact hsame Op.noConfusion h
    · rename_i lease hlease
      split at h
      · exact hset _ j lease _ (fun hop => nomatch hop) hlease h rfl
          fun hd => ⟨hd, Op.noConfusion⟩
      · exact hsame Op.noConfusion h
  · exact .inl (hsame Op.noConfusion h)
  · exact .inl (hsame Op.noConfusion h)

theorem step_calls (s : Gateway) (op : Op) : (step s op).calls = s.calls ∨
    ∃ key, Calls s op key ∧ (step s op).calls = s.calls ++ [key] := by
  rcases op with ⟨scope, quote, reservedAt⟩ | ⟨j, provider, model⟩ | ⟨j, now, answered⟩ | j |
    ⟨j, outcome⟩ | ⟨j, outcome⟩ | _ | ⟨policies, usage, attempts⟩
  · refine .inl ?_
    unfold step
    dsimp only
    split <;> rfl
  · refine .inl ?_
    unfold step
    dsimp only
    split
    · rfl
    · split
      · rfl
      · split <;> rfl
  · refine .inl ?_
    unfold step
    dsimp only
    split
    · rfl
    · split
      · split <;> rfl
      · rfl
  · unfold step
    dsimp only
    rcases hlease : s.leases[j]? with _ | lease
    · exact .inl rfl
    · dsimp only
      split
      · rename_i hdispatching
        exact .inr ⟨lease.reservationKey, ⟨j, lease, rfl, hlease, hdispatching, rfl⟩, rfl⟩
      · exact .inl rfl
  · refine .inl ?_
    unfold step
    dsimp only
    split <;> rfl
  · refine .inl ?_
    unfold step
    dsimp only
    split
    · rfl
    · split <;> rfl
  · exact .inl rfl
  · exact .inl rfl

/-! ### The invariant -/

/-- The reservation carries the marker, and is not released. -/
def Marked (s : Gateway) (key : String) : Prop :=
  ∃ row, s.row key = some row ∧ row.dispatch_started_at ≠ none ∧ row.status ≠ .released

structure Sound (s : Gateway) : Prop where
  ready : ∀ (i : ℕ) (lease : Lease), s.leases[i]? = some lease → lease.dispatching = true →
    Marked s lease.reservationKey ∧ lease.reservationKey ∉ s.calls
  alone : ∀ (i j : ℕ) (lease lease' : Lease), s.leases[i]? = some lease → s.leases[j]? = some lease' →
    lease.dispatching = true → lease'.dispatching = true →
    lease.reservationKey = lease'.reservationKey → i = j
  called : ∀ key ∈ s.calls, Marked s key
  nodup : s.calls.Nodup

theorem marked_step (hguard : Guarded s op) (h : Marked s key) : Marked (step s op) key := by
  obtain ⟨row, hrow, hmarker, hstatus⟩ := h
  obtain ⟨row', hrow', hmoves⟩ := step_row op hrow
  refine ⟨row', hrow', ?_⟩
  rcases hmoves with _ | ⟨now, hactive⟩ | ⟨outcome, -, hunmarked⟩
  · exact ⟨hmarker, hstatus⟩
  · exact ⟨Option.some_ne_none _, hstatus⟩
  · refine ⟨hmarker, fun hreleased => ?_⟩
    rcases outcome with usage | _ | _
    · cases hreleased
    · exact hmarker (hunmarked rfl hguard)
    · cases hreleased

theorem step_sound (h : Sound s) (hguard : Guarded s op) : Sound (step s op) := by
  -- the row that a marking meets was not marked
  have hfresh : ∀ i lease now answered row, op = .mark i now answered →
      s.leases[i]? = some lease → lease.marking = true →
      s.row lease.reservationKey = some row → row.status = .active →
      ¬ Marked s lease.reservationKey := by
    rintro i lease now answered row rfl hlease hmarking hrow hactive ⟨row', hrow', hmarker, -⟩
    cases hrow.symm.trans hrow'
    exact hmarker (hguard lease hlease hmarking row hrow hactive)
  have hcalls : ∀ key, key ∈ (step s op).calls → key ∈ s.calls ∨ Calls s op key := by
    intro key hkey
    rcases step_calls s op with heq | ⟨key', hcall, heq⟩
    · rw [heq] at hkey
      exact .inl hkey
    · rw [heq] at hkey
      rcases List.mem_append.mp hkey with hkey | hkey
      · exact .inl hkey
      · rw [List.mem_singleton.mp hkey]
        exact .inr hcall
  refine ⟨?_, ?_, ?_, ?_⟩
  · intro i lease' hl hd
    rcases step_dispatching hl hd with ⟨lease, hlease, hdispatching, hkey, hop⟩ |
      ⟨lease, now, answered, row, rfl, hlease, hmarking, hkey, hrow, hactive, hrow'⟩
    · rw [← hkey]
      obtain ⟨hmarked, hnot⟩ := h.ready i lease hlease hdispatching
      refine ⟨marked_step hguard hmarked, fun hmem => ?_⟩
      rcases hcalls _ hmem with hmem | ⟨j, other, rfl, hother, hd', hkey'⟩
      · exact hnot hmem
      · exact hop (congrArg Op.call (h.alone j i other lease hother hlease hd' hdispatching hkey'))
    · rw [← hkey]
      refine ⟨⟨row.mark now, hrow', Option.some_ne_none _, ?_⟩, fun hmem => ?_⟩
      · show row.status ≠ .released
        rw [hactive]
        exact ReservationStatus.noConfusion
      · rcases hcalls _ hmem with hmem | ⟨j, other, hop, -⟩
        · exact hfresh i lease now answered row rfl hlease hmarking hrow hactive (h.called _ hmem)
        · cases hop
  · intro i j li lj hi hj hdi hdj hkeys
    rcases step_dispatching hi hdi with ⟨lease, hlease, hdispatching, hkey, -⟩ |
      ⟨lease, now, answered, row, hop, hlease, hmarking, hkey, hrow, hactive, -⟩
    · rcases step_dispatching hj hdj with ⟨lease', hlease', hdispatching', hkey', -⟩ |
        ⟨lease', now, answered, row, hop, hlease', hmarking, hkey', hrow, hactive, -⟩
      · exact h.alone i j lease lease' hlease hlease' hdispatching hdispatching'
          (hkey.trans (hkeys.trans hkey'.symm))
      · have hmarked := (h.ready i lease hlease hdispatching).1
        rw [hkey.trans (hkeys.trans hkey'.symm)] at hmarked
        exact absurd hmarked (hfresh j lease' now answered row hop hlease' hmarking hrow hactive)
    · rcases step_dispatching hj hdj with ⟨lease', hlease', hdispatching', hkey', -⟩ |
        ⟨lease', now', answered', row', hop', -⟩
      · have hmarked := (h.ready j lease' hlease' hdispatching').1
        rw [hkey'.trans (hkeys.symm.trans hkey.symm)] at hmarked
        exact absurd hmarked (hfresh i lease now answered row hop hlease hmarking hrow hactive)
      · cases hop.symm.trans hop'
        rfl
  · intro key hkey
    rcases hcalls key hkey with hkey | ⟨i, lease, -, hlease, hdispatching, rfl⟩
    · exact marked_step hguard (h.called key hkey)
    · exact marked_step hguard (h.ready i lease hlease hdispatching).1
  · rcases step_calls s op with heq | ⟨key, ⟨i, lease, -, hlease, hdispatching, rfl⟩, heq⟩
    · rw [heq]
      exact h.nodup
    · rw [heq]
      refine List.Nodup.append h.nodup (List.nodup_singleton _) ?_
      simpa using (h.ready i lease hlease hdispatching).2

end

/-! ### Runs -/

section

variable (policies : List PolicyRow) (usage : List UsageEventRow)
  (attempts : OrdMap String AttemptRow)

theorem sound_boot : Sound (boot policies usage attempts) where
  ready := fun i lease h => by cases h
  alone := fun i j lease lease' h => by cases h
  called := fun key h => by cases h
  nodup := List.nodup_nil

/-- Whatever left `active` stays as it is, in every run. -/
theorem run_final {s : Gateway} {key : String} {row : ReservationRow} (hrow : s.row key = some row)
    (hleft : row.status ≠ .active) (ops : List Op) : (run step s ops).row key = some row := by
  refine run_induct' (I := fun s : Gateway => s.row key = some row) (fun s op hrow => ?_) hrow ops
  obtain ⟨row', hrow', hmoves⟩ := step_row op hrow
  rcases hmoves with _ | ⟨now, hactive⟩ | ⟨outcome, hactive, -⟩
  · exact hrow'
  · exact absurd hactive hleft
  · exact absurd hactive hleft

/-- A lease that is about to call has committed its marker on an active row, in every run. -/
theorem run_dispatching (pre : List Op) : ∀ (i : ℕ) (lease : Lease),
    (run step (boot policies usage attempts) pre).leases[i]? = some lease →
      lease.dispatching = true → ∃ before, before <+: pre ∧
        ActiveMarked (run step (boot policies usage attempts) before) lease.reservationKey := by
  induction pre using List.reverseRecOn with
  | nil =>
    intro i lease h
    cases h
  | append_singleton pre op ih =>
    intro i lease' h hd
    rw [run_concat] at h
    rcases step_dispatching h hd with ⟨lease, hlease, hdispatching, hkey, -⟩ |
      ⟨lease, now, answered, row, -, -, -, hkey, -, hactive, hrow'⟩
    · obtain ⟨before, hbefore, hmarked⟩ := ih i lease hlease hdispatching
      exact ⟨before, hbefore.trans (List.prefix_append ..), by rwa [← hkey]⟩
    · refine ⟨pre ++ [op], List.prefix_refl _, row.mark now, ?_, hactive, Option.some_ne_none _⟩
      rw [run_concat, ← hkey]
      exact hrow'

/-- **The lifecycle of reservations** in every run in which neither a marking nor a release meets an
active row that is already marked. -/
theorem reservation_lifecycle (ops : List Op)
    (hguard : Along step Guarded (boot policies usage attempts) ops) :
    Lawful (boot policies usage attempts) ops := by
  have hsound : ∀ pre, pre <+: ops → Sound (run step (boot policies usage attempts) pre) := by
    rintro pre ⟨post, rfl⟩
    exact run_induct (fun s op h hg => step_sound h hg) (sound_boot policies usage attempts)
      ( along_prefix hguard)
  constructor
  · intro pre post _ key row hrow hleft
    rw [run_append]
    exact run_final hrow hleft post
  · rintro pre op - key ⟨i, lease, -, hlease, hdispatching, rfl⟩
    exact run_dispatching policies usage attempts pre i lease hlease hdispatching
  · exact fun pre hpre => (hsound pre hpre).nodup
  · intro pre hpre key hkey row hrow
    obtain ⟨row', hrow', -, hstatus⟩ := (hsound pre hpre).called key hkey
    cases hrow.symm.trans hrow'
    exact hstatus

end

/-- The attempt that the reservations below belong to. -/
def attempted : OrdMap String AttemptRow :=
  OrdMap.ofList [("attempt-1", { usage_request_id := "usage-1" })]

def reserveOnce : Op := .reserve ⟨"attempt-1", "usage-1", "p", "w", "c", "u", "anthropic", "m"⟩
  ⟨100, 100, 1⟩ 0

def streamed (i : ℕ) : List Op := [.stream i "anthropic" "m", .mark i 0 true, .call i]

/-- One lease streams and is settled. -/
theorem reservation_lifecycle_settled : Lawful (boot [] [] attempted) (reserveOnce :: streamed 0 ++
    [.finish 0 (.settled ⟨some 1, 1, 100, 100⟩), .resolve 0 (.settled ⟨some 1, 1, 100, 100⟩)]) :=
  reservation_lifecycle [] [] attempted _ (by decide +kernel)

/-- The replayed reservation streams a second time. -/
theorem replay_calls_twice : ¬ Lawful (boot [] [] attempted)
    (reserveOnce :: reserveOnce :: streamed 0 ++ streamed 1) := by
  intro h
  have hcalls := h.once _ (List.prefix_refl _)
  revert hcalls
  decide +kernel

end Norns.Conversations.Reservations
