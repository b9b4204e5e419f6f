import Mathlib
import Norns.Lib.Calendar
import Norns.Lib.OrdMap
import Norns.Lib.Transaction

/-! # Reservations for conversation inference

`SqlConversationInferenceBudget` of `conversations/inferenceBudget.ts` over its tables: the
reservations, the usage budget policies, the canonical usage events and the turn attempts. Every
method is one transaction; an abort leaves the tables as they were.

* `reserve`, `markDispatching`, `resolve`, `reconcile`: the transactions;
* `consumed`, `held`: the two sums of the admission test, over the bounds of
  `usageBudgetPeriodBounds`;
* `reserve_ok`, `markDispatching_ok`, `resolve_ok`, `reconcile_row`: what a transaction can do. -/

namespace Norns.Conversations.InferenceBudget

open Norns.Lib Norns.Lib.Transaction Norns.Lib.Calendar

/-! ### Periods -/

inductive UsageBudgetPeriod
  | daily | weekly | monthly
  deriving DecidableEq, Repr

structure UsageBudgetPeriodBounds where
  start : ℤ
  end_ : ℤ
  deriving DecidableEq, Repr

def dayMs : ℤ := 86400000

/-- `startOfUtcDay`, as the number of the day. -/
def utcDay (at_ : ℤ) : ℤ := at_ / dayMs

/-- `getUTCDay`: 1 January 1970 was a Thursday. -/
def utcWeekday (day : ℤ) : ℤ := (day + 4) % 7

def usageBudgetPeriodBounds (period : UsageBudgetPeriod) (at_ : ℤ) : UsageBudgetPeriodBounds :=
  let start := match period with
    | .daily => utcDay at_
    | .weekly => utcDay at_ - (utcWeekday (utcDay at_) + 6) % 7
    | .monthly => monthStart (monthOf (utcDay at_))
  let end_ := match period with
    | .daily => start + 1
    | .weekly => start + 7
    | .monthly => monthStart (monthOf start + 1)
  ⟨start * dayMs, end_ * dayMs⟩

/-! ### Tables -/

inductive ScopeType
  | global | user | project
  deriving DecidableEq, Repr

structure PolicyRow where
  id : String
  scope_type : ScopeType
  scope_user_id : Option String := none
  scope_project_id : Option String := none
  period : UsageBudgetPeriod
  provider : Option String := none
  model : Option String := none
  limit_usd : Option ℚ := none
  limit_tokens : Option ℚ := none
  /-- `status = 'active'` -/
  active : Bool := true
  deriving DecidableEq

inductive ReservationStatus
  | active | settled | released | retained_ambiguous
  deriving DecidableEq, Repr

structure ReservationRow where
  reservation_key : String
  usage_request_id : String
  project_id : String
  work_item_id : String
  conversation_id : String
  initiated_by_user_id : String
  provider : String
  model : String
  max_input_tokens : ℕ
  max_output_tokens : ℕ
  max_charge_usd : ℚ
  status : ReservationStatus := .active
  dispatch_started_at : Option ℤ := none
  actual_tokens : ℕ := 0
  actual_charge_usd : ℚ := 0
  created_at : ℤ
  deriving DecidableEq

inductive UsageEventType
  | request_started | usage_observed | request_completed | request_failed | adjustment
  deriving DecidableEq, Repr

structure UsageEventRow where
  id : String
  request_id : String
  sequence : ℕ
  event_type : UsageEventType
  request_type : String
  run_id : Option String := none
  occurred_at : ℤ
  recorded_at : ℤ
  project_id : Option String
  initiated_by_user_id : Option String
  provider : String
  model : String
  input_tokens : ℤ
  output_tokens : ℤ
  cost_usd : Option ℚ
  deriving DecidableEq

inductive UsageStatus
  | pending | exact | unavailable
  deriving DecidableEq, Repr

/-- The columns of `conversation_turn_attempts` that a reservation reads. -/
structure AttemptRow where
  usage_request_id : String
  provider_request_id : Option String := none
  usage_status : UsageStatus := .pending
  input_tokens : Option ℕ := none
  output_tokens : Option ℕ := none
  cost_usd : Option ℚ := none
  deriving DecidableEq

structure InferenceDb where
  reservations : OrdMap String ReservationRow
  policies : List PolicyRow
  usage : List UsageEventRow
  attempts : OrdMap String AttemptRow
  deriving DecidableEq

structure ConversationInferenceScope where
  reservationKey : String
  usageRequestId : String
  projectId : String
  workItemId : String
  conversationId : String
  initiatedByUserId : String
  provider : String
  model : String
  deriving DecidableEq, Repr

structure ConversationInferenceQuote where
  maxInputTokens : ℕ
  maxOutputTokens : ℕ
  maxChargeUsd : ℚ
  deriving DecidableEq

/-- `UsageEventT`, as far as a settlement reads it. -/
structure UsageEvent where
  actual_cost_usd : Option ℚ
  estimated_cost_usd : ℚ
  input_tokens : ℕ
  output_tokens : ℕ
  deriving DecidableEq

def UsageEvent.cost (usage : UsageEvent) : ℚ := usage.actual_cost_usd.getD usage.estimated_cost_usd

def UsageEvent.tokens (usage : UsageEvent) : ℕ := usage.input_tokens + usage.output_tokens

inductive BudgetError
  | idempotencyConflict
  | policyIncomplete (id : String)
  | invalidValue
  | unpricedUsage (id : String)
  | inactiveReservation (key : String)
  | unknownReservation (key : String)
  /-- A constraint of the tables. -/
  | constraint
  deriving DecidableEq, Repr

/-! ### The admission test -/

def sameReservation (row : ReservationRow) (scope : ConversationInferenceScope)
    (quote : ConversationInferenceQuote) : Prop :=
  row.usage_request_id = scope.usageRequestId ∧ row.project_id = scope.projectId ∧
    row.work_item_id = scope.workItemId ∧ row.conversation_id = scope.conversationId ∧
    row.initiated_by_user_id = scope.initiatedByUserId ∧ row.provider = scope.provider ∧
    row.model = scope.model ∧ row.max_input_tokens = quote.maxInputTokens ∧
    row.max_output_tokens = quote.maxOutputTokens ∧
    |row.max_charge_usd - quote.maxChargeUsd| < 1 / 1000000000

instance (row : ReservationRow) (scope : ConversationInferenceScope)
    (quote : ConversationInferenceQuote) : Decidable (sameReservation row scope quote) :=
  inferInstanceAs (Decidable (_ ∧ _))

def number (value : Option ℚ) : Except BudgetError (Option ℚ) :=
  if ∃ parsed ∈ value, parsed < 0 then .error .invalidValue else .ok value

/-- `policy.provider` and `policy.model` restrict the rows if they are set. -/
def pinned (pin : Option String) (value : String) : Prop := ∀ p ∈ pin, p = value

instance (pin : Option String) (value : String) : Decidable (pinned pin value) :=
  inferInstanceAs (Decidable (∀ p ∈ pin, p = value))

/-- The policies that the query of `reserve` selects. -/
def PolicyRow.applies (policy : PolicyRow) (scope : ConversationInferenceScope) : Prop :=
  policy.active = true ∧
    (match policy.scope_type with
      | .global => True
      | .user => policy.scope_user_id = some scope.initiatedByUserId
      | .project => policy.scope_project_id = some scope.projectId) ∧
    pinned policy.provider scope.provider ∧ pinned policy.model scope.model

instance (policy : PolicyRow) (scope : ConversationInferenceScope) :
    Decidable (policy.applies scope) := by
  unfold PolicyRow.applies
  rcases policy.scope_type <;> exact inferInstanceAs (Decidable (_ ∧ _))

/-- The clauses on the columns that the policy restricts. -/
def PolicyRow.selects (policy : PolicyRow) (scope : ConversationInferenceScope)
    (user project : Option String) (provider model : String) : Prop :=
  (policy.scope_type = .user → user = some scope.initiatedByUserId) ∧
    (policy.scope_type = .project → project = some scope.projectId) ∧
    (policy.provider.isSome = true → provider = scope.provider) ∧
    (policy.model.isSome = true → model = scope.model)

instance (policy : PolicyRow) (scope : ConversationInferenceScope)
    (user project : Option String) (provider model : String) :
    Decidable (policy.selects scope user project provider model) :=
  inferInstanceAs (Decidable (_ ∧ _))

/-- A report of a whole run counts only where its requests were not observed one by one. -/
def UsageEventRow.canonical (usage : UsageEventRow) (events : List UsageEventRow) : Prop :=
  usage.request_type ≠ "runtime_aggregate_report" ∨ usage.run_id = none ∨
    ∀ event ∈ events, event.run_id = usage.run_id → event.request_type = "runtime_aggregate_report"

instance (usage : UsageEventRow) (events : List UsageEventRow) :
    Decidable (usage.canonical events) :=
  inferInstanceAs (Decidable (_ ∨ _))

/-- `ORDER BY sequence DESC, recorded_at DESC, id DESC` -/
def UsageEventRow.outranks (a b : UsageEventRow) : Prop :=
  b.sequence < a.sequence ∨ (a.sequence = b.sequence ∧
    (b.recorded_at < a.recorded_at ∨ (a.recorded_at = b.recorded_at ∧ b.id < a.id)))

instance (a b : UsageEventRow) : Decidable (a.outranks b) := inferInstanceAs (Decidable (_ ∨ _))

/-- Amounts of a period. -/
structure Spend where
  usd : ℚ
  tokens : ℚ
  unpricedRequests : ℕ := 0
  deriving DecidableEq

def consumed (db : InferenceDb) (scope : ConversationInferenceScope) (policy : PolicyRow)
    (start end_ : ℤ) : Spend :=
  let inPeriod := db.usage.filter fun usage =>
    usage.event_type = .usage_observed ∧ start ≤ usage.occurred_at ∧ usage.occurred_at < end_ ∧
      usage.canonical db.usage ∧ policy.selects scope usage.initiated_by_user_id usage.project_id
        usage.provider usage.model
  let latest := inPeriod.filter fun usage =>
    ∀ other ∈ inPeriod, other.request_id = usage.request_id → ¬ other.outranks usage
  let adjustments := fun (usage : UsageEventRow) => db.usage.filter fun adjustment =>
    adjustment.event_type = .adjustment ∧ adjustment.request_id = usage.request_id ∧
      adjustment.occurred_at < end_
  { usd := max ((latest.filterMap fun usage => usage.cost_usd.map fun cost =>
      cost + ((adjustments usage).map fun adjustment => adjustment.cost_usd.getD 0).sum).sum) 0
    tokens := max ((latest.map fun usage => ((usage.input_tokens + usage.output_tokens : ℤ) : ℚ) +
      ((adjustments usage).map fun adjustment =>
        ((adjustment.input_tokens + adjustment.output_tokens : ℤ) : ℚ)).sum).sum) 0
    unpricedRequests := (latest.filter fun usage => usage.cost_usd = none).length }

/-- The canonical usage of the request is recorded. -/
def observed (db : InferenceDb) (request_id : String) : Prop :=
  ∃ usage ∈ db.usage, usage.request_id = request_id ∧ usage.event_type = .usage_observed

instance (db : InferenceDb) (request_id : String) : Decidable (observed db request_id) :=
  inferInstanceAs (Decidable (∃ usage ∈ db.usage, _))

def ReservationRow.holds (row : ReservationRow) (db : InferenceDb) : Prop :=
  row.status = .active ∨ row.status = .retained_ambiguous ∨
    (row.status = .settled ∧ ¬ observed db row.usage_request_id)

instance (row : ReservationRow) (db : InferenceDb) : Decidable (row.holds db) :=
  inferInstanceAs (Decidable (_ ∨ _))

def ReservationRow.heldUsd (row : ReservationRow) : ℚ :=
  if row.status = .active then row.max_charge_usd else row.actual_charge_usd

def ReservationRow.heldTokens (row : ReservationRow) : ℚ :=
  if row.status = .active then row.max_input_tokens + row.max_output_tokens else row.actual_tokens

def held (db : InferenceDb) (scope : ConversationInferenceScope) (policy : PolicyRow)
    (start end_ : ℤ) : Spend :=
  let rows := db.reservations.values.filter fun row =>
    start ≤ row.created_at ∧ row.created_at < end_ ∧ row.holds db ∧
      policy.selects scope (some row.initiated_by_user_id) (some row.project_id)
        row.provider row.model
  { usd := (rows.map ReservationRow.heldUsd).sum, tokens := (rows.map ReservationRow.heldTokens).sum }

/-- One policy of the loop: does it admit the request? -/
def checkPolicy (db : InferenceDb) (scope : ConversationInferenceScope)
    (quote : ConversationInferenceQuote) (reservedAt : ℤ) (policy : PolicyRow) :
    Except BudgetError Bool := do
  let limitUsd ← number policy.limit_usd
  let limitTokens ← number policy.limit_tokens
  refuse (limitUsd = none ∧ limitTokens = none) (.policyIncomplete policy.id)
  let bounds := usageBudgetPeriodBounds policy.period reservedAt
  let held := held db scope policy bounds.start bounds.end_
  let consumed := consumed db scope policy bounds.start bounds.end_
  refuse (limitUsd ≠ none ∧ 0 < consumed.unpricedRequests) (.unpricedUsage policy.id)
  return ¬ ((∃ limit ∈ limitUsd,
      limit + 1 / 1000000000 < consumed.usd + held.usd + quote.maxChargeUsd) ∨
    ∃ limit ∈ limitTokens,
      limit < consumed.tokens + held.tokens + quote.maxInputTokens + quote.maxOutputTokens)

/-- The loop over the policies ends at the first that refuses. -/
def checkPolicies (db : InferenceDb) (scope : ConversationInferenceScope)
    (quote : ConversationInferenceQuote) (reservedAt : ℤ) : List PolicyRow → Except BudgetError Bool
  | [] => return true
  | policy :: policies => do
    if ← checkPolicy db scope quote reservedAt policy then
      checkPolicies db scope quote reservedAt policies
    else return false

/-! ### The transactions -/

def newRow (scope : ConversationInferenceScope) (quote : ConversationInferenceQuote)
    (reservedAt : ℤ) : ReservationRow where
  reservation_key := scope.reservationKey
  usage_request_id := scope.usageRequestId
  project_id := scope.projectId
  work_item_id := scope.workItemId
  conversation_id := scope.conversationId
  initiated_by_user_id := scope.initiatedByUserId
  provider := scope.provider
  model := scope.model
  max_input_tokens := quote.maxInputTokens
  max_output_tokens := quote.maxOutputTokens
  max_charge_usd := quote.maxChargeUsd
  created_at := reservedAt

/-- `INSERT INTO conversation_inference_reservations`, with the constraints of the table. -/
def insertReservation (db : InferenceDb) (row : ReservationRow) : Except BudgetError InferenceDb := do
  refuse ((db.attempts.get? row.reservation_key).map AttemptRow.usage_request_id ≠
    some row.usage_request_id) .constraint
  refuse (∃ other ∈ db.reservations.values, other.usage_request_id = row.usage_request_id) .constraint
  refuse (row.max_output_tokens = 0 ∨ row.max_charge_usd < 0) .constraint
  return { db with reservations := db.reservations.set row.reservation_key row }

/-- A reservation of the key that exists is returned again, whatever its status. The result says
whether there is a hold. -/
def reserve (db : InferenceDb) (scope : ConversationInferenceScope)
    (quote : ConversationInferenceQuote) (reservedAt : ℤ) : Except BudgetError (Bool × InferenceDb) :=
  match db.reservations.get? scope.reservationKey with
  | some replay =>
    if sameReservation replay scope quote then .ok (true, db) else .error .idempotencyConflict
  | none => do
    let policies := (db.policies.filter fun policy => policy.applies scope).mergeSort
      fun a b => a.id ≤ b.id
    if ← checkPolicies db scope quote reservedAt policies then
      return (true, ← insertReservation db (newRow scope quote reservedAt))
    else return (false, db)

/-- `dispatch_started_at = COALESCE(dispatch_started_at, now())` -/
def ReservationRow.mark (row : ReservationRow) (now : ℤ) : ReservationRow :=
  { row with dispatch_started_at := some (row.dispatch_started_at.getD now) }

def markDispatching (db : InferenceDb) (key : String) (now : ℤ) : Except BudgetError InferenceDb :=
  match db.reservations.get? key with
  | none => .error (.inactiveReservation key)
  | some row =>
    if row.status = .active then
      .ok { db with reservations := db.reservations.set key (row.mark now) }
    else .error (.inactiveReservation key)

inductive Outcome
  | settled (usage : UsageEvent)
  | released
  | retained_ambiguous
  deriving DecidableEq

def Outcome.status : Outcome → ReservationStatus
  | .settled _ => .settled
  | .released => .released
  | .retained_ambiguous => .retained_ambiguous

/-- The columns that an outcome writes. -/
def ReservationRow.resolve (row : ReservationRow) (outcome : Outcome) : ReservationRow :=
  { row with
    status := outcome.status
    actual_charge_usd := match outcome with
      | .settled usage => usage.cost
      | .released => 0
      | .retained_ambiguous => row.max_charge_usd
    actual_tokens := match outcome with
      | .settled usage => usage.tokens
      | .released => 0
      | .retained_ambiguous => row.max_input_tokens + row.max_output_tokens }

def resolve (db : InferenceDb) (key : String) (outcome : Outcome) :
    Except BudgetError InferenceDb :=
  match db.reservations.get? key with
  | none => .error (.unknownReservation key)
  | some row =>
    if row.status = .active then do
      refuse ((row.resolve outcome).actual_charge_usd < 0) .constraint
      return { db with reservations := db.reservations.set key (row.resolve outcome) }
    else .ok db

/-- The outcome that `reconcile` gives an active reservation. -/
def reconciled (row : ReservationRow) (attempt : AttemptRow) : Outcome :=
  if attempt.usage_status = .exact then .settled {
    actual_cost_usd := some (attempt.cost_usd.getD 0), estimated_cost_usd := 0
    input_tokens := attempt.input_tokens.getD 0, output_tokens := attempt.output_tokens.getD 0 }
  else if row.dispatch_started_at = none ∧ attempt.provider_request_id = none then .released
  else .retained_ambiguous

def reconcileRow (attempts : OrdMap String AttemptRow) (row : ReservationRow) : ReservationRow :=
  match attempts.get? row.reservation_key with
  | none => row
  | some attempt => if row.status = .active then row.resolve (reconciled row attempt) else row

def reconcile (db : InferenceDb) : Except BudgetError InferenceDb := do
  let reservations := db.reservations.mapValues (reconcileRow db.attempts)
  refuse (∃ row ∈ reservations.values, row.actual_charge_usd < 0) .constraint
  return { db with reservations }

/-! ### Periods follow one another -/

/-- The first day of the period with a number. -/
def UsageBudgetPeriod.boundary : UsageBudgetPeriod → ℤ → ℤ
  | .daily, i => i
  | .weekly, i => 7 * i - 3
  | .monthly, i => monthStart i

/-- The number of the period of an instant. -/
def UsageBudgetPeriod.index (period : UsageBudgetPeriod) (at_ : ℤ) : ℤ :=
  match period with
  | .daily => utcDay at_
  | .weekly => (utcDay at_ + 3) / 7
  | .monthly => monthOf (utcDay at_)

theorem boundary_strictMono (period : UsageBudgetPeriod) : StrictMono period.boundary := by
  rcases period
  · exact fun i j h => h
  · intro i j h
    show 7 * i - 3 < 7 * j - 3
    omega
  · exact fun i j h => monthStart_strictMono h

theorem bounds_eq (period : UsageBudgetPeriod) (at_ : ℤ) : usageBudgetPeriodBounds period at_ =
    ⟨period.boundary (period.index at_) * dayMs, period.boundary (period.index at_ + 1) * dayMs⟩ := by
  rcases period
  · rfl
  · have hstart : utcDay at_ - (utcWeekday (utcDay at_) + 6) % 7 = 7 * ((utcDay at_ + 3) / 7) - 3 := by
      unfold utcWeekday
      omega
    have hend : 7 * ((utcDay at_ + 3) / 7) - 3 + 7 = 7 * ((utcDay at_ + 3) / 7 + 1) - 3 := by omega
    unfold usageBudgetPeriodBounds UsageBudgetPeriod.boundary UsageBudgetPeriod.index
    dsimp only
    rw [hstart, hend]
  · unfold usageBudgetPeriodBounds UsageBudgetPeriod.boundary UsageBudgetPeriod.index
    dsimp only
    rw [monthOf_monthStart]

/-- **An instant lies in its period.** -/
theorem mem_bounds (period : UsageBudgetPeriod) (at_ : ℤ) :
    (usageBudgetPeriodBounds period at_).start ≤ at_ ∧
      at_ < (usageBudgetPeriodBounds period at_).end_ := by
  have hday : period.boundary (period.index at_) ≤ utcDay at_ ∧
      utcDay at_ < period.boundary (period.index at_ + 1) := by
    rcases period
    · exact ⟨le_rfl, Int.lt_succ _⟩
    · show 7 * ((utcDay at_ + 3) / 7) - 3 ≤ _ ∧ _ < 7 * ((utcDay at_ + 3) / 7 + 1) - 3
      omega
    · exact ⟨monthStart_monthOf_le _, lt_monthStart_succ _⟩
  rw [bounds_eq]
  unfold utcDay dayMs at hday
  unfold dayMs
  dsimp only
  omega

/-- **Periods** of one kind are the same or follow one another. -/
theorem bounds_trichotomy (period : UsageBudgetPeriod) (a b : ℤ) :
    usageBudgetPeriodBounds period a = usageBudgetPeriodBounds period b ∨
      (usageBudgetPeriodBounds period a).end_ ≤ (usageBudgetPeriodBounds period b).start ∨
      (usageBudgetPeriodBounds period b).end_ ≤ (usageBudgetPeriodBounds period a).start := by
  have hmono := (boundary_strictMono period).monotone
  rw [bounds_eq, bounds_eq]
  dsimp only
  rcases lt_trichotomy (period.index a) (period.index b) with h | h | h
  · have hle := hmono (Int.add_one_le_iff.mpr h)
    unfold dayMs
    omega
  · rw [h]
    exact .inl rfl
  · have hle := hmono (Int.add_one_le_iff.mpr h)
    unfold dayMs
    omega

/-! ### What a transaction can do -/

section

variable {db db' : InferenceDb} {scope : ConversationInferenceScope}
  {quote : ConversationInferenceQuote} {key : String} {row : ReservationRow} {outcome : Outcome}

theorem insertReservation_ok (h : insertReservation db row = .ok db') :
    (∀ other ∈ db.reservations.values, other.usage_request_id ≠ row.usage_request_id) ∧
      0 ≤ row.max_charge_usd ∧
      db' = { db with reservations := db.reservations.set row.reservation_key row } := by
  unfold insertReservation at h
  obtain ⟨_, -, h⟩ := bind_eq_ok.mp h
  obtain ⟨_, hunique, h⟩ := bind_eq_ok.mp h
  obtain ⟨_, hcheck, h⟩ := bind_eq_ok.mp h
  rw [refuse_eq_ok] at hunique hcheck
  cases h
  push Not at hunique hcheck
  exact ⟨hunique, hcheck.2, rfl⟩

/-- **`reserve`** returns the tables as they are, or with one new active row, which every policy that
applies has admitted. -/
theorem reserve_ok {reservedAt : ℤ} {hold : Bool}
    (h : reserve db scope quote reservedAt = .ok (hold, db')) :
    db' = db ∨ (hold = true ∧ db.reservations.get? scope.reservationKey = none ∧
      (∃ policies, (∀ policy, policy ∈ policies ↔ policy ∈ db.policies ∧ policy.applies scope) ∧
        checkPolicies db scope quote reservedAt policies = .ok true) ∧
      insertReservation db (newRow scope quote reservedAt) = .ok db') := by
  unfold reserve at h
  split at h
  · split at h
    · cases h
      exact .inl rfl
    · cases h
  · rename_i hnone
    obtain ⟨admitted, hcheck, h⟩ := bind_eq_ok.mp h
    split at h
    · rename_i hadmitted
      obtain ⟨inserted, hinsert, h⟩ := bind_eq_ok.mp h
      cases h
      refine .inr ⟨rfl, hnone, ⟨_, fun policy => ?_, by rw [hadmitted] at hcheck; exact hcheck⟩, hinsert⟩
      rw [List.mem_mergeSort]
      simp
    · cases h
      exact .inl rfl

theorem checkPolicies_ok {reservedAt : ℤ} {policies : List PolicyRow}
    (h : checkPolicies db scope quote reservedAt policies = .ok true) :
    ∀ policy ∈ policies, checkPolicy db scope quote reservedAt policy = .ok true := by
  induction policies with
  | nil => exact fun policy hp => nomatch hp
  | cons first policies ih =>
    unfold checkPolicies at h
    obtain ⟨admitted, hfirst, h⟩ := bind_eq_ok.mp h
    split at h
    · rename_i hadmitted
      intro policy hp
      rcases List.mem_cons.mp hp with rfl | hp
      · rw [hfirst, hadmitted]
      · exact ih h policy hp
    · cases h

/-- **The admission test**, up to the tolerance of a billionth of a dollar. -/
theorem checkPolicy_ok {reservedAt : ℤ} {policy : PolicyRow}
    (h : checkPolicy db scope quote reservedAt policy = .ok true) :
    let bounds := usageBudgetPeriodBounds policy.period reservedAt
    let held := held db scope policy bounds.start bounds.end_
    let consumed := consumed db scope policy bounds.start bounds.end_
    (∀ limit ∈ policy.limit_usd,
      consumed.usd + held.usd + quote.maxChargeUsd ≤ limit + 1 / 1000000000) ∧
    ∀ limit ∈ policy.limit_tokens,
      consumed.tokens + held.tokens + quote.maxInputTokens + quote.maxOutputTokens ≤ limit := by
  have hnumber : ∀ {value : Option ℚ} {x : Option ℚ}, number value = .ok x → x = value := by
    intro value x hx
    unfold number at hx
    split at hx
    · cases hx
    · exact (Except.ok.inj hx).symm
  unfold checkPolicy at h
  obtain ⟨limitUsd, husd, h⟩ := bind_eq_ok.mp h
  obtain ⟨limitTokens, htokens, h⟩ := bind_eq_ok.mp h
  obtain ⟨_, -, h⟩ := bind_eq_ok.mp h
  obtain ⟨_, -, h⟩ := bind_eq_ok.mp h
  cases hnumber husd
  cases hnumber htokens
  have hnot := of_decide_eq_true (Except.ok.inj h)
  push Not at hnot
  exact hnot

theorem markDispatching_ok {now : ℤ} (h : markDispatching db key now = .ok db') :
    ∃ row, db.reservations.get? key = some row ∧ row.status = .active ∧
      db' = { db with reservations := db.reservations.set key (row.mark now) } := by
  unfold markDispatching at h
  split at h
  · cases h
  · rename_i row hrow
    split at h
    · rename_i hactive
      cases h
      exact ⟨row, hrow, hactive, rfl⟩
    · cases h

theorem resolve_ok (h : resolve db key outcome = .ok db') : db' = db ∨
    ∃ row, db.reservations.get? key = some row ∧ row.status = .active ∧
      0 ≤ (row.resolve outcome).actual_charge_usd ∧
      db' = { db with reservations := db.reservations.set key (row.resolve outcome) } := by
  unfold resolve at h
  split at h
  · cases h
  · rename_i row hrow
    split at h
    · rename_i hactive
      obtain ⟨_, hcheck, h⟩ := bind_eq_ok.mp h
      rw [refuse_eq_ok, not_lt] at hcheck
      cases h
      exact .inr ⟨row, hrow, hactive, hcheck, rfl⟩
    · cases h
      exact .inl rfl

theorem reconcile_ok (h : reconcile db = .ok db') :
    (∀ k row, db'.reservations.get? k = some row → 0 ≤ row.actual_charge_usd) ∧
      db' = { db with reservations := db.reservations.mapValues (reconcileRow db.attempts) } := by
  unfold reconcile at h
  obtain ⟨_, hcheck, h⟩ := bind_eq_ok.mp h
  rw [refuse_eq_ok] at hcheck
  cases h
  refine ⟨fun k row hrow => ?_, rfl⟩
  by_contra hneg
  exact hcheck ⟨row, OrdMap.mem_values.mpr ⟨k, hrow⟩, not_le.mp hneg⟩

/-- **`reconcile`** releases what was certainly never dispatched. -/
theorem reconcileRow_cases (attempts : OrdMap String AttemptRow) (row : ReservationRow) :
    reconcileRow attempts row = row ∨ (row.status = .active ∧
      ∃ attempt, attempts.get? row.reservation_key = some attempt ∧
        reconcileRow attempts row = row.resolve (reconciled row attempt)) := by
  unfold reconcileRow
  split
  · exact .inl rfl
  · rename_i attempt hattempt
    split
    · rename_i hactive
      exact .inr ⟨hactive, attempt, hattempt, rfl⟩
    · exact .inl rfl

theorem reconciled_released {attempt : AttemptRow} (h : reconciled row attempt = .released) :
    row.dispatch_started_at = none := by
  unfold reconciled at h
  split at h
  · cases h
  · split at h
    · rename_i hnone
      exact hnone.1
    · cases h

end

end Norns.Conversations.InferenceBudget
