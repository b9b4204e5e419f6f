import Norns.Lib.Run
import Norns.Conversations.InferenceBudget

/-! # The spend cap of conversations

What a policy sees of a period: the usage recorded in it, and the charges held for requests whose
usage is not recorded yet, whatever period they were reserved in. The admission test of `reserve`
selects holds by the time they were created, usage by the time it occurred.

* `Measure`: dollars and tokens, with one set of lemmas;
* `Tracked`: the tables as the transactions leave them;
* `Watched`: beside the database, the quotes that were admitted;
* `Admissible`: telemetry records the actual usage of a dispatched request, once and within the quote
  that was admitted for it;
* `Clear`: what the admission test does not look at;
* `conversation_spend_capped`: the runs. -/

namespace Norns.Conversations.SpendCap

open Norns.Lib Norns.Lib.Run Norns.Lib.Transaction Norns.Conversations.InferenceBudget

/-! ### Exposure -/

/-- The columns that the policy restricts are its own. -/
def Covers (policy : PolicyRow) (user project : Option String) (provider model : String) : Prop :=
  (policy.scope_type = .user → user = policy.scope_user_id) ∧
    (policy.scope_type = .project → project = policy.scope_project_id) ∧
    pinned policy.provider provider ∧ pinned policy.model model

def CoversRow (policy : PolicyRow) (row : ReservationRow) : Prop :=
  Covers policy (some row.initiated_by_user_id) (some row.project_id) row.provider row.model

def CoversEvent (policy : PolicyRow) (event : UsageEventRow) : Prop :=
  Covers policy event.initiated_by_user_id event.project_id event.provider event.model

instance (policy : PolicyRow) (user project : Option String) (provider model : String) :
    Decidable (Covers policy user project provider model) :=
  inferInstanceAs (Decidable (_ ∧ _))

instance (policy : PolicyRow) (row : ReservationRow) : Decidable (CoversRow policy row) :=
  inferInstanceAs (Decidable (Covers ..))

instance (policy : PolicyRow) (event : UsageEventRow) : Decidable (CoversEvent policy event) :=
  inferInstanceAs (Decidable (Covers ..))

/-- The charge of the request is held, and its usage can still be recorded. -/
def Outstanding (db : InferenceDb) (policy : PolicyRow) (row : ReservationRow) : Prop :=
  row.holds db ∧ ¬ observed db row.usage_request_id ∧ CoversRow policy row

instance (db : InferenceDb) (policy : PolicyRow) (row : ReservationRow) :
    Decidable (Outstanding db policy row) :=
  inferInstanceAs (Decidable (_ ∧ _))

def OccursIn (policy : PolicyRow) (bounds : UsageBudgetPeriodBounds) (event : UsageEventRow) : Prop :=
  event.event_type = .usage_observed ∧ bounds.start ≤ event.occurred_at ∧
    event.occurred_at < bounds.end_ ∧ CoversEvent policy event

instance (policy : PolicyRow) (bounds : UsageBudgetPeriodBounds) (event : UsageEventRow) :
    Decidable (OccursIn policy bounds event) :=
  inferInstanceAs (Decidable (_ ∧ _))

/-- What a policy limits. -/
structure Measure where
  held : ReservationRow → ℚ
  ceiling : ReservationRow → ℚ
  recorded : UsageEventRow → ℚ
  limit : PolicyRow → Option ℚ

def usd : Measure where
  held := ReservationRow.heldUsd
  ceiling := ReservationRow.max_charge_usd
  recorded := fun event => event.cost_usd.getD 0
  limit := PolicyRow.limit_usd

def tokens : Measure where
  held := ReservationRow.heldTokens
  ceiling := fun row => row.max_input_tokens + row.max_output_tokens
  recorded := fun event => ((event.input_tokens + event.output_tokens : ℤ) : ℚ)
  limit := PolicyRow.limit_tokens

namespace Measure

/-- The usage recorded in the period. -/
def recordedIn (m : Measure) (db : InferenceDb) (policy : PolicyRow)
    (bounds : UsageBudgetPeriodBounds) : ℚ :=
  ((db.usage.filter fun event => OccursIn policy bounds event).map m.recorded).sum

/-- What a reservation adds to a period that ends at `end_`. -/
def weight (m : Measure) (db : InferenceDb) (policy : PolicyRow) (end_ : ℤ)
    (row : ReservationRow) : ℚ :=
  if Outstanding db policy row ∧ row.created_at < end_ then m.held row else 0

/-- The charges held for requests whose usage can still be recorded in the period. -/
def outstanding (m : Measure) (db : InferenceDb) (policy : PolicyRow)
    (bounds : UsageBudgetPeriodBounds) : ℚ :=
  db.reservations.sum fun e => m.weight db policy bounds.end_ e.2

def exposure (m : Measure) (db : InferenceDb) (policy : PolicyRow)
    (bounds : UsageBudgetPeriodBounds) : ℚ :=
  m.recordedIn db policy bounds + m.outstanding db policy bounds

end Measure

/-- **The cap**, for every active policy, every limit it has, and every period. -/
def Capped (db : InferenceDb) : Prop :=
  ∀ m, m = usd ∨ m = tokens → ∀ policy ∈ db.policies, policy.active = true →
    ∀ limit ∈ m.limit policy, ∀ at_,
      m.exposure db policy (usageBudgetPeriodBounds policy.period at_) ≤ limit

/-! ### Runs -/

inductive Op
  | reserve (scope : ConversationInferenceScope) (quote : ConversationInferenceQuote) (reservedAt : ℤ)
  | markDispatching (key : String) (now : ℤ)
  /-- `settle`, `release` or `retainAmbiguous` -/
  | resolve (key : String) (outcome : Outcome)
  | reconcile
  /-- Telemetry records the usage of a request. -/
  | observe (event : UsageEventRow)
  /-- The turn attempts change. -/
  | attempts (attempts : OrdMap String AttemptRow)
  deriving DecidableEq

def step (db : InferenceDb) : Op → InferenceDb
  | .reserve scope quote reservedAt => commit db (Prod.snd <$> reserve db scope quote reservedAt)
  | .markDispatching key now => commit db (markDispatching db key now)
  | .resolve key outcome => commit db (resolve db key outcome)
  | .reconcile => commit db (reconcile db)
  | .observe event => { db with usage := db.usage ++ [event] }
  | .attempts attempts => { db with attempts }

def boot (policies : List PolicyRow) (attempts : OrdMap String AttemptRow) : InferenceDb :=
  ⟨OrdMap.empty, policies, [], attempts⟩

/-- The quotes that were admitted, seen from outside: no transaction reads them. -/
structure Watched where
  db : InferenceDb
  quotes : OrdMap String ConversationInferenceQuote

/-- A quote is admitted when `reserve` grants a key that had no reservation. -/
def quoted (w : Watched) : Op → OrdMap String ConversationInferenceQuote
  | .reserve scope quote reservedAt =>
    if w.db.reservations.get? scope.reservationKey = none ∧
        (reserve w.db scope quote reservedAt).toOption.map Prod.fst = some true then
      w.quotes.set scope.reservationKey quote
    else w.quotes
  | _ => w.quotes

def watch (w : Watched) (op : Op) : Watched := ⟨step w.db op, quoted w op⟩

/-- Charge and tokens are within the quote. -/
def WithinQuote (quote : ConversationInferenceQuote) (charge : ℚ) (tokens : ℕ) : Prop :=
  charge ≤ quote.maxChargeUsd ∧ tokens ≤ quote.maxInputTokens + quote.maxOutputTokens

/-- The event records the actual usage of the request: within its quote, after its reservation, and
as it was settled. -/
@[mk_iff] structure Records (quote : ConversationInferenceQuote) (row : ReservationRow)
    (event : UsageEventRow) : Prop where
  request : event.request_id = row.usage_request_id
  user : event.initiated_by_user_id = some row.initiated_by_user_id
  project : event.project_id = some row.project_id
  provider : event.provider = row.provider
  model : event.model = row.model
  dispatched : row.dispatch_started_at ≠ none
  after : row.created_at ≤ event.occurred_at
  cost : ∃ cost ∈ event.cost_usd, 0 ≤ cost ∧ cost ≤ quote.maxChargeUsd ∧
    (row.status = .settled → cost = row.actual_charge_usd)
  tokens : 0 ≤ event.input_tokens + event.output_tokens ∧
    event.input_tokens + event.output_tokens ≤ quote.maxInputTokens + quote.maxOutputTokens ∧
    (row.status = .settled → event.input_tokens + event.output_tokens = row.actual_tokens)

/-- **The telemetry and the settlements that the cap is about.** -/
def Admissible (w : Watched) : Op → Prop
  | .observe event => event.event_type = .usage_observed ∧
      event.request_type = "conversation_turn" ∧ ¬ observed w.db event.request_id ∧
      ∃ e ∈ w.db.reservations.entries, ∃ quote ∈ w.quotes.get? e.1, Records quote e.2 event
  | .resolve key (.settled usage) => ∀ row ∈ w.db.reservations.get? key, row.status = .active →
      ∀ quote ∈ w.quotes.get? key, WithinQuote quote usage.cost usage.tokens
  | .reconcile => ∀ e ∈ w.db.reservations.entries, e.2.status = .active →
      ∀ attempt ∈ w.db.attempts.get? e.2.reservation_key, attempt.usage_status = .exact →
        ∀ quote ∈ w.quotes.get? e.1, WithinQuote quote (attempt.cost_usd.getD 0)
          (attempt.input_tokens.getD 0 + attempt.output_tokens.getD 0)
  | _ => True

/-- The outstanding requests of the policy were reserved in the period, and none of its usage is later
than the period. -/
def Seen (db : InferenceDb) (policy : PolicyRow) (bounds : UsageBudgetPeriodBounds) : Prop :=
  (∀ row ∈ db.reservations.values, Outstanding db policy row →
    bounds.start ≤ row.created_at ∧ row.created_at < bounds.end_) ∧
  ∀ event ∈ db.usage, CoversEvent policy event → event.occurred_at < bounds.end_

/-- The request fits only with the tolerance of the test. -/
def NeedsTolerance (db : InferenceDb) (scope : ConversationInferenceScope)
    (quote : ConversationInferenceQuote) (policy : PolicyRow) (bounds : UsageBudgetPeriodBounds) :
    Prop :=
  ∃ limit ∈ policy.limit_usd,
    limit < (consumed db scope policy bounds.start bounds.end_).usd +
      (held db scope policy bounds.start bounds.end_).usd + quote.maxChargeUsd ∧
    (consumed db scope policy bounds.start bounds.end_).usd +
      (held db scope policy bounds.start bounds.end_).usd + quote.maxChargeUsd ≤
        limit + 1 / 1000000000

/-- **The condition.** When a policy is asked for a new reservation, its outstanding requests were
reserved in the same period, no later period has usage, and the tolerance is not used up; and no
dispatched request is released. -/
def Clear (db : InferenceDb) : Op → Prop
  | .reserve scope quote reservedAt => db.reservations.get? scope.reservationKey = none →
      ∀ policy ∈ db.policies, policy.applies scope →
        Seen db policy (usageBudgetPeriodBounds policy.period reservedAt) ∧
          ¬ NeedsTolerance db scope quote policy (usageBudgetPeriodBounds policy.period reservedAt)
  | .resolve key .released => ∀ row ∈ db.reservations.get? key, row.status = .active →
      row.dispatch_started_at = none
  | _ => True

instance (quote : ConversationInferenceQuote) (charge : ℚ) (tokens : ℕ) :
    Decidable (WithinQuote quote charge tokens) :=
  inferInstanceAs (Decidable (_ ∧ _))

instance (quote : ConversationInferenceQuote) (row : ReservationRow) (event : UsageEventRow) :
    Decidable (Records quote row event) :=
  decidable_of_iff' _ (records_iff quote row event)

instance (db : InferenceDb) (policy : PolicyRow) (bounds : UsageBudgetPeriodBounds) :
    Decidable (Seen db policy bounds) :=
  inferInstanceAs (Decidable (_ ∧ _))

instance (db : InferenceDb) (scope : ConversationInferenceScope) (quote : ConversationInferenceQuote)
    (policy : PolicyRow) (bounds : UsageBudgetPeriodBounds) :
    Decidable (NeedsTolerance db scope quote policy bounds) :=
  inferInstanceAs (Decidable (∃ limit ∈ policy.limit_usd, _))

instance (w : Watched) (op : Op) : Decidable (Admissible w op) :=
  match op with
  | .observe _ => inferInstanceAs (Decidable (_ ∧ _))
  | .resolve key (.settled _) => inferInstanceAs (Decidable (∀ row ∈ w.db.reservations.get? key, _))
  | .reconcile => inferInstanceAs (Decidable (∀ e ∈ w.db.reservations.entries, _))
  | .resolve _ .released | .resolve _ .retained_ambiguous | .reserve _ _ _ | .markDispatching _ _
  | .attempts _ => isTrue trivial

instance (db : InferenceDb) (op : Op) : Decidable (Clear db op) :=
  match op with
  | .reserve _ _ _ => inferInstanceAs (Decidable (_ = none → _))
  | .resolve key .released => inferInstanceAs (Decidable (∀ row ∈ db.reservations.get? key, _))
  | .resolve _ (.settled _) | .resolve _ .retained_ambiguous | .markDispatching _ _ | .reconcile
  | .observe _ | .attempts _ => isTrue trivial

/-! ### The invariant -/

/-- The quote that the columns of a reservation hold. -/
def quoteOf (row : ReservationRow) : ConversationInferenceQuote :=
  ⟨row.max_input_tokens, row.max_output_tokens, row.max_charge_usd⟩

/-- Every reservation holds the quote that was admitted for it. -/
def Quoted (w : Watched) : Prop :=
  ∀ key row, w.db.reservations.get? key = some row → w.quotes.get? key = some (quoteOf row)

structure Tracked (db : InferenceDb) : Prop where
  unique : ∀ k k' row row', db.reservations.get? k = some row →
    db.reservations.get? k' = some row' → row.usage_request_id = row'.usage_request_id → k = k'
  charge : ∀ k row, db.reservations.get? k = some row →
    0 ≤ row.max_charge_usd ∧ 0 ≤ row.actual_charge_usd
  retained : ∀ k row, db.reservations.get? k = some row → row.status = .retained_ambiguous →
    row.actual_charge_usd = row.max_charge_usd ∧
      row.actual_tokens = row.max_input_tokens + row.max_output_tokens
  dispatched : ∀ k row, db.reservations.get? k = some row → row.dispatch_started_at ≠ none →
    row.status ≠ .released
  events : ∀ event ∈ db.usage, event.event_type = .usage_observed ∧
    event.request_type ≠ "runtime_aggregate_report" ∧ (∃ cost ∈ event.cost_usd, 0 ≤ cost) ∧
    0 ≤ event.input_tokens + event.output_tokens ∧
    ∃ k row, db.reservations.get? k = some row ∧ row.usage_request_id = event.request_id
  once : (db.usage.map UsageEventRow.request_id).Nodup
  capped : Capped db

section

variable {db : InferenceDb} {policy : PolicyRow} {row row' : ReservationRow} {event : UsageEventRow}
  {m : Measure} {scope : ConversationInferenceScope}

/-! ### Scopes -/

theorem selects_iff_covers (h : policy.applies scope) {user project : Option String}
    {provider model : String} :
    policy.selects scope user project provider model ↔ Covers policy user project provider model := by
  obtain ⟨-, hscope, hprovider, hmodel⟩ := h
  have hpin : ∀ {pin : Option String} {mine value : String}, pinned pin mine →
      ((pin.isSome = true → value = mine) ↔ pinned pin value) := by
    rintro (_ | p) mine value hpinned
    · exact ⟨(fun _ p hp => nomatch hp), (fun _ h => nomatch h)⟩
    · rw [← hpinned p rfl]
      refine ⟨fun h q hq => ?_, fun h _ => (h p rfl).symm⟩
      cases hq
      exact (h rfl).symm
  refine and_congr (imp_congr_right fun hs => ?_) (and_congr (imp_congr_right fun hs => ?_)
    (and_congr (hpin hprovider) (hpin hmodel)))
  · rw [hs] at hscope
    rw [show policy.scope_user_id = _ from hscope]
  · rw [hs] at hscope
    rw [show policy.scope_project_id = _ from hscope]

theorem applies_of_covers {quote : ConversationInferenceQuote} {reservedAt : ℤ}
    (hactive : policy.active = true) (h : CoversRow policy (newRow scope quote reservedAt)) :
    policy.applies scope := by
  obtain ⟨huser, hproject, hprovider, hmodel⟩ := h
  refine ⟨hactive, ?_, hprovider, hmodel⟩
  rcases hs : policy.scope_type
  · trivial
  · exact (huser hs).symm
  · exact (hproject hs).symm

/-! ### Weights -/

theorem held_nonneg (hm : m = usd ∨ m = tokens)
    (hcharge : 0 ≤ row.max_charge_usd ∧ 0 ≤ row.actual_charge_usd) : 0 ≤ m.held row := by
  rcases hm with rfl | rfl
  · change 0 ≤ row.heldUsd
    unfold ReservationRow.heldUsd
    split
    · exact hcharge.1
    · exact hcharge.2
  · change 0 ≤ row.heldTokens
    unfold ReservationRow.heldTokens
    split
    · positivity
    · positivity

theorem weight_nonneg (hm : m = usd ∨ m = tokens) {end_ : ℤ}
    (hcharge : 0 ≤ row.max_charge_usd ∧ 0 ≤ row.actual_charge_usd) :
    0 ≤ m.weight db policy end_ row := by
  unfold Measure.weight
  split
  · exact held_nonneg hm hcharge
  · exact le_rfl

theorem held_active (hm : m = usd ∨ m = tokens) (h : row.status = .active) :
    m.held row = m.ceiling row := by
  rcases hm with rfl | rfl
  · exact if_pos h
  · exact if_pos h

/-- A weight does not grow if the row stays, counts no more than before and holds no more. -/
theorem weight_le {db' : InferenceDb} {end_ : ℤ} (hnonneg : 0 ≤ m.held row)
    (houtstanding : Outstanding db' policy row' → Outstanding db policy row)
    (hcreated : row'.created_at = row.created_at) (hheld : m.held row' ≤ m.held row) :
    m.weight db' policy end_ row' ≤ m.weight db policy end_ row := by
  unfold Measure.weight
  rw [hcreated]
  split
  · rename_i h
    rw [if_pos ⟨houtstanding h.1, h.2⟩]
    exact hheld
  · split
    · exact hnonneg
    · exact le_rfl

/-! ### Rows -/

/-- What a transaction of the run can do to a reservation. -/
inductive Moved (row : ReservationRow) : ReservationRow → Prop
  | same : Moved row row
  | marked (now : ℤ) (active : row.status = .active) : Moved row (row.mark now)
  | resolved (outcome : Outcome) (active : row.status = .active)
      (charge : 0 ≤ (row.resolve outcome).actual_charge_usd)
      (quoted : ∀ usage, outcome = .settled usage → WithinQuote (quoteOf row) usage.cost usage.tokens)
      (unmarked : outcome = .released → row.dispatch_started_at = none) :
      Moved row (row.resolve outcome)

namespace Moved

theorem request (h : Moved row row') : row'.usage_request_id = row.usage_request_id := by
  rcases h <;> rfl

theorem created (h : Moved row row') : row'.created_at = row.created_at := by
  rcases h <;> rfl

theorem covers (h : Moved row row') (hcovers : CoversRow policy row') : CoversRow policy row := by
  rcases h <;> exact hcovers

theorem holds (h : Moved row row') (hholds : row'.holds db) : row.holds db := by
  rcases h with _ | ⟨now, hactive⟩ | ⟨outcome, hactive, _, _, _⟩
  · exact hholds
  · exact .inl hactive
  · exact .inl hactive

theorem charges (h : Moved row row') (hcharge : 0 ≤ row.max_charge_usd ∧ 0 ≤ row.actual_charge_usd) :
    0 ≤ row'.max_charge_usd ∧ 0 ≤ row'.actual_charge_usd := by
  rcases h with _ | ⟨now, _⟩ | ⟨outcome, _, hnew, _, _⟩
  · exact hcharge
  · exact hcharge
  · exact ⟨hcharge.1, hnew⟩

/-- An outcome holds no more than the quote. -/
theorem held_le (hm : m = usd ∨ m = tokens) (h : Moved row row')
    (hcharge : 0 ≤ row.max_charge_usd ∧ 0 ≤ row.actual_charge_usd) : m.held row' ≤ m.held row := by
  rcases h with _ | ⟨now, hactive⟩ | ⟨outcome, hactive, _, hquoted, _⟩
  · exact le_rfl
  · rcases hm with rfl | rfl <;> exact le_rfl
  · rw [held_active hm hactive]
    rcases outcome with usage | _ | _
    · obtain ⟨hcost, htokens⟩ := hquoted usage rfl
      rcases hm with rfl | rfl
      · exact hcost
      · show ((usage.tokens : ℕ) : ℚ) ≤ row.max_input_tokens + row.max_output_tokens
        exact_mod_cast htokens
    · rcases hm with rfl | rfl
      · exact hcharge.1
      · show ((0 : ℕ) : ℚ) ≤ row.max_input_tokens + row.max_output_tokens
        positivity
    · rcases hm with rfl | rfl
      · exact le_rfl
      · show ((row.max_input_tokens + row.max_output_tokens : ℕ) : ℚ) ≤
          row.max_input_tokens + row.max_output_tokens
        exact (Nat.cast_add _ _).le

end Moved

/-- **Transactions that move rows** keep the invariant. -/
theorem Tracked.moved {db' : InferenceDb} (h : Tracked db) (hpolicies : db'.policies = db.policies)
    (husage : db'.usage = db.usage) (hkeys : db'.reservations.keys = db.reservations.keys)
    (hmoved : ∀ k row row', db.reservations.get? k = some row →
      db'.reservations.get? k = some row' → Moved row row') : Tracked db' := by
  have hback : ∀ {k row'}, db'.reservations.get? k = some row' →
      ∃ row, db.reservations.get? k = some row ∧ Moved row row' := by
    intro k row' hrow'
    obtain ⟨row, hrow⟩ := OrdMap.mem_keys.mp (hkeys ▸ OrdMap.mem_keys.mpr ⟨row', hrow'⟩)
    exact ⟨row, hrow, hmoved k row row' hrow hrow'⟩
  have hobserved : ∀ request, observed db' request ↔ observed db request := by
    intro request
    unfold observed
    rw [husage]
  constructor
  · intro k k' row row' hrow hrow' hsame
    obtain ⟨old, hold, hm⟩ := hback hrow
    obtain ⟨old', hold', hm'⟩ := hback hrow'
    exact h.unique k k' old old' hold hold' (hm.request.symm.trans (hsame.trans hm'.request))
  · intro k row hrow
    obtain ⟨old, hold, hm⟩ := hback hrow
    exact hm.charges (h.charge k old hold)
  · intro k row hrow hstatus
    obtain ⟨old, hold, hm⟩ := hback hrow
    rcases hm with _ | ⟨now, hactive⟩ | ⟨outcome, hactive, _, _, _⟩
    · exact h.retained k row hold hstatus
    · exact absurd (hactive.symm.trans hstatus) (by decide)
    · rcases outcome with usage | _ | _
      · exact nomatch hstatus
      · exact nomatch hstatus
      · exact ⟨rfl, rfl⟩
  · intro k row hrow hmarker hstatus
    obtain ⟨old, hold, hm⟩ := hback hrow
    rcases hm with _ | ⟨now, hactive⟩ | ⟨outcome, hactive, _, _, hunmarked⟩
    · exact h.dispatched k row hold hmarker hstatus
    · exact absurd (hactive.symm.trans hstatus) (by decide)
    · rcases outcome with usage | _ | _
      · exact nomatch hstatus
      · exact hmarker (hunmarked rfl)
      · exact nomatch hstatus
  · intro event hevent
    rw [husage] at hevent
    obtain ⟨htype, hrequest, hcost, htokens, k, row, hrow, hid⟩ := h.events event hevent
    obtain ⟨row', hrow'⟩ := OrdMap.mem_keys.mp (hkeys.symm ▸ OrdMap.mem_keys.mpr ⟨row, hrow⟩)
    exact ⟨htype, hrequest, hcost, htokens, k, row', hrow',
      (hmoved k row row' hrow hrow').request.trans hid⟩
  · rw [husage]
    exact h.once
  · intro m hm policy hpolicy hactive limit hlimit at_
    rw [hpolicies] at hpolicy
    have hrecorded : m.recordedIn db' policy (usageBudgetPeriodBounds policy.period at_) =
        m.recordedIn db policy (usageBudgetPeriodBounds policy.period at_) := by
      unfold Measure.recordedIn
      rw [husage]
    have houtstanding : m.outstanding db' policy (usageBudgetPeriodBounds policy.period at_) ≤
        m.outstanding db policy (usageBudgetPeriodBounds policy.period at_) := by
      refine OrdMap.sum_le_sum_of_keys hkeys fun k row row' hrow hrow' => ?_
      have hm' := hmoved k row row' hrow hrow'
      refine weight_le (held_nonneg hm (h.charge k row hrow)) (fun hout => ?_) hm'.created
        (hm'.held_le hm (h.charge k row hrow))
      obtain ⟨hholds, hobs, hcovers⟩ := hout
      refine ⟨hm'.holds ?_, fun hdone => hobs ?_, hm'.covers hcovers⟩
      · unfold ReservationRow.holds at hholds ⊢
        rw [hobserved] at hholds
        exact hholds
      · rw [hobserved, hm'.request]
        exact hdone
    unfold Measure.exposure
    rw [hrecorded]
    exact (add_le_add_right houtstanding _).trans (h.capped m hm policy hpolicy hactive limit hlimit at_)

/-! ### Telemetry -/

/-- Usage is within what is held for its request. -/
theorem Tracked.recorded_le_held {key : String} (h : Tracked db)
    (hrow : db.reservations.get? key = some row) (hrecords : Records (quoteOf row) row event)
    (hm : m = usd ∨ m = tokens) : m.recorded event ≤ m.held row := by
  obtain ⟨cost, hcost, -, hmax, hsettled⟩ := hrecords.cost
  obtain ⟨-, htokensMax, htokensSettled⟩ := hrecords.tokens
  have hreleased := h.dispatched key row hrow hrecords.dispatched
  rcases hm with rfl | rfl
  · show event.cost_usd.getD 0 ≤ row.heldUsd
    rw [hcost]
    unfold ReservationRow.heldUsd
    rcases hstatus : row.status
    · exact hmax
    · exact (hsettled hstatus).le
    · exact absurd hstatus hreleased
    · exact hmax.trans (h.retained key row hrow hstatus).1.ge
  · show ((event.input_tokens + event.output_tokens : ℤ) : ℚ) ≤ row.heldTokens
    unfold ReservationRow.heldTokens
    rcases hstatus : row.status
    · exact_mod_cast htokensMax
    · exact_mod_cast (htokensSettled hstatus).le
    · exact absurd hstatus hreleased
    · have hall : row.actual_tokens = row.max_input_tokens + row.max_output_tokens :=
        (h.retained key row hrow hstatus).2
      have hle : event.input_tokens + event.output_tokens ≤ (row.actual_tokens : ℤ) := by
        rw [hall, Nat.cast_add]
        exact htokensMax
      exact_mod_cast hle

/-- Usage in the period counts no more than its request did before. -/
theorem Tracked.recorded_le_weight {key : String} {bounds : UsageBudgetPeriodBounds} (h : Tracked db)
    (hrow : db.reservations.get? key = some row) (hrecords : Records (quoteOf row) row event)
    (hnew : ¬ observed db event.request_id) (hm : m = usd ∨ m = tokens)
    (hin : OccursIn policy bounds event) : m.recorded event ≤ m.weight db policy bounds.end_ row := by
  obtain ⟨-, -, hend, hcovers⟩ := hin
  have hnot : ¬ observed db row.usage_request_id := by
    rw [← hrecords.request]
    exact hnew
  have hcoversRow : CoversRow policy row := by
    unfold CoversEvent at hcovers
    rw [hrecords.user, hrecords.project, hrecords.provider, hrecords.model] at hcovers
    exact hcovers
  have hholds : row.holds db := by
    rcases hstatus : row.status
    · exact .inl hstatus
    · exact .inr (.inr ⟨hstatus, hnot⟩)
    · exact absurd hstatus (h.dispatched key row hrow hrecords.dispatched)
    · exact .inr (.inl hstatus)
  unfold Measure.weight
  rw [if_pos ⟨⟨hholds, hnot, hcoversRow⟩, hrecords.after.trans_lt hend⟩]
  exact h.recorded_le_held hrow hrecords hm

/-- **Usage that is recorded** was held: the exposure does not grow. -/
theorem Tracked.exposure_observe {key : String} (h : Tracked db)
    (hrow : db.reservations.get? key = some row) (hrecords : Records (quoteOf row) row event)
    (htype : event.event_type = .usage_observed) (hnew : ¬ observed db event.request_id)
    (hm : m = usd ∨ m = tokens) (bounds : UsageBudgetPeriodBounds) :
    m.exposure { db with usage := db.usage ++ [event] } policy bounds ≤ m.exposure db policy bounds := by
  let db' : InferenceDb := { db with usage := db.usage ++ [event] }
  have hobserved : ∀ {request}, observed db request → observed db' request := by
    rintro request ⟨usage, husage, hrequest⟩
    exact ⟨usage, List.mem_append_left _ husage, hrequest⟩
  have hrecorded : m.recordedIn db' policy bounds = m.recordedIn db policy bounds +
      if OccursIn policy bounds event then m.recorded event else 0 := by
    unfold Measure.recordedIn
    rw [List.filter_append, List.map_append, List.sum_append]
    split
    · rename_i hin
      simp [hin]
    · rename_i hin
      simp [hin]
  -- no request counts more than before
  have hweight : ∀ k row, db.reservations.get? k = some row →
      m.weight db' policy bounds.end_ row ≤ m.weight db policy bounds.end_ row := by
    intro k row hrow
    refine weight_le (held_nonneg hm (h.charge k row hrow)) (fun hout => ?_) rfl le_rfl
    obtain ⟨hholds, hobs, hcovers⟩ := hout
    refine ⟨?_, fun hdone => hobs (hobserved hdone), hcovers⟩
    rcases hholds with hactive | hretained | ⟨hsettled, -⟩
    · exact .inl hactive
    · exact .inr (.inl hretained)
    · exact .inr (.inr ⟨hsettled, fun hdone => hobs (hobserved hdone)⟩)
  have hzero : m.weight db' policy bounds.end_ row ≤ 0 := by
    unfold Measure.weight
    rw [if_neg]
    rintro ⟨⟨-, hobs, -⟩, -⟩
    exact hobs ⟨event, List.mem_append_right _ (List.mem_singleton_self _), hrecords.request, htype⟩
  have hcounted : (if OccursIn policy bounds event then m.recorded event else 0) ≤
      m.weight db policy bounds.end_ row := by
    split
    · rename_i hin
      exact h.recorded_le_weight hrow hrecords hnew hm hin
    · exact weight_nonneg hm (h.charge key row hrow)
  have houtstanding : m.outstanding db' policy bounds ≤
      m.outstanding db policy bounds - m.weight db policy bounds.end_ row :=
    OrdMap.sum_le_sum_sub hrow hweight hzero
  show m.recordedIn db' policy bounds + m.outstanding db' policy bounds ≤ _
  unfold Measure.exposure
  rw [hrecorded]
  linarith

theorem Tracked.observe {key : String} (h : Tracked db) (hrow : db.reservations.get? key = some row)
    (hrecords : Records (quoteOf row) row event) (htype : event.event_type = .usage_observed)
    (hrequest : event.request_type = "conversation_turn") (hnew : ¬ observed db event.request_id) :
    Tracked { db with usage := db.usage ++ [event] } := by
  refine ⟨h.unique, h.charge, h.retained, h.dispatched, fun usage husage => ?_, ?_, ?_⟩
  · rcases List.mem_append.mp husage with hold | hevent
    · exact h.events usage hold
    · cases List.mem_singleton.mp hevent
      obtain ⟨cost, hcost, hnonneg, -⟩ := hrecords.cost
      refine ⟨htype, ?_, ⟨cost, hcost, hnonneg⟩, hrecords.tokens.1, key, row, hrow,
        hrecords.request.symm⟩
      rw [hrequest]
      decide
  · rw [List.map_append]
    refine List.nodup_append.mpr ⟨h.once, List.nodup_singleton _, fun request hold other hother => ?_⟩
    rintro rfl
    obtain ⟨usage, husage, hid⟩ := List.mem_map.mp hold
    exact hnew ⟨usage, husage, hid.trans (List.mem_singleton.mp hother), (h.events usage husage).1⟩
  · intro m hm policy hpolicy hactive limit hlimit at_
    exact (h.exposure_observe hrow hrecords htype hnew hm _).trans
      (h.capped m hm policy hpolicy hactive limit hlimit at_)

/-! ### Admission -/

theorem sum_filterMap_some {α : Type} {f : α → Option ℚ} {g : α → ℚ} {l : List α}
    (h : ∀ x ∈ l, f x = some (g x)) : (l.filterMap f).sum = (l.map g).sum := by
  induction l with
  | nil => rfl
  | cons x l ih =>
    rw [List.filterMap_cons_some (h x List.mem_cons_self), List.sum_cons, List.map_cons, List.sum_cons,
      ih fun y hy => h y (List.mem_cons_of_mem x hy)]

/-- Where every request is recorded once, `consumed` misses no usage of the period. -/
theorem Tracked.consumed_ge (h : Tracked db) (happlies : policy.applies scope)
    (bounds : UsageBudgetPeriodBounds) :
    usd.recordedIn db policy bounds ≤ (consumed db scope policy bounds.start bounds.end_).usd ∧
      tokens.recordedIn db policy bounds ≤
        (consumed db scope policy bounds.start bounds.end_).tokens := by
  have hin : (db.usage.filter fun usage => usage.event_type = .usage_observed ∧
      bounds.start ≤ usage.occurred_at ∧ usage.occurred_at < bounds.end_ ∧
      usage.canonical db.usage ∧ policy.selects scope usage.initiated_by_user_id usage.project_id
        usage.provider usage.model) = db.usage.filter fun event => OccursIn policy bounds event := by
    refine List.filter_congr fun usage husage => decide_eq_decide.mpr ?_
    have hcanonical : usage.canonical db.usage := .inl (h.events usage husage).2.1
    rw [selects_iff_covers happlies]
    unfold OccursIn CoversEvent
    tauto
  have hlatest : ((db.usage.filter fun event => OccursIn policy bounds event).filter fun usage =>
      ∀ other ∈ db.usage.filter fun event => OccursIn policy bounds event,
        other.request_id = usage.request_id → ¬ other.outranks usage) =
      db.usage.filter fun event => OccursIn policy bounds event := by
    refine List.filter_eq_self.mpr fun usage husage => decide_eq_true fun other hother hid => ?_
    cases List.inj_on_of_nodup_map h.once (List.mem_of_mem_filter hother)
      (List.mem_of_mem_filter husage) hid
    unfold UsageEventRow.outranks
    simp
  have hadjustments : ∀ usage : UsageEventRow, (db.usage.filter fun adjustment =>
      adjustment.event_type = .adjustment ∧ adjustment.request_id = usage.request_id ∧
        adjustment.occurred_at < bounds.end_) = [] := by
    intro usage
    refine List.filter_eq_nil_iff.mpr fun adjustment hadj hyes => ?_
    exact nomatch (h.events adjustment hadj).1.symm.trans (of_decide_eq_true hyes).1
  unfold consumed
  simp only [hin, hlatest, hadjustments, List.map_nil, List.sum_nil, add_zero]
  refine ⟨le_max_of_le_left (le_of_eq ?_), le_max_left _ _⟩
  refine (sum_filterMap_some fun usage husage => ?_).symm
  obtain ⟨cost, hcost, -⟩ := (h.events usage (List.mem_of_mem_filter husage)).2.2.1
  show Option.map _ usage.cost_usd = some (usage.cost_usd.getD 0)
  rw [hcost]
  rfl

/-- Where every outstanding request was reserved in the period, `held` misses none. -/
theorem Tracked.held_ge (h : Tracked db) (happlies : policy.applies scope)
    {bounds : UsageBudgetPeriodBounds} (end_ : ℤ)
    (hrows : ∀ row ∈ db.reservations.values, Outstanding db policy row →
      bounds.start ≤ row.created_at ∧ row.created_at < bounds.end_)
    (hm : m = usd ∨ m = tokens) : (db.reservations.sum fun e => m.weight db policy end_ e.2) ≤
      ((db.reservations.values.filter fun row => bounds.start ≤ row.created_at ∧
        row.created_at < bounds.end_ ∧ row.holds db ∧ policy.selects scope
          (some row.initiated_by_user_id) (some row.project_id) row.provider row.model).map
            m.held).sum := by
  rw [OrdMap.sum_filter_values]
  refine OrdMap.sum_le_sum fun key row hrow => ?_
  have hnonneg : 0 ≤ m.held row := held_nonneg hm (h.charge key row hrow)
  dsimp only
  unfold Measure.weight
  split
  · rename_i hout
    obtain ⟨hstart, hend⟩ := hrows row (OrdMap.mem_values.mpr ⟨key, hrow⟩) hout.1
    rw [if_pos ⟨hstart, hend, hout.1.1, (selects_iff_covers happlies).mpr hout.1.2.2⟩]
  · split
    · exact hnonneg
    · exact le_rfl

/-- Where no usage is recorded after the period, none is recorded in the later ones. -/
theorem recordedIn_eq_zero {bounds : UsageBudgetPeriodBounds}
    (h : ∀ event ∈ db.usage, CoversEvent policy event → event.occurred_at < bounds.start) :
    m.recordedIn db policy bounds = 0 := by
  have hnone : (db.usage.filter fun event => OccursIn policy bounds event) = [] := by
    refine List.filter_eq_nil_iff.mpr fun event hevent hin => ?_
    obtain ⟨-, hstart, -, hcovers⟩ := of_decide_eq_true hin
    exact absurd (h event hevent hcovers) (not_lt.mpr hstart)
  unfold Measure.recordedIn
  rw [hnone]
  rfl

/-- **What the admission test sees** of a period bounds the exposure of that period and of every
later one. -/
theorem Tracked.exposure_le_seen (h : Tracked db) (happlies : policy.applies scope)
    {seen bounds : UsageBudgetPeriodBounds} (hsame : bounds = seen ∨ seen.end_ ≤ bounds.start)
    (hseen : Seen db policy seen) :
    usd.exposure db policy bounds ≤ (consumed db scope policy seen.start seen.end_).usd +
        (held db scope policy seen.start seen.end_).usd ∧
      tokens.exposure db policy bounds ≤ (consumed db scope policy seen.start seen.end_).tokens +
        (held db scope policy seen.start seen.end_).tokens := by
  have hrecorded : usd.recordedIn db policy bounds ≤
        (consumed db scope policy seen.start seen.end_).usd ∧
      tokens.recordedIn db policy bounds ≤
        (consumed db scope policy seen.start seen.end_).tokens := by
    rcases hsame with rfl | hlater
    · exact h.consumed_ge happlies bounds
    · have hbefore : ∀ event ∈ db.usage, CoversEvent policy event →
          event.occurred_at < bounds.start :=
        fun event hevent hcovers => (hseen.2 event hevent hcovers).trans_le hlater
      rw [recordedIn_eq_zero hbefore, recordedIn_eq_zero hbefore]
      exact ⟨le_max_right _ _, le_max_right _ _⟩
  exact ⟨add_le_add hrecorded.1 (h.held_ge happlies _ hseen.1 (.inl rfl)),
    add_le_add hrecorded.2 (h.held_ge happlies _ hseen.1 (.inr rfl))⟩

/-- **An admitted request** fits into every period that counts it. -/
theorem Tracked.exposure_reserved {quote : ConversationInferenceQuote} {reservedAt at_ : ℤ}
    (h : Tracked db) (hpolicy : policy ∈ db.policies) (happlies : policy.applies scope)
    (hnone : db.reservations.get? scope.reservationKey = none)
    (hcheck : checkPolicy db scope quote reservedAt policy = .ok true)
    (hclear : Clear db (.reserve scope quote reservedAt))
    (hlater : reservedAt < (usageBudgetPeriodBounds policy.period at_).end_)
    (hm : m = usd ∨ m = tokens) {limit : ℚ} (hlimit : limit ∈ m.limit policy) :
    m.exposure db policy (usageBudgetPeriodBounds policy.period at_) +
      m.ceiling (newRow scope quote reservedAt) ≤ limit := by
  obtain ⟨hseen, htolerance⟩ := hclear hnone policy hpolicy happlies
  obtain ⟨husd, htokens⟩ := checkPolicy_ok hcheck
  have hsame : usageBudgetPeriodBounds policy.period at_ =
        usageBudgetPeriodBounds policy.period reservedAt ∨
      (usageBudgetPeriodBounds policy.period reservedAt).end_ ≤
        (usageBudgetPeriodBounds policy.period at_).start := by
    have hmem := (mem_bounds policy.period reservedAt).1
    rcases bounds_trichotomy policy.period at_ reservedAt with heq | hbefore | hafter
    · exact .inl heq
    · omega
    · exact .inr hafter
  obtain ⟨hseenUsd, hseenTokens⟩ := h.exposure_le_seen happlies hsame hseen
  rcases hm with rfl | rfl
  · have hadmitted := husd limit hlimit
    show usd.exposure db policy _ + quote.maxChargeUsd ≤ limit
    by_contra hover
    refine htolerance ⟨limit, hlimit, ?_, hadmitted⟩
    linarith
  · have hadmitted := htokens limit hlimit
    show tokens.exposure db policy _ +
      ((quote.maxInputTokens : ℚ) + (quote.maxOutputTokens : ℚ)) ≤ limit
    linarith

theorem Tracked.reserve {quote : ConversationInferenceQuote} {reservedAt : ℤ} (h : Tracked db)
    (hnone : db.reservations.get? scope.reservationKey = none)
    (hfresh : ∀ k row, db.reservations.get? k = some row →
      row.usage_request_id ≠ scope.usageRequestId)
    (hmax : 0 ≤ quote.maxChargeUsd)
    (hcheck : ∀ policy ∈ db.policies, policy.applies scope →
      checkPolicy db scope quote reservedAt policy = .ok true)
    (hclear : Clear db (.reserve scope quote reservedAt)) :
    Tracked { db with
      reservations := db.reservations.set scope.reservationKey (newRow scope quote reservedAt) } := by
  have hcases : ∀ {k row}, (db.reservations.set scope.reservationKey
      (newRow scope quote reservedAt)).get? k = some row →
      (k = scope.reservationKey ∧ row = newRow scope quote reservedAt) ∨
        db.reservations.get? k = some row := by
    intro k row hrow
    rw [OrdMap.get?_set] at hrow
    split at hrow
    · rename_i hk
      exact .inl ⟨hk.symm, (Option.some.inj hrow).symm⟩
    · exact .inr hrow
  constructor
  · intro k k' row row' hrow hrow' hsame
    rcases hcases hrow with ⟨rfl, rfl⟩ | hold
    · rcases hcases hrow' with ⟨rfl, -⟩ | hold'
      · rfl
      · exact absurd hsame.symm (hfresh k' row' hold')
    · rcases hcases hrow' with ⟨rfl, rfl⟩ | hold'
      · exact absurd hsame (hfresh k row hold)
      · exact h.unique k k' row row' hold hold' hsame
  · intro k row hrow
    rcases hcases hrow with ⟨-, rfl⟩ | hold
    · exact ⟨hmax, le_rfl⟩
    · exact h.charge k row hold
  · intro k row hrow hstatus
    rcases hcases hrow with ⟨-, rfl⟩ | hold
    · cases hstatus
    · exact h.retained k row hold hstatus
  · intro k row hrow hmarker
    rcases hcases hrow with ⟨-, rfl⟩ | hold
    · exact absurd rfl hmarker
    · exact h.dispatched k row hold hmarker
  · intro event hevent
    obtain ⟨htype, hrequest, hcost, htokens, k, row, hrow, hid⟩ := h.events event hevent
    refine ⟨htype, hrequest, hcost, htokens, k, row, ?_, hid⟩
    refine (OrdMap.get?_set_ne _ _ ?_).trans hrow
    rintro rfl
    cases hnone.symm.trans hrow
  · exact h.once
  · intro m hm policy hpolicy hactive limit hlimit at_
    have hexposure : m.exposure { db with
          reservations := db.reservations.set scope.reservationKey (newRow scope quote reservedAt) }
          policy (usageBudgetPeriodBounds policy.period at_) =
        m.exposure db policy (usageBudgetPeriodBounds policy.period at_) +
          m.weight db policy (usageBudgetPeriodBounds policy.period at_).end_
            (newRow scope quote reservedAt) := by
      unfold Measure.exposure Measure.outstanding
      rw [OrdMap.sum_set, hnone, sub_zero, add_assoc]
      rfl
    rw [hexposure]
    unfold Measure.weight
    split
    · rename_i hcounted
      obtain ⟨⟨-, -, hcovers⟩, hlater⟩ := hcounted
      have happlies := applies_of_covers hactive hcovers
      rw [held_active hm rfl]
      exact h.exposure_reserved hpolicy happlies hnone (hcheck policy hpolicy happlies) hclear hlater
        hm hlimit
    · rw [add_zero]
      exact h.capped m hm policy hpolicy hactive limit hlimit at_

/-! ### Runs -/

theorem run_watch (ops : List Op) : ∀ w : Watched, (run watch w ops).db = run step w.db ops := by
  induction ops with
  | nil => exact fun _ => rfl
  | cons op ops ih => exact fun w => ih (watch w op)

theorem along_watch {ops : List Op} : ∀ {w : Watched}, Along step Clear w.db ops →
    Along watch (fun w => Clear w.db) w ops := by
  induction ops with
  | nil => exact fun _ => trivial
  | cons op ops ih => exact fun h => ⟨h.1, ih h.2⟩

theorem tracked_boot {policies : List PolicyRow} {attempts : OrdMap String AttemptRow}
    (hlimits : ∀ m, m = usd ∨ m = tokens → ∀ policy ∈ policies, ∀ limit ∈ m.limit policy, 0 ≤ limit) :
    Tracked (boot policies attempts) := by
  refine ⟨(fun k k' row row' hrow => nomatch hrow), (fun k row hrow => nomatch hrow),
    (fun k row hrow => nomatch hrow), (fun k row hrow => nomatch hrow),
    (fun event hevent => nomatch hevent), List.nodup_nil, ?_⟩
  intro m hm policy hpolicy hactive limit hlimit at_
  have hzero : m.exposure (boot policies attempts) policy
      (usageBudgetPeriodBounds policy.period at_) = 0 := by
    show ((0 : ℚ) + 0) = 0
    exact add_zero 0
  rw [hzero]
  exact hlimits m hm policy hpolicy limit hlimit

theorem quoted_boot {policies : List PolicyRow} {attempts : OrdMap String AttemptRow} :
    Quoted ⟨boot policies attempts, .empty⟩ := by
  intro key row hrow
  cases hrow

/-- A write to one row that exists. -/
theorem Tracked.set {key : String} (h : Tracked db) (hrow : db.reservations.get? key = some row)
    (hmoved : Moved row row') :
    Tracked { db with reservations := db.reservations.set key row' } := by
  refine h.moved rfl rfl ?_ fun k old new hold hnew => ?_
  · rw [OrdMap.keys_set, if_pos (OrdMap.mem_keys.mpr ⟨row, hrow⟩)]
  · rw [OrdMap.get?_set] at hnew
    split at hnew
    · rename_i hk
      subst hk
      cases hrow.symm.trans hold
      cases hnew
      exact hmoved
    · cases hold.symm.trans hnew
      exact .same

theorem Tracked.step {w : Watched} {op : Op} (h : Tracked w.db) (hquoted : Quoted w)
    (hadmissible : Admissible w op) (hclear : Clear w.db op) : Tracked (step w.db op) := by
  rcases op with ⟨scope, quote, reservedAt⟩ | ⟨key, now⟩ | ⟨key, outcome⟩ | _ | event | attempts
  · refine commit_induct h fun db' hok => ?_
    obtain ⟨⟨hold, db''⟩, hreserve, rfl⟩ := map_eq_ok.mp hok
    rcases reserve_ok hreserve with rfl | ⟨-, hnone, ⟨policies, hall, hcheck⟩, hinsert⟩
    · exact h
    · obtain ⟨hfresh, hmax, rfl⟩ := insertReservation_ok hinsert
      refine h.reserve hnone (fun k row hrow => hfresh row (OrdMap.mem_values.mpr ⟨k, hrow⟩)) hmax
        (fun policy hpolicy happlies => ?_) hclear
      exact checkPolicies_ok hcheck policy ((hall policy).mpr ⟨hpolicy, happlies⟩)
  · refine commit_induct h fun db' hok => ?_
    obtain ⟨row, hrow, hactive, rfl⟩ := markDispatching_ok hok
    exact h.set hrow (.marked now hactive)
  · refine commit_induct h fun db' hok => ?_
    rcases resolve_ok hok with rfl | ⟨row, hrow, hactive, hcharge, rfl⟩
    · exact h
    · refine h.set hrow (.resolved outcome hactive hcharge ?_ ?_)
      · rintro usage rfl
        exact hadmissible row hrow hactive _ (hquoted key row hrow)
      · rintro rfl
        exact hclear row hrow hactive
  · refine commit_induct h fun db' hok => ?_
    obtain ⟨hcharge, rfl⟩ := reconcile_ok hok
    refine h.moved rfl rfl (OrdMap.keys_mapValues _ _) fun k row row' hrow hrow' => ?_
    have hnonneg := hcharge k row' hrow'
    rw [OrdMap.get?_mapValues, hrow] at hrow'
    cases hrow'
    rcases reconcileRow_cases w.db.attempts row with hsame | ⟨hactive, attempt, hattempt, hresolved⟩
    · rw [hsame]
      exact .same
    · rw [hresolved] at hnonneg ⊢
      refine .resolved _ hactive hnonneg (fun usage hsettled => ?_) reconciled_released
      unfold reconciled at hsettled
      split at hsettled
      · rename_i hexact
        cases hsettled
        exact hadmissible (k, row) (OrdMap.mem_entries.mpr hrow) hactive attempt hattempt hexact _
          (hquoted k row hrow)
      · split at hsettled <;> exact nomatch hsettled
  · obtain ⟨htype, hrequest, hnew, ⟨key, row⟩, hentry, quote, hquote, hrecords⟩ := hadmissible
    have hrow : w.db.reservations.get? key = some row := OrdMap.mem_entries.mp hentry
    cases (hquoted key row hrow).symm.trans hquote
    exact h.observe hrow hrecords htype hrequest hnew
  · exact h.moved rfl rfl rfl fun k row row' hrow hrow' => by
      cases hrow.symm.trans hrow'
      exact .same

/-- A write to the rows that keeps their quotes. -/
theorem Quoted.kept {w : Watched} {db' : InferenceDb} (h : Quoted w)
    (hrows : ∀ key row, db'.reservations.get? key = some row →
      ∃ old, w.db.reservations.get? key = some old ∧ quoteOf row = quoteOf old) :
    Quoted ⟨db', w.quotes⟩ := by
  intro key row hrow
  obtain ⟨old, hold, hsame⟩ := hrows key row hrow
  rw [hsame]
  exact h key old hold

theorem Quoted.set {w : Watched} {key : String} (h : Quoted w)
    (hrow : w.db.reservations.get? key = some row) (hsame : quoteOf row' = quoteOf row) :
    Quoted ⟨{ w.db with reservations := w.db.reservations.set key row' }, w.quotes⟩ := by
  refine h.kept fun k new hnew => ?_
  rw [OrdMap.get?_set] at hnew
  split at hnew
  · rename_i hk
    subst hk
    cases hnew
    exact ⟨row, hrow, hsame⟩
  · exact ⟨new, hnew, rfl⟩

/-- A reservation is inserted with the quote that was admitted. -/
theorem Quoted.reserve {w : Watched} (h : Quoted w) (scope : ConversationInferenceScope)
    (quote : ConversationInferenceQuote) (reservedAt : ℤ) :
    Quoted (watch w (.reserve scope quote reservedAt)) := by
  show Quoted ⟨commit w.db (Prod.snd <$> InferenceBudget.reserve w.db scope quote reservedAt), ite _ _ _⟩
  rcases hreserve : InferenceBudget.reserve w.db scope quote reservedAt with error | ⟨hold, db'⟩
  · rw [if_neg fun hgranted => nomatch hgranted.2]
    exact h
  rcases reserve_ok hreserve with rfl | ⟨rfl, hnone, -, hinsert⟩
  · intro key row hrow
    have hrow : w.db.reservations.get? key = some row := hrow
    split
    · rename_i hfree
      rw [OrdMap.get?_set_ne _ _ (by rintro rfl; cases hfree.1.symm.trans hrow)]
      exact h key row hrow
    · exact h key row hrow
  · obtain ⟨-, -, rfl⟩ := insertReservation_ok hinsert
    rw [if_pos ⟨hnone, rfl⟩]
    intro key row hrow
    have hrow : (w.db.reservations.set scope.reservationKey (newRow scope quote reservedAt)).get? key =
        some row := hrow
    show (w.quotes.set scope.reservationKey quote).get? key = _
    rw [OrdMap.get?_set] at hrow ⊢
    split at hrow
    · rename_i hk
      cases hrow
      rw [if_pos hk]
      rfl
    · rename_i hk
      rw [if_neg hk]
      exact h key row hrow

/-- **Every reservation keeps** the quote that was admitted for it. -/
theorem Quoted.step {w : Watched} (h : Quoted w) (op : Op) : Quoted (watch w op) := by
  rcases op with ⟨scope, quote, reservedAt⟩ | ⟨key, now⟩ | ⟨key, outcome⟩ | _ | event | attempts
  · exact h.reserve scope quote reservedAt
  · refine commit_induct (P := fun db' => Quoted ⟨db', w.quotes⟩) h fun db' hok => ?_
    obtain ⟨row, hrow, -, rfl⟩ := markDispatching_ok hok
    exact h.set hrow rfl
  · refine commit_induct (P := fun db' => Quoted ⟨db', w.quotes⟩) h fun db' hok => ?_
    rcases resolve_ok hok with rfl | ⟨row, hrow, -, -, rfl⟩
    · exact h
    · exact h.set hrow rfl
  · refine commit_induct (P := fun db' => Quoted ⟨db', w.quotes⟩) h fun db' hok => ?_
    obtain ⟨-, rfl⟩ := reconcile_ok hok
    refine h.kept fun key row hrow => ?_
    rw [OrdMap.get?_mapValues] at hrow
    obtain ⟨old, hold, rfl⟩ := Option.map_eq_some_iff.mp hrow
    refine ⟨old, hold, ?_⟩
    rcases reconcileRow_cases w.db.attempts old with hsame | ⟨-, attempt, -, hresolved⟩
    · rw [hsame]
    · rw [hresolved]
      rfl
  · exact h
  · exact h

end

/-- **The spend cap** holds in every state of a run in which no policy is asked for a request while
one of an earlier period is outstanding. -/
theorem conversation_spend_capped (policies : List PolicyRow) (attempts : OrdMap String AttemptRow)
    (hlimits : ∀ m, m = usd ∨ m = tokens → ∀ policy ∈ policies, ∀ limit ∈ m.limit policy, 0 ≤ limit)
    (ops : List Op) (hadmissible : Along watch Admissible ⟨boot policies attempts, .empty⟩ ops)
    (hclear : Along step Clear (boot policies attempts) ops) :
    ∀ pre, pre <+: ops → Capped (run step (boot policies attempts) pre) := by
  rintro pre ⟨post, rfl⟩
  have htracked : Tracked (run watch ⟨boot policies attempts, .empty⟩ pre).db ∧
      Quoted (run watch ⟨boot policies attempts, .empty⟩ pre) := by
    refine run_induct (I := fun w => Tracked w.db ∧ Quoted w)
      (fun w op h hguard => ⟨h.1.step h.2 hguard.1 hguard.2, h.2.step op⟩)
      ⟨tracked_boot hlimits, quoted_boot⟩
      (along_and.mpr ⟨ along_prefix hadmissible, along_watch ( along_prefix hclear)⟩)
  rw [run_watch] at htracked
  exact htracked.1.capped

/-- A dollar a day. -/
def dollarADay : PolicyRow where
  id := "daily"
  scope_type := .global
  period := .daily
  limit_usd := some 1

def requestScope (key : String) : ConversationInferenceScope where
  reservationKey := key
  usageRequestId := key
  projectId := "p"
  workItemId := "w"
  conversationId := "c"
  initiatedByUserId := "u"
  provider := "anthropic"
  model := "m"

def turnAttempts : OrdMap String AttemptRow :=
  OrdMap.ofList [("r1", { usage_request_id := "r1" }), ("r2", { usage_request_id := "r2" })]

def usageOf (key : String) (occurredAt : ℤ) (cost : ℚ) : UsageEventRow where
  id := key
  request_id := key
  sequence := 1
  event_type := .usage_observed
  request_type := "conversation_turn"
  occurred_at := occurredAt
  recorded_at := occurredAt
  project_id := some "p"
  initiated_by_user_id := some "u"
  provider := "anthropic"
  model := "m"
  input_tokens := 100
  output_tokens := 20
  cost_usd := some cost

/-- Two requests of half a dollar on one day, one of them recorded and settled. -/
def oneDay : List Op :=
  [.reserve (requestScope "r1") ⟨1000, 500, 1 / 2⟩ 1000, .markDispatching "r1" 1001,
    .observe (usageOf "r1" 2000 (2 / 5)),
    .resolve "r1" (.settled ⟨some (2 / 5), 0, 100, 20⟩),
    .reserve (requestScope "r2") ⟨1000, 500, 1 / 2⟩ 3000]

theorem conversation_spend_capped_one_day :
    Capped (run step (boot [dollarADay] turnAttempts) oneDay) := by
  refine conversation_spend_capped [dollarADay] turnAttempts ?_ oneDay ?_ ?_ oneDay List.prefix_rfl
  · rintro m (rfl | rfl) policy hpolicy limit hlimit
    · cases List.mem_singleton.mp hpolicy
      cases hlimit
      decide
    · cases List.mem_singleton.mp hpolicy
      exact nomatch hlimit
  · decide +kernel
  · decide +kernel

/-- A request is reserved a millisecond before midnight and reports after it; the hold is not counted
on the new day, so a second request is admitted there. -/
def acrossMidnight : List Op :=
  [.reserve (requestScope "r1") ⟨1000, 500, 1⟩ 86399999, .markDispatching "r1" 86399999,
    .reserve (requestScope "r2") ⟨1000, 500, 1⟩ 86400000,
    .observe (usageOf "r1" 86400001 1)]

theorem hold_missed_after_midnight :
    Along watch Admissible ⟨boot [dollarADay] turnAttempts, .empty⟩ acrossMidnight ∧
      ¬ Capped (run step (boot [dollarADay] turnAttempts) acrossMidnight) := by
  refine ⟨by decide +kernel, fun hcapped => ?_⟩
  have hover : ¬ usd.exposure (run step (boot [dollarADay] turnAttempts) acrossMidnight) dollarADay
      (usageBudgetPeriodBounds .daily 86400000) ≤ 1 := by decide +kernel
  exact hover (hcapped usd (.inl rfl) dollarADay (by decide +kernel) rfl 1 rfl 86400000)

end Norns.Conversations.SpendCap
