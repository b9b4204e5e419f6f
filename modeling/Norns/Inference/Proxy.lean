import Norns.Engine.Budget
import Norns.Inference.Pricing
import Norns.Lib.Edit
import Norns.Lib.Transaction

/-! # The inference proxy

`InferenceProxy.handle` of `runners/inferenceProxy.ts`, with both implementations of its budget. A port
returns or throws; the meter may do either at each of its calls. The hold of a call is resolved by
`settle` or `release`; `effects` lists the resolutions that took effect.

* `screen`: the checks before the money;
* `Held`: a hold of either budget, `settleHold` and `releaseHold`;
* `perform`: the call, and what its `catch` does;
* `perform_resolves`: every hold is resolved once, and by the reported usage where there is one;
* `handle_answers_iff`: when the caller gets an answer. -/

namespace Norns.Inference.Proxy

open Norns.Lib Norns.Lib.Edit Norns.Lib.Transaction Norns.Engine.Budget

/-! ### Requests and answers -/

inductive InferenceErrorCode
  | unauthorized | run_not_active | budget_exhausted | model_unavailable | invalid_request
  | rate_limited | provider_error | unsupported
  deriving DecidableEq, Repr

def InferenceErrorCode.text : InferenceErrorCode → String
  | .unauthorized => "unauthorized"
  | .run_not_active => "run_not_active"
  | .budget_exhausted => "budget_exhausted"
  | .model_unavailable => "model_unavailable"
  | .invalid_request => "invalid_request"
  | .rate_limited => "rate_limited"
  | .provider_error => "provider_error"
  | .unsupported => "unsupported"

structure RunnerInferenceRequest where
  request_id : String
  run_id : String
  task_id : String
  provider : String
  model : String
  system : Option String := none
  prompt : String
  max_tokens : ℕ
  deriving DecidableEq

inductive RunnerInferenceResponse
  | ok (request_id provider model text : String) (input_tokens output_tokens : ℕ)
      (finish_reason : Option String)
  | error (request_id : String) (code : InferenceErrorCode) (message : String)
  deriving DecidableEq

structure ProxiedRunFacts where
  run_id : String
  project_id : String
  phase_id : String
  task_id : String
  initiated_by_user_id : Option String := none
  runner_id : String
  runner_generation : ℕ
  active : Bool
  deriving DecidableEq

structure UsageEvent where
  provider : String
  model : String
  input_tokens : ℕ
  output_tokens : ℕ
  estimated_cost_usd : ℚ
  actual_cost_usd : Option ℚ
  deriving DecidableEq

/-- `usage.actual_cost_usd ?? usage.estimated_cost_usd` -/
def UsageEvent.cost (usage : UsageEvent) : ℚ := usage.actual_cost_usd.getD usage.estimated_cost_usd

inductive AdapterErrorKind
  | rate_limit | auth | insufficient_funds | invalid_request | overloaded | server | network
  | cancelled | invalid_response
  deriving DecidableEq, Repr

def AdapterErrorKind.text : AdapterErrorKind → String
  | .rate_limit => "rate_limit"
  | .auth => "auth"
  | .insufficient_funds => "insufficient_funds"
  | .invalid_request => "invalid_request"
  | .overloaded => "overloaded"
  | .server => "server"
  | .network => "network"
  | .cancelled => "cancelled"
  | .invalid_response => "invalid_response"

/-- What is thrown: an `AdapterError`, with the usage that its metadata may carry, or anything else. -/
inductive Thrown
  | adapter (kind : AdapterErrorKind) (usage : Option UsageEvent)
  | other
  deriving DecidableEq

structure CompletionResult where
  text : String
  usage : UsageEvent
  finish_reason : Option String := none
  deriving DecidableEq

/-! ### Budgets -/

/-- What the transaction of `SqlRunReservationBudget.reserve` reads. -/
structure Approved where
  amountUsd : ℚ
  settledUsd : ℚ
  deriving DecidableEq

inductive Budget
  /-- `SqlRunReservationBudget`: the answer of its transaction and the holds in memory. -/
  | sql (approved : Except Thrown (Option Approved)) (held : OrdMap String ℚ)
  /-- `BudgetLedgerInferenceBudget` -/
  | ledger (ledger : BudgetLedger)

/-- A budget with the hold of one call. -/
inductive Held
  | sql (held : OrdMap String ℚ) (run_id : String) (maxChargeUsd : ℚ) (resolved : Bool)
  | ledger (ledger : BudgetLedger) (nodeId reservationId : String)

def Budget.reserve (budget : Budget) (run : ProxiedRunFacts) (maxChargeUsd : ℚ) :
    Except Thrown (Option Held) :=
  match budget with
  | .sql (.error error) _ => .error error
  | .sql (.ok none) _ => .ok none
  | .sql (.ok (some approved)) held =>
    let inFlight := (held.get? run.run_id).getD 0
    let remaining := approved.amountUsd - approved.settledUsd - inFlight
    if remaining < maxChargeUsd then .ok none
    else .ok (some (.sql (held.set run.run_id (inFlight + maxChargeUsd)) run.run_id maxChargeUsd false))
  | .ledger l =>
    match l.reserve run.task_id maxChargeUsd with
    -- exhausted and unknown are the same answer
    | .error _ => .ok none
    | .ok (reservationId, l') => .ok (some (.ledger l' run.task_id reservationId))

/-- What took effect on a hold. -/
inductive Resolution
  | settled (actualUsd : ℚ)
  | released
  deriving DecidableEq

/-- A call with a hold: the budget, what took effect, and what the meter was asked to record. -/
structure Call where
  held : Held
  effects : List Resolution := []
  recorded : List UsageEvent := []

/-- `drop`: the amount leaves the map of holds, once. -/
def dropHold (held : OrdMap String ℚ) (run_id : String) (maxChargeUsd : ℚ) : OrdMap String ℚ :=
  let current := (held.get? run_id).getD 0 - maxChargeUsd
  if 1 / 1000000000 < current then held.set run_id current else held.delete run_id

/-- A step of a call that may throw; what was done before stays. -/
abbrev Step (α : Type) := EStateM Thrown Call α

def settleHold (actualUsd : ℚ) : Step Unit := do
  let call ← get
  match call.held with
  | .sql held run_id maxChargeUsd resolved =>
    if resolved = true then return ()
    set { call with
      held := .sql (dropHold held run_id maxChargeUsd) run_id maxChargeUsd true
      effects := call.effects ++ [Resolution.settled actualUsd] }
  | .ledger ledger nodeId reservationId =>
    match ledger.settle nodeId reservationId actualUsd with
    | .error _ => throw .other
    | .ok ledger' => set { call with
        held := .ledger ledger' nodeId reservationId
        effects := call.effects ++ [Resolution.settled actualUsd] }

/-- The reservation of the ledger is still there. -/
def reserved (ledger : BudgetLedger) (nodeId reservationId : String) : Prop :=
  ∃ node ∈ ledger.nodes.get? nodeId, (node.reservations.get? reservationId).isSome = true

instance (ledger : BudgetLedger) (nodeId reservationId : String) :
    Decidable (reserved ledger nodeId reservationId) :=
  inferInstanceAs (Decidable (∃ node ∈ ledger.nodes.get? nodeId, _))

def releaseHold : Step Unit := do
  let call ← get
  match call.held with
  | .sql held run_id maxChargeUsd resolved =>
    if resolved = true then return ()
    set { call with
      held := .sql (dropHold held run_id maxChargeUsd) run_id maxChargeUsd true
      effects := call.effects ++ [Resolution.released] }
  | .ledger ledger nodeId reservationId =>
    match ledger.release nodeId reservationId with
    | .error _ => throw .other
    | .ok ledger' => set { call with
        held := .ledger ledger' nodeId reservationId
        -- a reservation that is gone is not deleted again
        effects := if reserved ledger nodeId reservationId then call.effects ++ [Resolution.released]
          else call.effects }

/-! ### The proxy -/

def MAX_INFERENCE_PROMPT_CHARS : ℕ := 600000

/-- The outcome of `record` at its `n`-th call. -/
abbrev Meter := ℕ → UsageEvent → Except Thrown Unit

structure InferenceProxyOptions where
  lookup : Except Thrown (Option ProxiedRunFacts)
  /-- The factory, and what the adapter's call comes to. -/
  createAdapter : Except Thrown (Option (Except Thrown CompletionResult))
  budget : Option Budget
  meter : Option Meter
  allowedModels : List String
  registry : String → Option ModelEntry
  /-- How a number is printed. -/
  usd : ℚ → String

/-- A line of the audit: who, what, in which detail. -/
structure AuditLine where
  actor : String
  action : String
  detail : String
  deriving DecidableEq

structure Outcome where
  response : Except Thrown RunnerInferenceResponse
  /-- The call, if its budget gave a hold. -/
  call : Option Call := none
  audits : List AuditLine := []

inductive Access
  | ok | unauthorized | run_not_active
  deriving DecidableEq, Repr

def authorizeProxiedRunAccess (run : ProxiedRunFacts) (requestedRunId authenticatedRunner : String)
    (currentGeneration : ℕ) : Access :=
  if run.runner_id ≠ authenticatedRunner ∨ run.runner_generation ≠ currentGeneration ∨
      run.run_id ≠ requestedRunId then .unauthorized
  else if run.active = false then .run_not_active
  else .ok

def codeForAdapterKind : AdapterErrorKind → InferenceErrorCode
  | .rate_limit => .rate_limited
  | .invalid_request => .invalid_request
  | _ => .provider_error

abbrev Refusal := InferenceErrorCode × String

/-- The checks from the generation to the price. -/
def screen (options : InferenceProxyOptions) (request : RunnerInferenceRequest)
    (authenticated : String) (frameGeneration currentGeneration : ℕ) :
    Except Refusal (ProxiedRunFacts × ℚ) := do
  refuse (frameGeneration ≠ currentGeneration) (.unauthorized, "not authorized for this run")
  match options.lookup with
  | .error _ => throw (.provider_error, "run lookup failed")
  | .ok none => throw (.unauthorized, "not authorized for this run")
  | .ok (some run) =>
    let access := authorizeProxiedRunAccess run request.run_id authenticated currentGeneration
    refuse (access = .unauthorized) (.unauthorized, "not authorized for this run")
    refuse (run.task_id ≠ request.task_id) (.invalid_request, "task does not belong to this run")
    refuse (access = .run_not_active) (.run_not_active, "run is not in a state that may spend")
    refuse (MAX_INFERENCE_PROMPT_CHARS <
        codeUnits request.prompt + (request.system.map codeUnits).getD 0)
      (.invalid_request, "prompt exceeds the proxy's size limit")
    refuse (request.provider ++ "/" ++ request.model ∉ options.allowedModels ∨
        (options.registry request.model).map ModelEntry.provider ≠ some request.provider)
      (.model_unavailable, "model is not available to runners")
    match snapshotModelPricing options.registry request.provider request.model with
    | none => throw (.model_unavailable, "model has no usable pricing")
    | some pricing =>
      return (run, conservativeMaxChargeUsd pricing
        (estimateInferenceInputTokens request.system request.prompt) request.max_tokens)

/-- `this.settle`: the hold, then the meter. -/
def settle (options : InferenceProxyOptions) (usage : UsageEvent) : Step Unit := do
  settleHold usage.cost
  match options.meter with
  | none => return ()
  | some record => do
    let n := (← get).recorded.length
    modify fun call => { call with recorded := call.recorded ++ [usage] }
    match record n usage with
    | .error error => throw error
    | .ok _ => return ()

/-- The body of the `try`; the result is answered with. -/
def attempt (options : InferenceProxyOptions) (adapter : Except Thrown CompletionResult) :
    Step CompletionResult := do
  match adapter with
  | .error error => throw error
  | .ok result => do
    settle options result.usage
    return result

/-- The `catch`; the refusal is answered with. -/
def recover (options : InferenceProxyOptions) : Thrown → Step Refusal
  | .adapter kind usage => do
    match usage with
    | some usage => settle options usage
    | none => releaseHold
    return (codeForAdapterKind kind, "provider call failed (" ++ kind.text ++ ")")
  | .other => do
    releaseHold
    return (.provider_error, "provider call failed")

/-- The call of the provider. -/
def perform (options : InferenceProxyOptions) (adapter : Except Thrown CompletionResult) :
    Step (Refusal ⊕ CompletionResult) :=
  fun call => match attempt options adapter call with
    | .ok result call => .ok (.inr result) call
    | .error error call => match recover options error call with
      | .ok refusal call => .ok (.inl refusal) call
      | .error error call => .error error call

/-- The refusal, and its line in the audit. -/
def refused (request : RunnerInferenceRequest) (authenticated : String) (refusal : Refusal)
    (audits : List AuditLine := []) : Outcome where
  response := .ok (.error request.request_id refusal.1 refusal.2)
  audits := audits ++ [⟨"runner:" ++ authenticated, "runner.inference_refused",
    refusal.1.text ++ " run=" ++ request.run_id⟩]

/-- The answer of a call that had a hold. -/
def conclude (options : InferenceProxyOptions) (request : RunnerInferenceRequest)
    (authenticated : String) (run : ProxiedRunFacts) :
    EStateM.Result Thrown Call (Refusal ⊕ CompletionResult) → Outcome
  | .error error call => { response := .error error, call := some call }
  | .ok (.inl refusal) call => { refused request authenticated refusal with call := some call }
  | .ok (.inr result) call => {
      response := .ok (.ok request.request_id request.provider request.model result.text
        result.usage.input_tokens result.usage.output_tokens result.finish_reason)
      call := some call
      audits := [⟨"runner:" ++ authenticated, "runner.inference_completed",
        request.provider ++ "/" ++ request.model ++ " run=" ++ run.run_id ++ " in=" ++
          toString result.usage.input_tokens ++ " out=" ++ toString result.usage.output_tokens ++
          " usd=" ++ options.usd result.usage.estimated_cost_usd⟩] }

def handle (options : InferenceProxyOptions) (request : RunnerInferenceRequest)
    (authenticated : String) (frameGeneration currentGeneration : ℕ) : Outcome :=
  match screen options request authenticated frameGeneration currentGeneration with
  | .error refusal => refused request authenticated refusal
  | .ok (run, maxChargeUsd) =>
    match options.createAdapter with
    -- the factory is called outside of any `try`
    | .error error => { response := .error error }
    | .ok none =>
      refused request authenticated (.model_unavailable, "model is not available to runners")
    | .ok (some adapter) =>
      match options.budget with
      | none =>
        refused request authenticated (.budget_exhausted, "no budget enforcement is configured")
      | some budget =>
        match budget.reserve run maxChargeUsd with
        | .error _ => refused request authenticated
            (.budget_exhausted, "the run's budget could not be verified")
        | .ok none => refused request authenticated
            (.budget_exhausted, "the run's budget cannot cover this call")
            [⟨"runner:" ++ authenticated, "runner.inference_budget_exhausted",
              "run=" ++ run.run_id ++ " needed=" ++ options.usd maxChargeUsd⟩]
        | .ok (some held) =>
          conclude options request authenticated run (perform options adapter { held })

/-! ### Holds -/

/-- The hold is not resolved. -/
def Held.Fresh : Held → Prop
  | .sql _ _ _ resolved => resolved = false
  | .ledger l nodeId reservationId => reserved l nodeId reservationId

/-- The hold is resolved. -/
def Held.Spent : Held → Prop
  | .sql _ _ _ resolved => resolved = true
  | .ledger l nodeId reservationId =>
    (l.nodes.get? nodeId).isSome = true ∧ ¬ reserved l nodeId reservationId

/-- The second resolution of a hold is ignored; that of the ledger throws. -/
def Held.ignores : Held → Bool
  | .sql _ _ _ _ => true
  | .ledger _ _ _ => false

/-- What the adapter says of its usage. -/
def reportedUsage : Except Thrown CompletionResult → Option UsageEvent
  | .ok result => some result.usage
  | .error (.adapter _ usage) => usage
  | .error .other => none

/-- How a hold is to be resolved. -/
def resolution (adapter : Except Thrown CompletionResult) : Resolution :=
  match reportedUsage adapter with
  | some usage => .settled usage.cost
  | none => .released

section

variable {options : InferenceProxyOptions} {call call' : Call} {held : Held} {run : ProxiedRunFacts}
  {budget : Budget} {maxChargeUsd : ℚ} {adapter : Except Thrown CompletionResult}

theorem reserve_fresh (h : budget.reserve run maxChargeUsd = .ok (some held)) : held.Fresh := by
  rcases budget with ⟨error | approved, holds⟩ | l
  · cases h
  · rcases approved with _ | approved
    · cases h
    · unfold Budget.reserve at h
      dsimp only at h
      split at h
      · cases h
      · cases h
        rfl
  · unfold Budget.reserve at h
    dsimp only at h
    split at h
    · cases h
    · rename_i id l' hreserve
      cases h
      obtain ⟨node, -, -, -, -, -, -, hnodes⟩ := BudgetLedger.reserve_ok hreserve
      refine ⟨{ node with reservations := node.reservations.set id maxChargeUsd }, ?_, ?_⟩
      · rw [hnodes]
        exact OrdMap.get?_set_self _ _ _
      · rw [OrdMap.get?_set_self]
        rfl

/-- The first settlement takes effect. -/
theorem settleHold_fresh (h : call.held.Fresh) (actualUsd : ℚ) :
    ∃ held', held'.Spent ∧ held'.ignores = call.held.ignores ∧ settleHold actualUsd call =
      .ok () { call with held := held', effects := call.effects ++ [.settled actualUsd] } := by
  rcases call with ⟨⟨holds, run_id, maxChargeUsd, resolved⟩ | ⟨l, nodeId, reservationId⟩, effects,
    recorded⟩
  · cases (show resolved = false from h)
    exact ⟨.sql (dropHold holds run_id maxChargeUsd) run_id maxChargeUsd true, rfl, rfl, rfl⟩
  · obtain ⟨node, hnode, hsome⟩ := h
    obtain ⟨amount, hamount⟩ := Option.isSome_iff_exists.mp hsome
    obtain ⟨l', hsettle⟩ := BudgetLedger.settle_of_held hnode hamount actualUsd
    refine ⟨.ledger l' nodeId reservationId, ?_, rfl, ?_⟩
    · obtain ⟨node', amount', hnode', -, rfl⟩ := BudgetLedger.settle_ok hsettle
      refine ⟨?_, ?_⟩
      · dsimp only
        rw [OrdMap.get?_set_self]
        rfl
      · rintro ⟨other, hother, hreserved⟩
        dsimp only at hother
        rw [OrdMap.get?_set_self] at hother
        cases hother
        rw [OrdMap.get?_delete_self] at hreserved
        cases hreserved
    · unfold settleHold
      rw [get_bind]
      dsimp only
      rw [hsettle]
      rfl

theorem release_of_node {l : BudgetLedger} {nodeId : String} (reservationId : String)
    (h : (l.nodes.get? nodeId).isSome = true) :
    ∃ l', l.release nodeId reservationId = .ok l' ∧ (l'.nodes.get? nodeId).isSome = true ∧
      ¬ reserved l' nodeId reservationId := by
  obtain ⟨node, hnode⟩ := Option.isSome_iff_exists.mp h
  have hrelease : l.release nodeId reservationId = .ok { l with
      nodes := l.nodes.set nodeId { node with
        reservations := node.reservations.delete reservationId } } := by
    unfold BudgetLedger.release BudgetLedger.require
    rw [hnode]
    rfl
  refine ⟨_, hrelease, ?_, ?_⟩
  · dsimp only
    rw [OrdMap.get?_set_self]
    rfl
  · rintro ⟨other, hother, hreserved⟩
    dsimp only at hother
    rw [OrdMap.get?_set_self] at hother
    cases hother
    rw [OrdMap.get?_delete_self] at hreserved
    cases hreserved

/-- The first release takes effect. -/
theorem releaseHold_fresh (h : call.held.Fresh) :
    ∃ held', held'.Spent ∧ releaseHold call =
      .ok () { call with held := held', effects := call.effects ++ [.released] } := by
  rcases call with ⟨⟨holds, run_id, maxChargeUsd, resolved⟩ | ⟨l, nodeId, reservationId⟩, effects,
    recorded⟩
  · cases (show resolved = false from h)
    exact ⟨.sql (dropHold holds run_id maxChargeUsd) run_id maxChargeUsd true, rfl, rfl⟩
  · have hreserved : reserved l nodeId reservationId := h
    obtain ⟨node, hnode, -⟩ := h
    obtain ⟨l', hrelease, hspent⟩ := release_of_node reservationId (Option.isSome_of_mem hnode)
    refine ⟨.ledger l' nodeId reservationId, hspent, ?_⟩
    unfold releaseHold
    rw [get_bind]
    dsimp only
    rw [hrelease]
    dsimp only
    rw [if_pos hreserved]
    rfl

/-- A second release has no effect. -/
theorem releaseHold_spent (h : call.held.Spent) :
    ∃ held', releaseHold call = .ok () { call with held := held' } := by
  rcases call with ⟨⟨holds, run_id, maxChargeUsd, resolved⟩ | ⟨l, nodeId, reservationId⟩, effects,
    recorded⟩
  · cases (show resolved = true from h)
    exact ⟨_, rfl⟩
  · obtain ⟨hnode, hgone⟩ := h
    obtain ⟨l', hrelease, -⟩ := release_of_node reservationId hnode
    refine ⟨.ledger l' nodeId reservationId, ?_⟩
    unfold releaseHold
    rw [get_bind]
    dsimp only
    rw [hrelease]
    dsimp only
    rw [if_neg hgone]
    rfl

/-- A second settlement has no effect; the ledger throws. -/
theorem settleHold_spent (h : call.held.Spent) (actualUsd : ℚ) : settleHold actualUsd call =
    if call.held.ignores = true then .ok () call else .error .other call := by
  rcases call with ⟨⟨holds, run_id, maxChargeUsd, resolved⟩ | ⟨l, nodeId, reservationId⟩, effects,
    recorded⟩
  · cases (show resolved = true from h)
    rfl
  · obtain ⟨hnode, hgone⟩ := h
    obtain ⟨node, hnode⟩ := Option.isSome_iff_exists.mp hnode
    have hnone : node.reservations.get? reservationId = none := by
      rw [← Option.not_isSome_iff_eq_none]
      exact fun hsome => hgone ⟨node, hnode, hsome⟩
    have hsettle : l.settle nodeId reservationId actualUsd =
        .error (.unknownReservation reservationId) := by
      unfold BudgetLedger.settle BudgetLedger.require
      rw [hnode]
      dsimp only [bind, Except.bind]
      rw [hnone]
      rfl
    unfold settleHold
    rw [get_bind]
    dsimp only
    rw [hsettle]
    rfl

/-! ### The call -/

/-- The meter's answer; without a meter nothing is recorded. -/
def InferenceProxyOptions.records (options : InferenceProxyOptions) (n : ℕ) (usage : UsageEvent) :
    Except Thrown Unit :=
  match options.meter with
  | none => .ok ()
  | some record => record n usage

/-- What the meter was asked to record after one more call of it. -/
def InferenceProxyOptions.noted (options : InferenceProxyOptions) (recorded : List UsageEvent)
    (usage : UsageEvent) : List UsageEvent :=
  if options.meter.isSome = true then recorded ++ [usage] else recorded

/-- The call that a step leaves. -/
def after {α : Type} : EStateM.Result Thrown Call α → Call
  | .ok _ call => call
  | .error _ call => call

/-- The step did not throw. -/
def returned {α : Type} : EStateM.Result Thrown Call α → Prop
  | .ok _ _ => True
  | .error _ _ => False

theorem settle_run (usage : UsageEvent) (hsettle : settleHold usage.cost call = .ok () call') :
    settle options usage call = match options.records call'.recorded.length usage with
      | .error error => .error error { call' with recorded := options.noted call'.recorded usage }
      | .ok _ => .ok () { call' with recorded := options.noted call'.recorded usage } := by
  unfold InferenceProxyOptions.records InferenceProxyOptions.noted
  show (settleHold usage.cost >>= _) call = _
  dsimp only [bind, EStateM.bind]
  rw [hsettle]
  cases options.meter with
  | none => rfl
  | some record =>
    dsimp only [get, getThe, MonadStateOf.get, EStateM.get, modify, modifyGet, MonadStateOf.modifyGet,
      EStateM.modifyGet, bind, EStateM.bind]
    cases record call'.recorded.length usage <;> rfl

/-- The settlement of a fresh hold takes effect, whatever the meter does. -/
theorem settle_fresh (options : InferenceProxyOptions) (h : call.held.Fresh) (usage : UsageEvent) :
    ∃ settled : Call, settled.held.Spent ∧ settled.held.ignores = call.held.ignores ∧
      settled.effects = call.effects ++ [.settled usage.cost] ∧
      settled.recorded = options.noted call.recorded usage ∧
      settle options usage call = match options.records call.recorded.length usage with
        | .error error => .error error settled
        | .ok _ => .ok () settled := by
  obtain ⟨held', hspent, hignores, hsettle⟩ := settleHold_fresh h usage.cost
  refine ⟨{ call with
    held := held'
    effects := call.effects ++ [.settled usage.cost]
    recorded := options.noted call.recorded usage }, hspent, hignores, rfl, rfl, ?_⟩
  exact settle_run usage hsettle

/-- A settlement of a spent hold has no effect, whatever the meter does. -/
theorem settle_spent (options : InferenceProxyOptions) (h : call.held.Spent) (usage : UsageEvent) :
    (after (settle options usage call)).effects = call.effects ∧
      (returned (settle options usage call) ↔
        call.held.ignores = true ∧ options.records call.recorded.length usage = .ok ()) := by
  have hsettle := settleHold_spent h usage.cost
  by_cases hignores : call.held.ignores = true
  · rw [if_pos hignores] at hsettle
    rw [settle_run usage hsettle]
    cases hrecords : options.records call.recorded.length usage <;> simp [after, returned, hignores]
  · rw [if_neg hignores] at hsettle
    have hthrow : settle options usage call = .error .other call := by
      show (settleHold usage.cost >>= _) call = _
      dsimp only [bind, EStateM.bind]
      rw [hsettle]
    rw [hthrow]
    simp [after, returned, hignores]

/-- What the `catch` asks of the hold and the meter. -/
def recovers (options : InferenceProxyOptions) (ignores : Bool) (recorded : ℕ) : Thrown → Prop
  | .adapter _ (some usage) => ignores = true ∧ options.records recorded usage = .ok ()
  | _ => True

/-- The `catch` after a settlement. -/
theorem recover_spent (options : InferenceProxyOptions) (h : call.held.Spent) (error : Thrown) :
    (after (recover options error call)).effects = call.effects ∧
      (returned (recover options error call) ↔
        recovers options call.held.ignores call.recorded.length error) := by
  obtain ⟨held', hrelease⟩ := releaseHold_spent h
  have hreleased : ∀ refusal : Refusal,
      (do releaseHold; return refusal : Step Refusal) call =
        .ok refusal { call with held := held' } := by
    intro refusal
    dsimp only [bind, EStateM.bind]
    rw [hrelease]
    rfl
  rcases error with ⟨kind, usage | usage⟩ | -
  · have hrun : recover options (.adapter kind none) call = _ := hreleased _
    rw [hrun]
    simp [after, returned, recovers]
  · obtain ⟨heffects, hreturned⟩ := settle_spent options h usage
    dsimp only [recovers, recover, bind, EStateM.bind, pure, EStateM.pure]
    rw [← hreturned, ← heffects]
    cases settle options usage call <;> simp [after, returned]
  · have hrun : recover options .other call = _ := hreleased _
    rw [hrun]
    simp [after, returned, recovers]

/-- What the call asks of the meter: that it records the usage of a failed call; and that where it
throws an `AdapterError` of its own with a usage, the hold ignores a second settlement and that usage
is recorded. -/
def MeterKeeps (options : InferenceProxyOptions) (ignores : Bool) :
    Except Thrown CompletionResult → Prop
  | .ok result => ∀ error, options.records 0 result.usage = .error error →
      recovers options ignores 1 error
  | .error (.adapter _ (some usage)) => options.records 0 usage = .ok ()
  | .error _ => True

/-- The hold is resolved once, and by the reported usage where there is one. -/
theorem perform_resolves (options : InferenceProxyOptions) (adapter : Except Thrown CompletionResult)
    (h : held.Fresh) :
    (after (perform options adapter { held })).effects = [resolution adapter] ∧
      (returned (perform options adapter { held }) ↔ MeterKeeps options held.ignores adapter) := by
  have hfresh : ({ held } : Call).held.Fresh := h
  rcases adapter with error | result
  · have hrun : perform options (.error error) { held } = match recover options error { held } with
        | .ok refusal call => .ok (.inl refusal) call
        | .error error call => .error error call := rfl
    rw [hrun]
    rcases error with ⟨kind, usage | usage⟩ | -
    · obtain ⟨held', -, hrelease⟩ := releaseHold_fresh hfresh
      dsimp only [recover, bind, EStateM.bind, pure, EStateM.pure]
      rw [hrelease]
      exact ⟨rfl, iff_of_true trivial trivial⟩
    · obtain ⟨settled, -, -, heffects, -, hsettle⟩ :=
        settle_fresh options hfresh usage
      dsimp only [recover, bind, EStateM.bind, pure, EStateM.pure]
      rw [hsettle]
      cases hrecords : options.records 0 usage with
      | error error => simp [after, returned, heffects, resolution, reportedUsage, MeterKeeps, hrecords]
      | ok u => simp [after, returned, heffects, resolution, reportedUsage, MeterKeeps, hrecords]
    · obtain ⟨held', -, hrelease⟩ := releaseHold_fresh hfresh
      dsimp only [recover, bind, EStateM.bind, pure, EStateM.pure]
      rw [hrelease]
      exact ⟨rfl, iff_of_true trivial trivial⟩
  · obtain ⟨settled, hspent, hignores, heffects, hrecorded, hsettle⟩ :=
      settle_fresh options hfresh result.usage
    cases hrecords : options.records 0 result.usage with
    | ok u =>
      have hrun : perform options (.ok result) { held } = .ok (.inr result) settled := by
        dsimp only [perform, attempt, bind, EStateM.bind]
        rw [hsettle]
        simp only [List.length_nil, hrecords]
        rfl
      rw [hrun]
      simp [after, returned, heffects, resolution, reportedUsage, MeterKeeps, hrecords]
    | error error =>
      have hlength : settled.recorded.length = 1 := by
        have hmeter : options.meter.isSome = true := by
          cases hmeter : options.meter with
          | none => simp [InferenceProxyOptions.records, hmeter] at hrecords
          | some record => rfl
        rw [hrecorded, InferenceProxyOptions.noted, if_pos hmeter]
        rfl
      have hrun : perform options (.ok result) { held } = match recover options error settled with
          | .ok refusal call => .ok (.inl refusal) call
          | .error error call => .error error call := by
        dsimp only [perform, attempt, bind, EStateM.bind]
        rw [hsettle]
        simp only [List.length_nil, hrecords]
      rw [hrun]
      obtain ⟨hkept, hreturned⟩ := recover_spent options hspent error
      rw [hlength, hignores] at hreturned
      simp only [MeterKeeps, hrecords, Except.error.injEq, forall_eq', ← hreturned, resolution,
        reportedUsage]
      rw [← List.nil_append [_], ← heffects, ← hkept]
      cases recover options error settled <;> simp [after, returned]

end

section

variable (options : InferenceProxyOptions) (request : RunnerInferenceRequest) (authenticated : String)
  (frameGeneration currentGeneration : ℕ)

/-- The budget gave `held` for the request, and its provider answers with `adapter`. -/
def Reaches (held : Held) (adapter : Except Thrown CompletionResult) : Prop :=
  ∃ run maxChargeUsd budget,
    screen options request authenticated frameGeneration currentGeneration = .ok (run, maxChargeUsd) ∧
      options.createAdapter = .ok (some adapter) ∧ options.budget = some budget ∧
      budget.reserve run maxChargeUsd = .ok (some held)

/-- The caller gets an answer, and a hold is resolved once: by the reported usage where there is
one. -/
structure Accounted : Prop where
  answers : ∃ response, (handle options request authenticated frameGeneration
    currentGeneration).response = .ok response
  resolves : ∀ held adapter,
    Reaches options request authenticated frameGeneration currentGeneration held adapter →
      ∃ call ∈ (handle options request authenticated frameGeneration currentGeneration).call,
        ∃ effect, call.effects = [effect] ∧
          ∀ usage ∈ reportedUsage adapter, effect = .settled usage.cost

/-- The factory does not throw on a request that passes the checks, and the meter keeps what it is
given. -/
structure AnswersWhen : Prop where
  creates : ∀ run maxChargeUsd error,
    screen options request authenticated frameGeneration currentGeneration = .ok (run, maxChargeUsd) →
      options.createAdapter ≠ .error error
  keeps : ∀ held adapter,
    Reaches options request authenticated frameGeneration currentGeneration held adapter →
      MeterKeeps options held.ignores adapter

variable {options request authenticated frameGeneration currentGeneration}

theorem handle_of_reaches {held : Held} {adapter : Except Thrown CompletionResult}
    (h : Reaches options request authenticated frameGeneration currentGeneration held adapter) :
    ∃ run, handle options request authenticated frameGeneration currentGeneration =
      conclude options request authenticated run (perform options adapter { held }) := by
  obtain ⟨run, maxChargeUsd, budget, hscreen, hadapter, hbudget, hreserve⟩ := h
  refine ⟨run, ?_⟩
  unfold handle
  rw [hscreen]
  dsimp only
  rw [hadapter]
  dsimp only
  rw [hbudget]
  dsimp only
  rw [hreserve]

theorem held_fresh {held : Held} {adapter : Except Thrown CompletionResult}
    (h : Reaches options request authenticated frameGeneration currentGeneration held adapter) :
    held.Fresh := by
  obtain ⟨run, maxChargeUsd, budget, -, -, -, hreserve⟩ := h
  exact reserve_fresh hreserve

theorem conclude_call (run : ProxiedRunFacts)
    (result : EStateM.Result Thrown Call (Refusal ⊕ CompletionResult)) :
    (conclude options request authenticated run result).call = some (after result) := by
  rcases result with (refusal | result) | ⟨error, call⟩ <;> rfl

theorem conclude_answers (run : ProxiedRunFacts)
    (result : EStateM.Result Thrown Call (Refusal ⊕ CompletionResult)) :
    (∃ response, (conclude options request authenticated run result).response = .ok response) ↔
      returned result := by
  rcases result with ⟨refusal | result, call⟩ | ⟨error, call⟩ <;>
    simp [conclude, returned, refused]

/-- Without a hold only the factory can throw at the caller. -/
theorem answers_without_hold
    (h : ∀ held adapter,
      ¬ Reaches options request authenticated frameGeneration currentGeneration held adapter)
    (hcreates : ∀ run maxChargeUsd error,
      screen options request authenticated frameGeneration currentGeneration = .ok (run, maxChargeUsd) →
        options.createAdapter ≠ .error error) :
    ∃ response, (handle options request authenticated frameGeneration
      currentGeneration).response = .ok response := by
  unfold handle
  cases hscreen : screen options request authenticated frameGeneration currentGeneration with
  | error refusal => exact ⟨_, rfl⟩
  | ok accepted =>
    obtain ⟨run, maxChargeUsd⟩ := accepted
    dsimp only
    cases hadapter : options.createAdapter with
    | error error => exact absurd hadapter (hcreates run maxChargeUsd error hscreen)
    | ok adapter =>
      cases adapter with
      | none => exact ⟨_, rfl⟩
      | some adapter =>
        dsimp only
        cases hbudget : options.budget with
        | none => exact ⟨_, rfl⟩
        | some budget =>
          dsimp only
          cases hreserve : budget.reserve run maxChargeUsd with
          | error error => exact ⟨_, rfl⟩
          | ok held =>
            cases held with
            | none => exact ⟨_, rfl⟩
            | some held =>
              have hreaches : Reaches options request authenticated frameGeneration currentGeneration
                  held adapter := ⟨run, maxChargeUsd, budget, hscreen, hadapter, hbudget, hreserve⟩
              exact absurd hreaches (h held adapter)

/-- The factory's error is thrown at the caller. -/
theorem handle_of_creates_error {run : ProxiedRunFacts} {maxChargeUsd : ℚ} {error : Thrown}
    (hscreen : screen options request authenticated frameGeneration currentGeneration =
      .ok (run, maxChargeUsd))
    (hadapter : options.createAdapter = .error error) :
    (handle options request authenticated frameGeneration currentGeneration).response =
      .error error := by
  unfold handle
  rw [hscreen]
  dsimp only
  rw [hadapter]

variable (options request authenticated frameGeneration currentGeneration)

/-- Every hold is resolved once, by the usage the provider reported where it did. The caller gets an
answer exactly when the factory does not throw and the meter keeps what it is given. -/
theorem handle_answers_iff :
    Accounted options request authenticated frameGeneration currentGeneration ↔
      AnswersWhen options request authenticated frameGeneration currentGeneration := by
  constructor
  · intro h
    obtain ⟨response, hresponse⟩ := h.answers
    constructor
    · intro run maxChargeUsd error hscreen hadapter
      rw [handle_of_creates_error hscreen hadapter] at hresponse
      cases hresponse
    · intro held adapter hreaches
      obtain ⟨run, hrun⟩ := handle_of_reaches hreaches
      rw [hrun] at hresponse
      obtain ⟨-, hreturned⟩ := perform_resolves options adapter (held_fresh hreaches)
      exact hreturned.mp ((conclude_answers run _).mp ⟨response, hresponse⟩)
  · intro h
    constructor
    · by_cases hreaches : ∃ held adapter,
          Reaches options request authenticated frameGeneration currentGeneration held adapter
      · obtain ⟨held, adapter, hreaches⟩ := hreaches
        obtain ⟨run, hrun⟩ := handle_of_reaches hreaches
        obtain ⟨-, hreturned⟩ := perform_resolves options adapter (held_fresh hreaches)
        rw [hrun]
        exact (conclude_answers run _).mpr (hreturned.mpr (h.keeps held adapter hreaches))
      · push Not at hreaches
        exact answers_without_hold hreaches h.creates
    · intro held adapter hreaches
      obtain ⟨run, hrun⟩ := handle_of_reaches hreaches
      obtain ⟨heffects, -⟩ := perform_resolves options adapter (held_fresh hreaches)
      rw [hrun, conclude_call]
      refine ⟨_, rfl, resolution adapter, heffects, ?_⟩
      intro usage husage
      unfold resolution
      rw [Option.mem_def.mp husage]

end

/-! A provider that fails after it was paid, and a meter that cannot record it. -/

def gptMini : ModelEntry where
  provider := "openai"
  input_per_mtok := 1
  output_per_mtok := 4

def paidRun : ProxiedRunFacts where
  run_id := "run-1"
  project_id := "project-1"
  phase_id := "phase-1"
  task_id := "task-1"
  runner_id := "runner-1"
  runner_generation := 1
  active := true

def paidUsage : UsageEvent where
  provider := "openai"
  model := "gpt-mini"
  input_tokens := 10
  output_tokens := 5
  estimated_cost_usd := 3 / 100000
  actual_cost_usd := none

def paidOptions : InferenceProxyOptions where
  lookup := .ok (some paidRun)
  createAdapter := .ok (some (.error (.adapter .server (some paidUsage))))
  budget := some (.sql (.ok (some ⟨1, 0⟩)) .empty)
  meter := some fun _ _ => .error .other
  allowedModels := ["openai/gpt-mini"]
  registry := fun model => if model = "gpt-mini" then some gptMini else none
  usd := fun _ => ""

def paidRequest : RunnerInferenceRequest where
  request_id := "request-1"
  run_id := "run-1"
  task_id := "task-1"
  provider := "openai"
  model := "gpt-mini"
  prompt := "hi"
  max_tokens := 5

theorem paid_failure_rejects : ¬ Accounted paidOptions paidRequest "runner-1" 1 1 := by
  intro h
  obtain ⟨response, hresponse⟩ := h.answers
  have hrejects : (match (handle paidOptions paidRequest "runner-1" 1 1).response with
      | .ok _ => true
      | .error _ => false) = false := by decide +kernel
  rw [hresponse] at hrejects
  cases hrejects

end Norns.Inference.Proxy
