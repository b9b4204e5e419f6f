/-! # Node lifecycle

The states of `lifecycle.ts`, which the engine owns, and the transitions between them. -/

namespace Norns.Contracts.Lifecycle

inductive NodeState
  | pending | ready | assigned | running | verifying | in_review | verified | integrated | blocked
  | failed | cancelled | superseded
  deriving DecidableEq, Repr

def NodeState.text : NodeState → String
  | .pending => "pending"
  | .ready => "ready"
  | .assigned => "assigned"
  | .running => "running"
  | .verifying => "verifying"
  | .in_review => "in_review"
  | .verified => "verified"
  | .integrated => "integrated"
  | .blocked => "blocked"
  | .failed => "failed"
  | .cancelled => "cancelled"
  | .superseded => "superseded"

inductive BlockedReason
  | dependency | budget | runner | integration
  deriving DecidableEq, Repr

def BlockedReason.text : BlockedReason → String
  | .dependency => "dependency"
  | .budget => "budget"
  | .runner => "runner"
  | .integration => "integration"

def NODE_TRANSITIONS : NodeState → List NodeState
  | .pending => [.ready, .cancelled]
  | .ready => [.assigned, .blocked, .cancelled]
  | .assigned => [.running, .blocked, .cancelled]
  | .running => [.verifying, .blocked, .failed, .cancelled]
  | .verifying => [.in_review, .failed, .blocked, .cancelled]
  -- back to `assigned` is reviewer-requested rework
  | .in_review => [.verified, .assigned, .failed, .cancelled]
  | .verified => [.integrated, .blocked, .superseded]
  | .blocked => [.ready, .assigned, .running, .verifying, .in_review, .verified, .cancelled,
      .superseded]
  | .failed => [.assigned, .cancelled, .superseded]
  | .integrated => []
  | .cancelled => []
  | .superseded => []

def canTransition (source target : NodeState) : Bool := decide (target ∈ NODE_TRANSITIONS source)

end Norns.Contracts.Lifecycle
