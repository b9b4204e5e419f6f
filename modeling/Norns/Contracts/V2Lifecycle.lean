import Mathlib.Tactic.Common

/-! # The lifecycles of tasks and attempts

`v2/lifecycle.ts`: the states of a task and of an agent run, the edges between them, and the
projection of the designated run onto its task. -/

namespace Norns.Contracts.V2Lifecycle

/-! ### Tasks -/

inductive V2TaskState
  | pending | ready | assigned | in_progress | verifying | in_review | completed | blocked | failed
  | cancelled
  deriving DecidableEq, Repr

/-- `V2_TASK_TRANSITIONS` -/
def v2TaskTransitions : V2TaskState → List V2TaskState
  | .pending => [.ready, .blocked, .cancelled]
  | .ready => [.assigned, .blocked, .cancelled]
  | .assigned => [.in_progress, .blocked, .cancelled]
  | .in_progress => [.verifying, .blocked, .failed, .cancelled]
  | .verifying => [.in_review, .in_progress, .blocked, .failed, .cancelled]
  | .in_review => [.completed, .in_progress, .blocked, .failed, .cancelled]
  | .completed => [.in_progress]
  | .blocked => [.ready, .assigned, .in_progress, .verifying, .in_review, .failed, .cancelled]
  | .failed => [.in_progress, .cancelled]
  | .cancelled => []

def v2CanTaskTransition (source target : V2TaskState) : Bool :=
  decide (target ∈ v2TaskTransitions source)

/-! ### Attempts -/

inductive V2AgentRunState
  | created | dispatched | running | waiting_for_human | verifying | succeeded | failed | cancelled
  | expired
  deriving DecidableEq, Repr

/-- `V2_AGENT_RUN_TRANSITIONS` -/
def v2AgentRunTransitions : V2AgentRunState → List V2AgentRunState
  | .created => [.dispatched, .cancelled, .expired]
  | .dispatched => [.running, .failed, .cancelled, .expired]
  | .running => [.waiting_for_human, .verifying, .failed, .cancelled]
  | .waiting_for_human => [.dispatched, .cancelled, .expired]
  | .verifying => [.waiting_for_human, .succeeded, .failed, .cancelled]
  | .succeeded | .failed | .cancelled | .expired => []

def v2CanAgentRunTransition (source target : V2AgentRunState) : Bool :=
  decide (target ∈ v2AgentRunTransitions source)

/-- `V2_TERMINAL_AGENT_RUN_STATES` -/
def V2AgentRunState.isTerminal : V2AgentRunState → Bool
  | .succeeded | .failed | .cancelled | .expired => true
  | .created | .dispatched | .running | .waiting_for_human | .verifying => false

theorem terminal_no_edge {source target : V2AgentRunState} (h : source.isTerminal = true) :
    v2CanAgentRunTransition source target = false := by
  cases source <;> first | rfl | cases h

end Norns.Contracts.V2Lifecycle
