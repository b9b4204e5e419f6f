import Norns.Contracts.Lifecycle
import Norns.Contracts.Plan
import Norns.Graph.Assignment
import Norns.Lib.Edit
import Norns.Lib.Run

/-! # The workflow graph

`WorkflowGraph` of `graph/graph.ts`. A node is stored under its id. A structural edit is a method
that may throw a `GraphEditError`, and what it wrote before the throw stays (`Edit`).

`removeNode` calls itself for the dependents; its call depth is bounded by the number of nodes plus
one, which only a cyclic graph exceeds. -/

namespace Norns.Graph.Workflow

open Norns.Lib Norns.Contracts.Plan Norns.Contracts.Lifecycle Norns.Graph.Assignment

structure GraphNode where
  title : String
  complexity : Complexity
  risk : RiskLevel
  parallel_safe : Bool
  dependencies : List String
  assignment : Option NodeAssignment
  deriving DecidableEq, Repr

structure WorkflowGraph where
  nodes : OrdMap String GraphNode
  graphVersion : ℕ
  executionStarted : Bool
  stateOf : String → NodeState

/-- A version and the nodes with their ids. -/
structure GraphSnapshot where
  version : ℕ
  nodes : List (String × GraphNode)

inductive GraphEditError
  | duplicate_node (id : String)
  | unknown_node (id : String)
  | has_dependents (id : String) (dependents : List String)
  | node_started (id : String) (state : NodeState)
  | duplicate_edge (fromId toId : String)
  | cycle (fromId toId : String) (cyclePath : List String)
  deriving DecidableEq, Repr

def GraphEditError.message : GraphEditError → String
  | .duplicate_node id => "node \"" ++ id ++ "\" already exists"
  | .unknown_node id => "unknown node \"" ++ id ++ "\""
  | .has_dependents id dependents =>
    "node \"" ++ id ++ "\" has dependents [" ++ String.intercalate ", " dependents ++
      "]: confirm mode \"reparent\" or \"cascade\""
  | .node_started id state =>
    "node \"" ++ id ++ "\" is " ++ state.text ++
      ": after execution starts, edits are limited to not-yet-started nodes"
  | .duplicate_edge fromId toId => "edge " ++ fromId ++ " -> " ++ toId ++ " already exists"
  | .cycle fromId toId cyclePath =>
    "edge " ++ fromId ++ " -> " ++ toId ++ " creates a cycle: " ++ String.intercalate " -> " cyclePath

/-- What a method of the graph throws. -/
inductive Thrown
  | edit (e : GraphEditError)
  /-- The call stack is used up. -/
  | callDepth
  deriving DecidableEq, Repr

/-- A method of the graph. -/
abbrev Edit (α : Type) := EStateM Thrown WorkflowGraph α

/-- States at or before which a node is still freely editable. -/
def notStarted : NodeState → Bool
  | .pending | .ready => true
  | _ => false

namespace WorkflowGraph

/-- The graph of `new WorkflowGraph()`. -/
def new : WorkflowGraph := ⟨OrdMap.empty, 1, false, fun _ => .pending⟩

def nodeOfModule (mod : PlanModule) : GraphNode where
  title := mod.title
  complexity := mod.estimated_complexity
  risk := mod.risk
  parallel_safe := mod.parallelSafe
  dependencies := mod.dependencies
  assignment := none

def fromPlan (plan : PlanContract) : WorkflowGraph :=
  { new with nodes := OrdMap.ofList (plan.modules.map fun mod => (mod.id, nodeOfModule mod)) }

def version (g : WorkflowGraph) : ℕ := g.graphVersion

def attachStateLookup (g : WorkflowGraph) (lookup : String → NodeState) : WorkflowGraph :=
  { g with stateOf := lookup }

def markExecutionStarted (g : WorkflowGraph) : WorkflowGraph := { g with executionStarted := true }

def node (g : WorkflowGraph) (id : String) : Option GraphNode := g.nodes.get? id

def snapshot (g : WorkflowGraph) : GraphSnapshot := ⟨g.graphVersion, g.nodes.entries⟩

/-- Repopulate the graph in place. -/
def restoreFrom (g : WorkflowGraph) (snapshot : GraphSnapshot) : WorkflowGraph :=
  { g with nodes := OrdMap.ofList snapshot.nodes, graphVersion := snapshot.version }

def dependentsOf (g : WorkflowGraph) (id : String) : List String :=
  (g.nodes.entries.filter fun e => decide (id ∈ e.2.dependencies)).map Prod.fst

/-- The dependencies of a node, none if there is no such node. -/
def depsOf (g : WorkflowGraph) (id : String) : List String :=
  match g.nodes.get? id with
  | some node => node.dependencies
  | none => []

/-- Every id that the graph mentions. -/
def mentioned (g : WorkflowGraph) : List String :=
  g.nodes.keys ++ g.nodes.values.flatMap GraphNode.dependencies

def findCycle (g : WorkflowGraph) : Option (List String) :=
  Cycle.findCycle g.depsOf (g.mentioned.length + 1) g.nodes.keys

def bump (g : WorkflowGraph) : WorkflowGraph := { g with graphVersion := g.graphVersion + 1 }

def deleteNode (g : WorkflowGraph) (id : String) : WorkflowGraph :=
  { g with nodes := g.nodes.delete id }

/-- Assign the dependency list of an existing node. -/
def setDependencies (g : WorkflowGraph) (id : String) (deps : List String) : WorkflowGraph :=
  match g.nodes.get? id with
  | some node => { g with nodes := g.nodes.set id { node with dependencies := deps } }
  | none => g

/-- After execution starts, only not-yet-started nodes are editable. -/
def editable (g : WorkflowGraph) (id : String) : Bool :=
  !g.executionStarted || notStarted (g.stateOf id)

end WorkflowGraph

open WorkflowGraph

def requireNode (id : String) : Edit GraphNode := do
  match (← get).nodes.get? id with
  | some node => return node
  | none => throw (.edit (.unknown_node id))

def guardEditable (id : String) : Edit Unit := do
  let g ← get
  if g.editable id then return ()
  else throw (.edit (.node_started id (g.stateOf id)))

/-- The argument of `addNode`. -/
structure NodeInput where
  id : String
  title : String
  complexity : Option Complexity := none
  risk : Option RiskLevel := none
  dependencies : Option (List String) := none
  deriving DecidableEq, Repr

def NodeInput.node (input : NodeInput) : GraphNode where
  title := input.title
  complexity := input.complexity.getD .M
  risk := input.risk.getD .low
  parallel_safe := false
  dependencies := input.dependencies.getD []
  assignment := none

def addNode (input : NodeInput) : Edit Unit := do
  if (← get).nodes.has input.id then
    throw (.edit (.duplicate_node input.id))
  (input.dependencies.getD []).foldlM (fun _ dep => do let _ ← requireNode dep) ()
  modify fun g => { g with nodes := g.nodes.set input.id input.node }
  modify bump

def addEdge (fromId toId : String) : Edit Unit := do
  let _ ← requireNode fromId
  let target ← requireNode toId
  guardEditable toId
  if fromId ∈ target.dependencies then
    throw (.edit (.duplicate_edge fromId toId))
  modify fun g => g.setDependencies toId (target.dependencies ++ [fromId])
  match (← get).findCycle with
  | some cycle => do
    -- the edge is taken back before the error is thrown
    modify fun g => g.setDependencies toId (g.depsOf toId).dropLast
    throw (.edit (.cycle fromId toId cycle))
  | none => modify bump

def removeEdge (fromId toId : String) : Edit Unit := do
  let target ← requireNode toId
  guardEditable toId
  modify fun g => g.setDependencies toId (target.dependencies.filter fun dep => decide (dep ≠ fromId))
  modify bump

inductive RemoveMode
  | reparent | cascade
  deriving DecidableEq, Repr

/-- The dependencies of `dependent` once the removed node `id` is replaced by what it depends on. -/
def inheritedDeps (g : WorkflowGraph) (id dependent : String) : List String :=
  ((g.depsOf dependent).filter (fun dep => decide (dep ≠ id)) ++ g.depsOf id).eraseDups

/-- Graft the dependencies of `id` onto one dependent. -/
def inherit (id dependent : String) : Edit Unit := do
  let _ ← requireNode dependent
  guardEditable dependent
  modify fun g => g.setDependencies dependent (inheritedDeps g id dependent)

def removeNodeAt : ℕ → String → Option RemoveMode → Edit (List String)
  | 0, _, _ => throw .callDepth
  | depth + 1, id, mode => do
    let _ ← requireNode id
    guardEditable id
    let dependents := (← get).dependentsOf id
    if dependents ≠ [] ∧ mode = none then
      throw (.edit (.has_dependents id dependents))
    let removed ←
      if mode = some .cascade ∧ dependents ≠ [] then
        dependents.foldlM (fun removed dependent => do
          return removed ++ (← removeNodeAt depth dependent (some .cascade))) []
      else do
        dependents.foldlM (fun _ dependent => inherit id dependent) ()
        pure []
    modify fun g => g.deleteNode id
    modify bump
    return removed ++ [id]

def removeNode (id : String) (mode : Option RemoveMode) : Edit (List String) := do
  removeNodeAt ((← get).nodes.keys.length + 1) id mode

/-- The calls that edit a graph, and the two that change what its guards see. -/
inductive GraphOp
  | addNode (input : NodeInput)
  | addEdge (fromId toId : String)
  | removeEdge (fromId toId : String)
  | removeNode (id : String) (mode : Option RemoveMode)
  | attachStateLookup (lookup : String → NodeState)
  | markExecutionStarted

def perform : GraphOp → Edit Unit
  | .addNode input => addNode input
  | .addEdge fromId toId => addEdge fromId toId
  | .removeEdge fromId toId => removeEdge fromId toId
  | .removeNode id mode => do let _ ← removeNode id mode
  | .attachStateLookup lookup => modify fun g => g.attachStateLookup lookup
  | .markExecutionStarted => modify markExecutionStarted

/-- The graph after a call, whether it returned or threw. -/
def step (g : WorkflowGraph) (op : GraphOp) : WorkflowGraph := Edit.after (perform op g)

end Norns.Graph.Workflow
