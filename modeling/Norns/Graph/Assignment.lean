import Mathlib.Algebra.Order.Ring.Rat
import Norns.Lib.Json

/-! # Node assignments

`NodeAssignment` of `graph/allocation.ts`: what the parser admits and how an assignment is written in
a canonical text. Budgets are exact rationals; a text or enumeration value the schema would refuse by
its type cannot be built. -/

namespace Norns.Graph.Assignment

open Norns.Lib

inductive Provider
  | anthropic | openai | deepseek
  deriving DecidableEq, Repr

inductive CodexReasoningEffort
  | minimal | low | medium | high | xhigh
  deriving DecidableEq, Repr

/-- Who chose the assignment. -/
inductive Source
  | auto | pm | override
  deriving DecidableEq, Repr

structure NodeAssignment where
  provider : Provider
  model : String
  reasoning_effort : Option CodexReasoningEffort
  worker_count : ℚ
  reviewer_model : String
  budget_usd : ℚ
  rationale : String
  source : Source
  deriving DecidableEq, Repr

/-- The fields a refused assignment fails at, by their paths. -/
structure ParseError where
  paths : List String
  deriving DecidableEq, Repr

namespace NodeAssignment

/-- The fields that fail their check, in the order of the schema. -/
def issues (a : NodeAssignment) : List String :=
  (if a.model = "" then ["model"] else []) ++
  (if a.worker_count.den ≠ 1 ∨ a.worker_count < 1 ∨ 3 < a.worker_count then ["worker_count"]
    else []) ++
  (if a.reviewer_model = "" then ["reviewer_model"] else []) ++
  (if a.budget_usd ≤ 0 then ["budget_usd"] else []) ++
  (if a.rationale = "" then ["rationale"] else [])

/-- `NodeAssignment.parse` -/
def parse (a : NodeAssignment) : Except ParseError NodeAssignment :=
  if a.issues = [] then .ok a else .error ⟨a.issues⟩

end NodeAssignment

def Provider.text : Provider → String
  | .anthropic => "anthropic"
  | .openai => "openai"
  | .deepseek => "deepseek"

def CodexReasoningEffort.text : CodexReasoningEffort → String
  | .minimal => "minimal"
  | .low => "low"
  | .medium => "medium"
  | .high => "high"
  | .xhigh => "xhigh"

def Source.text : Source → String
  | .auto => "auto"
  | .pm => "pm"
  | .override => "override"

def effortJson : Option CodexReasoningEffort → Json ℚ
  | some e => .str e.text
  | none => .null

/-- The fields in the order in which the parser builds them. -/
def NodeAssignment.toJson (a : NodeAssignment) : Json ℚ :=
  .obj [("provider", .str a.provider.text), ("model", .str a.model),
    ("reasoning_effort", effortJson a.reasoning_effort), ("role", .str "implementation"),
    ("worker_count", .num a.worker_count), ("reviewer_model", .str a.reviewer_model),
    ("budget_usd", .num a.budget_usd), ("rationale", .str a.rationale),
    ("source", .str a.source.text)]

theorem effortJson_injective : Function.Injective effortJson := by
  intro a b h
  rcases a with _ | a <;> rcases b with _ | b
  · rfl
  · cases b <;> simp [effortJson] at h
  · cases a <;> simp [effortJson] at h
  · cases a <;> cases b <;> simp_all [effortJson, CodexReasoningEffort.text]

theorem toJson_injective : Function.Injective NodeAssignment.toJson := by
  intro a b h
  obtain ⟨pa, ma, ea, wa, ra, ba, ta, sa⟩ := a
  obtain ⟨pb, mb, eb, wb, rb, bb, tb, sb⟩ := b
  simp only [NodeAssignment.toJson, Json.obj.injEq, List.cons.injEq, Prod.mk.injEq, true_and,
    and_true, Json.str.injEq, Json.num.injEq] at h
  obtain ⟨hp, rfl, he, rfl, rfl, rfl, rfl, hs⟩ := h
  have hp : pa = pb := by cases pa <;> cases pb <;> simp_all [Provider.text]
  have hs : sa = sb := by cases sa <;> cases sb <;> simp_all [Source.text]
  rw [hp, hs, effortJson_injective he]

end Norns.Graph.Assignment
