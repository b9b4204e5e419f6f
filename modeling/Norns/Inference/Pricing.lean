import Mathlib.Data.Rat.Floor
import Mathlib.Algebra.Order.Field.Rat

/-! # Prices of model calls

The model registry of `packages/adapters` and what the proxy and the gateway compute from it before a
call: the frozen price, the conservative maximum charge and the estimate of the input tokens. -/

namespace Norns.Inference

structure ModelEntry where
  provider : String
  input_per_mtok : ℚ
  cache_read_per_mtok : Option ℚ := none
  cache_write_per_mtok : Option ℚ := none
  output_per_mtok : ℚ
  deriving DecidableEq

structure ModelPricingSnapshot where
  input_per_mtok : ℚ
  cache_read_per_mtok : ℚ
  cache_write_per_mtok : ℚ
  output_per_mtok : ℚ
  deriving DecidableEq

/-- `snapshotModelPricing`; `none` where it throws. -/
def snapshotModelPricing (registry : String → Option ModelEntry) (provider model : String) :
    Option ModelPricingSnapshot := do
  let entry ← registry model
  let snapshot : ModelPricingSnapshot := {
    input_per_mtok := entry.input_per_mtok
    cache_read_per_mtok := entry.cache_read_per_mtok.getD entry.input_per_mtok
    cache_write_per_mtok := entry.cache_write_per_mtok.getD entry.input_per_mtok
    output_per_mtok := entry.output_per_mtok }
  if entry.provider = provider ∧ 0 ≤ snapshot.input_per_mtok ∧ 0 ≤ snapshot.cache_read_per_mtok ∧
      0 ≤ snapshot.cache_write_per_mtok ∧ 0 ≤ snapshot.output_per_mtok then some snapshot
  else none

/-- The charge of both token caps, rounded up to the next micro-dollar. -/
def conservativeMaxChargeUsd (pricing : ModelPricingSnapshot)
    (max_input_tokens max_output_tokens : ℕ) : ℚ :=
  ⌈max_input_tokens * pricing.input_per_mtok + max_output_tokens * pricing.output_per_mtok⌉ / 1000000

/-- The `length` of a string: its UTF-16 code units. -/
def codeUnits (text : String) : ℕ :=
  (text.toList.map fun c => if 65536 ≤ c.toNat then 2 else 1).sum

/-- `estimateInferenceInputTokens` -/
def estimateInferenceInputTokens (system : Option String) (prompt : String) : ℕ :=
  max 1 (⌈((((system.map codeUnits).getD 0 + codeUnits prompt : ℕ) : ℚ) / 4) * (5 / 4)⌉₊ + 256)

end Norns.Inference
