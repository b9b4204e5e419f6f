import Norns.Inference.Streaming
import Mathlib.Tactic.FinCases
import Mathlib.Tactic.GCongr
import Mathlib.Tactic.Linarith
import Mathlib.Tactic.NormNum
import Mathlib.Tactic.Positivity

/-! # The charge of a call and its hold

The quote of a call knows the prices of input and output, the settlement prices the cached tokens apart. How the billable
input is split, and what the charge comes to beside the hold.

* `DEFAULT_MODEL_REGISTRY`: the prices of the registry;
* `classes_sum`, `classes_apart`, `classes_mono`: the split;
* `Billing`: what a charge keeps, `billing`: of every frozen price. -/

namespace Norns.Inference.Charge

open Norns.Inference Norns.Inference.Streaming

/-! ### The registry -/

/-- The entries with their prices. -/
def defaultEntries : List (String × ModelEntry) :=
  [("claude-fable-5", ⟨"anthropic", 10, some 10, none, 50⟩),
    ("claude-opus-4-8", ⟨"anthropic", 5, some 5, none, 25⟩),
    ("claude-sonnet-5", ⟨"anthropic", 2, some (2 / 10), some (25 / 10), 10⟩),
    ("claude-haiku-4-5-20251001", ⟨"anthropic", 1, some 1, none, 5⟩),
    ("claude-haiku-4-5", ⟨"anthropic", 1, some 1, none, 5⟩),
    ("gpt-5.6-sol", ⟨"openai", 5, some 5, none, 30⟩),
    ("gpt-5.6-terra", ⟨"openai", 25 / 10, some (25 / 10), none, 15⟩),
    ("gpt-5.6-luna", ⟨"openai", 1, some 1, none, 6⟩),
    ("openai-reasoning-default", ⟨"openai", 10, some 10, none, 40⟩),
    ("mock-anthropic", ⟨"anthropic", 2, some 2, none, 10⟩),
    ("mock-openai", ⟨"openai", 2, some 2, none, 10⟩),
    ("deepseek-v4-pro", ⟨"deepseek", 435 / 1000, some (3625 / 1000000), none, 87 / 100⟩),
    ("deepseek-v4-flash", ⟨"deepseek", 14 / 100, some (28 / 10000), none, 28 / 100⟩)]

def DEFAULT_MODEL_REGISTRY (model : String) : Option ModelEntry := defaultEntries.lookup model

/-- The cached tokens cost no more than the others. -/
def Discounted (pricing : ModelPricingSnapshot) : Prop :=
  pricing.cache_read_per_mtok ≤ pricing.input_per_mtok ∧ pricing.cache_write_per_mtok ≤ pricing.input_per_mtok

instance (pricing : ModelPricingSnapshot) : Decidable (Discounted pricing) := inferInstanceAs (Decidable (_ ∧ _))

/-- Nonnegative prices. -/
structure Priced (pricing : ModelPricingSnapshot) : Prop where
  input : 0 ≤ pricing.input_per_mtok
  cacheRead : 0 ≤ pricing.cache_read_per_mtok
  cacheWrite : 0 ≤ pricing.cache_write_per_mtok
  output : 0 ≤ pricing.output_per_mtok

/-- The prices of an entry with its defaults. -/
def frozen (entry : ModelEntry) : ModelPricingSnapshot where
  input_per_mtok := entry.input_per_mtok
  cache_read_per_mtok := entry.cache_read_per_mtok.getD entry.input_per_mtok
  cache_write_per_mtok := entry.cache_write_per_mtok.getD entry.input_per_mtok
  output_per_mtok := entry.output_per_mtok

/-- A frozen price is that of the entry, and no price is negative. -/
theorem snapshotModelPricing_iff {registry : String → Option ModelEntry} {provider model : String}
    {pricing : ModelPricingSnapshot} : snapshotModelPricing registry provider model = some pricing ↔
      ∃ entry, registry model = some entry ∧ entry.provider = provider ∧ pricing = frozen entry ∧ Priced pricing := by
  unfold snapshotModelPricing
  rcases hentry : registry model with _ | entry
  · simp
  · dsimp only [bind, Option.bind]
    constructor
    · intro h
      split_ifs at h with hvalid
      obtain rfl := Option.some.inj h
      exact ⟨entry, rfl, hvalid.1, rfl, ⟨hvalid.2.1, hvalid.2.2.1, hvalid.2.2.2.1, hvalid.2.2.2.2⟩⟩
    · rintro ⟨entry', heq, hprovider, rfl, hpriced⟩
      obtain rfl := Option.some.inj heq
      rw [if_pos ⟨hprovider, hpriced.input, hpriced.cacheRead, hpriced.cacheWrite, hpriced.output⟩]
      rfl

/-- Every entry has a frozen price, and all but one are discounted. -/
theorem default_discounted : ∀ entry ∈ defaultEntries,
    snapshotModelPricing DEFAULT_MODEL_REGISTRY entry.2.provider entry.1 = some (frozen entry.2) ∧
      (entry.1 ≠ "claude-sonnet-5" → Discounted (frozen entry.2)) := by
  intro entry hentry
  rw [snapshotModelPricing_iff]
  fin_cases hentry
  all_goals
    refine ⟨⟨_, rfl, rfl, rfl, ?_⟩, fun hname => ?_⟩
    · constructor
      all_goals norm_num [frozen]
    · first
        | exact absurd rfl hname
        | norm_num [Discounted, frozen]

/-! ### The split -/

def cacheReadTokens (usage : GatewayTokenUsage) (provider : GatewayProvider) : ℕ :=
  min (billableInputTokens usage provider) usage.cache_read_input_tokens

def cacheWriteTokens (usage : GatewayTokenUsage) (provider : GatewayProvider) : ℕ :=
  min (billableInputTokens usage provider - cacheReadTokens usage provider) usage.cache_creation_input_tokens

def ordinaryInputTokens (usage : GatewayTokenUsage) (provider : GatewayProvider) : ℕ :=
  billableInputTokens usage provider - cacheReadTokens usage provider - cacheWriteTokens usage provider

/-- The charge in micro-dollars, before it is rounded. -/
def charge (pricing : ModelPricingSnapshot) (usage : GatewayTokenUsage) (provider : GatewayProvider) : ℚ :=
  ordinaryInputTokens usage provider * pricing.input_per_mtok +
    cacheReadTokens usage provider * pricing.cache_read_per_mtok +
    cacheWriteTokens usage provider * pricing.cache_write_per_mtok + usage.output_tokens * pricing.output_per_mtok

theorem gatewayCostUsd_eq (pricing : ModelPricingSnapshot) (usage : GatewayTokenUsage) (provider : GatewayProvider) :
    gatewayCostUsd pricing usage provider = ⌈charge pricing usage provider⌉ / 1000000 := rfl

/-- **The classes** add up to the billable input. -/
theorem classes_sum (usage : GatewayTokenUsage) (provider : GatewayProvider) :
    ordinaryInputTokens usage provider + cacheReadTokens usage provider + cacheWriteTokens usage provider =
      billableInputTokens usage provider := by
  unfold ordinaryInputTokens cacheWriteTokens cacheReadTokens
  omega

/-- A provider that counts the cached tokens apart has its own classes priced. -/
theorem classes_apart (usage : GatewayTokenUsage) {provider : GatewayProvider} (h : provider ≠ .openai) :
    ordinaryInputTokens usage provider = usage.input_tokens ∧
      cacheReadTokens usage provider = usage.cache_read_input_tokens ∧
      cacheWriteTokens usage provider = usage.cache_creation_input_tokens := by
  have hbillable : billableInputTokens usage provider =
      usage.input_tokens + usage.cache_read_input_tokens + usage.cache_creation_input_tokens := if_pos h
  unfold ordinaryInputTokens cacheWriteTokens cacheReadTokens
  omega

/-- The cached tokens are inside the input of the other one. -/
theorem billable_openai (usage : GatewayTokenUsage) : billableInputTokens usage .openai = usage.input_tokens :=
  if_neg fun h => h rfl

/-! ### Usage that grows -/

/-- No count is smaller. -/
structure Grows (usage usage' : GatewayTokenUsage) : Prop where
  input : usage.input_tokens ≤ usage'.input_tokens
  output : usage.output_tokens ≤ usage'.output_tokens
  cacheRead : usage.cache_read_input_tokens ≤ usage'.cache_read_input_tokens
  cacheWrite : usage.cache_creation_input_tokens ≤ usage'.cache_creation_input_tokens

/-- The counts of cached tokens are the same. -/
def SameCache (usage usage' : GatewayTokenUsage) : Prop :=
  usage.cache_read_input_tokens = usage'.cache_read_input_tokens ∧
    usage.cache_creation_input_tokens = usage'.cache_creation_input_tokens

section

variable {pricing : ModelPricingSnapshot} {usage usage' : GatewayTokenUsage} {provider : GatewayProvider}

theorem charge_nonneg (h : Priced pricing) (usage : GatewayTokenUsage) (provider : GatewayProvider) :
    0 ≤ charge pricing usage provider := by
  have hinput := h.input
  have hread := h.cacheRead
  have hwrite := h.cacheWrite
  have houtput := h.output
  unfold charge
  positivity

/-- The charge grows with its classes. -/
theorem charge_le_of_classes (h : Priced pricing)
    (hordinary : ordinaryInputTokens usage provider ≤ ordinaryInputTokens usage' provider)
    (hread : cacheReadTokens usage provider ≤ cacheReadTokens usage' provider)
    (hwrite : cacheWriteTokens usage provider ≤ cacheWriteTokens usage' provider)
    (houtput : usage.output_tokens ≤ usage'.output_tokens) :
    charge pricing usage provider ≤ charge pricing usage' provider := by
  have h₁ := h.input
  have h₂ := h.cacheRead
  have h₃ := h.cacheWrite
  have h₄ := h.output
  unfold charge
  gcongr

/-- Where the cached tokens are counted apart, the charge grows with every count. -/
theorem charge_mono_apart (h : Priced pricing) (hprovider : provider ≠ .openai) (hgrows : Grows usage usage') :
    charge pricing usage provider ≤ charge pricing usage' provider := by
  obtain ⟨hordinary, hread, hwrite⟩ := classes_apart usage hprovider
  obtain ⟨hordinary', hread', hwrite'⟩ := classes_apart usage' hprovider
  refine charge_le_of_classes h ?_ ?_ ?_ hgrows.output
  · rw [hordinary, hordinary']
    exact hgrows.input
  · rw [hread, hread']
    exact hgrows.cacheRead
  · rw [hwrite, hwrite']
    exact hgrows.cacheWrite

/-- The charge grows with input and output. -/
theorem charge_mono_same (h : Priced pricing) (hgrows : Grows usage usage') (hcache : SameCache usage usage') :
    charge pricing usage provider ≤ charge pricing usage' provider := by
  by_cases hprovider : provider = .openai
  · subst hprovider
    obtain ⟨hread, hwrite⟩ := hcache
    have hinput := hgrows.input
    have hbillable := billable_openai usage
    have hbillable' := billable_openai usage'
    refine charge_le_of_classes h ?_ ?_ ?_ hgrows.output
    all_goals
      simp only [ordinaryInputTokens, cacheWriteTokens, cacheReadTokens, hbillable, hbillable', hread, hwrite]
      omega
  · exact charge_mono_apart h hprovider hgrows

/-- The charge, from the billable input and what its cached tokens add. -/
theorem charge_eq (pricing : ModelPricingSnapshot) (usage : GatewayTokenUsage) (provider : GatewayProvider) :
    charge pricing usage provider = billableInputTokens usage provider * pricing.input_per_mtok +
      cacheReadTokens usage provider * (pricing.cache_read_per_mtok - pricing.input_per_mtok) +
      cacheWriteTokens usage provider * (pricing.cache_write_per_mtok - pricing.input_per_mtok) +
      usage.output_tokens * pricing.output_per_mtok := by
  have hsum : (billableInputTokens usage provider : ℚ) =
      ordinaryInputTokens usage provider + cacheReadTokens usage provider + cacheWriteTokens usage provider := by
    exact_mod_cast (classes_sum usage provider).symm
  unfold charge
  rw [hsum]
  ring

/-- Where the cached tokens are inside the input, the charge grows with every count if a token costs no less the more it
has to do with the cache. -/
theorem charge_mono_inside (h : Priced pricing) (hwrite : pricing.input_per_mtok ≤ pricing.cache_write_per_mtok)
    (hread : pricing.cache_write_per_mtok ≤ pricing.cache_read_per_mtok) (hgrows : Grows usage usage') :
    charge pricing usage .openai ≤ charge pricing usage' .openai := by
  have hsplit : ∀ u : GatewayTokenUsage, charge pricing u .openai =
      u.input_tokens * pricing.input_per_mtok +
        (cacheReadTokens u .openai + cacheWriteTokens u .openai : ℕ) *
          (pricing.cache_write_per_mtok - pricing.input_per_mtok) +
        cacheReadTokens u .openai * (pricing.cache_read_per_mtok - pricing.cache_write_per_mtok) +
        u.output_tokens * pricing.output_per_mtok := by
    intro u
    rw [charge_eq, billable_openai]
    push_cast
    ring
  have hinput := hgrows.input
  have hgrowsRead := hgrows.cacheRead
  have hgrowsWrite := hgrows.cacheWrite
  have hcached : cacheReadTokens usage .openai ≤ cacheReadTokens usage' .openai := by
    unfold cacheReadTokens
    rw [billable_openai, billable_openai]
    omega
  have hboth : cacheReadTokens usage .openai + cacheWriteTokens usage .openai ≤
      cacheReadTokens usage' .openai + cacheWriteTokens usage' .openai := by
    unfold cacheWriteTokens cacheReadTokens
    rw [billable_openai, billable_openai]
    omega
  have houtput := hgrows.output
  have hprice := h.input
  have hprice' := h.output
  have hsurcharge : 0 ≤ pricing.cache_write_per_mtok - pricing.input_per_mtok := by linarith
  have hsurcharge' : 0 ≤ pricing.cache_read_per_mtok - pricing.cache_write_per_mtok := by linarith
  rw [hsplit, hsplit]
  gcongr

end

/-! ### The charge and the hold -/

/-- A discounted charge is at most that of ordinary input. -/
theorem charge_le_caps {pricing : ModelPricingSnapshot} (h : Priced pricing) (hdiscounted : Discounted pricing)
    {usage : GatewayTokenUsage} {provider : GatewayProvider} {max_input_tokens max_output_tokens : ℕ}
    (hinput : billableInputTokens usage provider ≤ max_input_tokens) (houtput : usage.output_tokens ≤ max_output_tokens) :
    charge pricing usage provider ≤
      max_input_tokens * pricing.input_per_mtok + max_output_tokens * pricing.output_per_mtok := by
  have hread : cacheReadTokens usage provider * (pricing.cache_read_per_mtok - pricing.input_per_mtok) ≤ 0 :=
    mul_nonpos_of_nonneg_of_nonpos (Nat.cast_nonneg _) (sub_nonpos.mpr hdiscounted.1)
  have hwrite : cacheWriteTokens usage provider * (pricing.cache_write_per_mtok - pricing.input_per_mtok) ≤ 0 :=
    mul_nonpos_of_nonneg_of_nonpos (Nat.cast_nonneg _) (sub_nonpos.mpr hdiscounted.2)
  have hprice := h.input
  have hprice' := h.output
  calc charge pricing usage provider
      ≤ billableInputTokens usage provider * pricing.input_per_mtok + usage.output_tokens * pricing.output_per_mtok := by
        rw [charge_eq]
        linarith
    _ ≤ max_input_tokens * pricing.input_per_mtok + max_output_tokens * pricing.output_per_mtok := by gcongr

theorem gatewayCostUsd_le {pricing : ModelPricingSnapshot} {usage usage' : GatewayTokenUsage} {provider : GatewayProvider}
    (h : charge pricing usage provider ≤ charge pricing usage' provider) :
    gatewayCostUsd pricing usage provider ≤ gatewayCostUsd pricing usage' provider := by
  rw [gatewayCostUsd_eq, gatewayCostUsd_eq]
  have hceil : (⌈charge pricing usage provider⌉ : ℚ) ≤ ⌈charge pricing usage' provider⌉ := by
    exact_mod_cast Int.ceil_mono h
  gcongr

/-- What a charge keeps under a frozen price. -/
structure Billing (pricing : ModelPricingSnapshot) (provider : GatewayProvider) : Prop where
  classes : ∀ usage, ordinaryInputTokens usage provider + cacheReadTokens usage provider +
    cacheWriteTokens usage provider = billableInputTokens usage provider
  nonneg : ∀ usage, 0 ≤ gatewayCostUsd pricing usage provider
  covered : Discounted pricing → ∀ usage max_input_tokens max_output_tokens,
    billableInputTokens usage provider ≤ max_input_tokens → usage.output_tokens ≤ max_output_tokens →
      gatewayCostUsd pricing usage provider ≤ conservativeMaxChargeUsd pricing max_input_tokens max_output_tokens
  grows : ∀ usage usage', Grows usage usage' →
    (provider ≠ .openai ∨ SameCache usage usage' ∨
      (pricing.input_per_mtok ≤ pricing.cache_write_per_mtok ∧ pricing.cache_write_per_mtok ≤ pricing.cache_read_per_mtok)) →
    gatewayCostUsd pricing usage provider ≤ gatewayCostUsd pricing usage' provider

/-- **The charge** of a call under the price of its model. -/
theorem billing (registry : String → Option ModelEntry) (provider : GatewayProvider) (model : String)
    {pricing : ModelPricingSnapshot} (h : snapshotModelPricing registry provider.text model = some pricing) :
    Billing pricing provider := by
  obtain ⟨entry, -, -, -, hpriced⟩ := snapshotModelPricing_iff.mp h
  refine ⟨fun usage => classes_sum usage provider, fun usage => ?_, ?_, ?_⟩
  · have hceil : (0 : ℚ) ≤ ⌈charge pricing usage provider⌉ := by
      exact_mod_cast Int.ceil_nonneg (charge_nonneg hpriced usage provider)
    rw [gatewayCostUsd_eq]
    positivity
  · intro hdiscounted usage max_input_tokens max_output_tokens hinput houtput
    have hceil : (⌈charge pricing usage provider⌉ : ℚ) ≤
        ⌈max_input_tokens * pricing.input_per_mtok + max_output_tokens * pricing.output_per_mtok⌉ := by
      exact_mod_cast Int.ceil_mono (charge_le_caps hpriced hdiscounted hinput houtput)
    unfold conservativeMaxChargeUsd
    rw [gatewayCostUsd_eq]
    gcongr
  · rintro usage usage' hgrows (hprovider | hcache | ⟨hwrite, hread⟩)
    · exact gatewayCostUsd_le (charge_mono_apart hpriced hprovider hgrows)
    · exact gatewayCostUsd_le (charge_mono_same hpriced hgrows hcache)
    · by_cases hprovider : provider = .openai
      · subst hprovider
        exact gatewayCostUsd_le (charge_mono_inside hpriced hwrite hread hgrows)
      · exact gatewayCostUsd_le (charge_mono_apart hpriced hprovider hgrows)

theorem billing_haiku : Billing ⟨1, 1, 1, 5⟩ .anthropic := by
  have hpriced : Priced ⟨1, 1, 1, 5⟩ := by
    constructor
    all_goals norm_num
  have hprice : snapshotModelPricing DEFAULT_MODEL_REGISTRY (GatewayProvider.text .anthropic) "claude-haiku-4-5" =
      some ⟨1, 1, 1, 5⟩ := snapshotModelPricing_iff.mpr ⟨_, rfl, rfl, rfl, hpriced⟩
  exact billing DEFAULT_MODEL_REGISTRY .anthropic "claude-haiku-4-5" hprice

/-! #### Dear and cheap caches -/

def sonnet : ModelEntry := ⟨"anthropic", 2, some (2 / 10), some (25 / 10), 10⟩

/-- An entry with a discount for cached input. -/
def cheapRead : ModelEntry := ⟨"openai", 2, some 1, none, 10⟩

/-- A million tokens written to the cache cost more than a million at the price of the quote. And where the cached tokens
are inside the input, more of them can cost less. -/
theorem hold_exceeded :
    (snapshotModelPricing DEFAULT_MODEL_REGISTRY "anthropic" "claude-sonnet-5" = some (frozen sonnet) ∧
      billableInputTokens ⟨0, 0, 0, 1000000⟩ .anthropic ≤ 1000000 ∧
      conservativeMaxChargeUsd (frozen sonnet) 1000000 0 < gatewayCostUsd (frozen sonnet) ⟨0, 0, 0, 1000000⟩ .anthropic) ∧
      snapshotModelPricing (fun _ => some cheapRead) "openai" "model" = some (frozen cheapRead) ∧
      Grows ⟨1000000, 0, 0, 0⟩ ⟨1000000, 0, 1000000, 0⟩ ∧
      gatewayCostUsd (frozen cheapRead) ⟨1000000, 0, 1000000, 0⟩ .openai <
        gatewayCostUsd (frozen cheapRead) ⟨1000000, 0, 0, 0⟩ .openai := by
  have hsonnet : Priced (frozen sonnet) := by
    constructor
    all_goals norm_num [frozen, sonnet]
  have hcheap : Priced (frozen cheapRead) := by
    constructor
    all_goals norm_num [frozen, cheapRead]
  refine ⟨⟨snapshotModelPricing_iff.mpr ⟨_, rfl, rfl, rfl, hsonnet⟩, by decide, ?_⟩,
    snapshotModelPricing_iff.mpr ⟨_, rfl, rfl, rfl, hcheap⟩, ⟨le_rfl, le_rfl, by decide, le_rfl⟩, ?_⟩
  · have hbillable : billableInputTokens ⟨0, 0, 0, 1000000⟩ .anthropic = 1000000 := rfl
    unfold conservativeMaxChargeUsd gatewayCostUsd
    rw [hbillable]
    norm_num [frozen, sonnet]
  · have hbillable : ∀ cached, billableInputTokens ⟨1000000, 0, cached, 0⟩ .openai = 1000000 := fun _ => rfl
    unfold gatewayCostUsd
    rw [hbillable, hbillable]
    norm_num [frozen, cheapRead]

end Norns.Inference.Charge
