import Norns.Inference.Proxy
import Norns.Lib.Run
import Mathlib.Tactic.Linarith
import Mathlib.Tactic.FieldSimp

/-! # The reservation of a run

The calls of one run under `SqlRunReservationBudget`, interleaved at their awaits: the transaction that
reads the reservation and the settled rows, the check against the holds in memory, the request, the
resolution of the hold, and the meter's row. A maximum charge is a whole number of micro-dollars
(`conservativeMaxChargeUsd_micros`).

* `step`: the awaits of a call;
* `Balanced`: the hold in memory is the sum of the calls that have one, and the calls and rows that the
  check counts stay under the reservation;
* `run_never_oversubscribed`: the reservation holds in every run whose admissions have room for what the check
  leaves out. -/

namespace Norns.Inference.RunReservation

open Norns.Lib Norns.Lib.Run Norns.Inference.Proxy

theorem snapshotModelPricing_nonneg {registry : String → Option ModelEntry} {provider model : String}
    {pricing : ModelPricingSnapshot} (h : snapshotModelPricing registry provider model = some pricing) :
    0 ≤ pricing.input_per_mtok ∧ 0 ≤ pricing.output_per_mtok := by
  unfold snapshotModelPricing at h
  cases hentry : registry model with
  | none =>
    rw [hentry] at h
    cases h
  | some entry =>
    rw [hentry] at h
    dsimp only [bind, Option.bind] at h
    split_ifs at h with hvalid
    cases h
    exact ⟨hvalid.2.1, hvalid.2.2.2.2⟩

theorem conservativeMaxChargeUsd_micros {registry : String → Option ModelEntry} {provider model : String}
    {pricing : ModelPricingSnapshot} (h : snapshotModelPricing registry provider model = some pricing)
    (max_input_tokens max_output_tokens : ℕ) : ∃ micros : ℕ,
      conservativeMaxChargeUsd pricing max_input_tokens max_output_tokens = (micros : ℚ) / 1000000 := by
  obtain ⟨hinput, houtput⟩ := snapshotModelPricing_nonneg h
  have hnonneg : (0 : ℚ) ≤ max_input_tokens * pricing.input_per_mtok +
      max_output_tokens * pricing.output_per_mtok := by positivity
  obtain ⟨micros, hmicros⟩ := Int.eq_ofNat_of_zero_le (Int.ceil_nonneg hnonneg)
  refine ⟨micros, ?_⟩
  unfold conservativeMaxChargeUsd
  rw [hmicros, Int.cast_natCast]

/-! ### Calls and their steps -/

/-- Where a call stands. Its maximum charge is in micro-dollars. -/
inductive Stage
  | arrived (micros : ℕ)
  /-- The transaction has answered; the check is to come. -/
  | read (micros : ℕ) (approved : Option Approved)
  | held (micros : ℕ)
  | refused
  /-- The provider's request is made. -/
  | called (micros : ℕ)
  /-- The hold is dropped; the row is to come. -/
  | settled (micros : ℕ) (costUsd : ℚ)
  | recorded (costUsd : ℚ)
  | released
  deriving DecidableEq

structure State where
  /-- The reservation is active or retained. -/
  live : Bool := true
  /-- The costs of the usage rows. -/
  rows : List ℚ := []
  held : OrdMap String ℚ := .empty
  calls : OrdMap String Stage := .empty

inductive Event
  | arrive (request_id : String) (micros : ℕ)
  | read (request_id : String)
  | decide (request_id : String)
  | request (request_id : String)
  | settle (request_id : String) (costUsd : ℚ)
  | release (request_id : String)
  | record (request_id : String)
  | close
  deriving DecidableEq

section

variable (amountUsd : ℚ) (run : ProxiedRunFacts)

/-- The charge of a call in dollars. -/
def usd (micros : ℤ) : ℚ := micros / 1000000

def State.move (s : State) (request_id : String) (stage : Stage) : State :=
  { s with calls := s.calls.set request_id stage }

/-- The amount of a call leaves the holds of the run. -/
def State.drop (s : State) (micros : ℕ) : State :=
  { s with held := dropHold s.held run.run_id (usd micros) }

/-- One step of the server. -/
def step (s : State) : Event → State
  | .arrive request_id micros =>
    if s.calls.has request_id then s else s.move request_id (.arrived micros)
  | .read request_id =>
    match s.calls.get? request_id with
    | some (.arrived micros) => s.move request_id
        (.read micros (if s.live = true then some ⟨amountUsd, s.rows.sum⟩ else none))
    | _ => s
  | .decide request_id =>
    match s.calls.get? request_id with
    | some (.read micros approved) =>
      match (Budget.sql (.ok approved) s.held).reserve run (usd micros) with
      | .ok (some (.sql held _ _ _)) => { s with held }.move request_id (.held micros)
      | _ => s.move request_id .refused
    | _ => s
  | .request request_id =>
    match s.calls.get? request_id with
    | some (.held micros) => s.move request_id (.called micros)
    | _ => s
  | .settle request_id costUsd =>
    match s.calls.get? request_id with
    | some (.called micros) => (s.drop run micros).move request_id (.settled micros costUsd)
    | _ => s
  | .release request_id =>
    match s.calls.get? request_id with
    | some (.held micros) | some (.called micros) =>
      (s.drop run micros).move request_id .released
    | _ => s
  | .record request_id =>
    match s.calls.get? request_id with
    | some (.settled _ costUsd) =>
      { s with rows := costUsd :: s.rows }.move request_id (.recorded costUsd)
    | _ => s
  | .close => { s with live := false }

/-- The hold of a call in memory. -/
def Stage.inFlight : Stage → ℤ
  | .held micros => micros
  | .called micros => micros
  | _ => 0

/-- The charge of a call whose hold is dropped and whose row is not written. -/
def Stage.unrecorded : Stage → ℤ
  | .settled micros _ => micros
  | _ => 0

/-- The charge of a call whose request is made and whose row is not written. -/
def Stage.exposed : Stage → ℤ
  | .called micros => micros
  | .settled micros _ => micros
  | _ => 0

def State.inFlight (s : State) : ℤ := s.calls.sum fun call => call.2.inFlight

def State.unrecorded (s : State) : ℤ := s.calls.sum fun call => call.2.unrecorded

def State.exposed (s : State) : ℤ := s.calls.sum fun call => call.2.exposed

/-- The rows of the run and the charges of its open calls are covered by its reservation. -/
def Covered (s : State) : Prop := s.rows.sum + usd s.exposed ≤ amountUsd

instance (s : State) : Decidable (Covered amountUsd s) :=
  inferInstanceAs (Decidable (s.rows.sum + usd s.exposed ≤ amountUsd))

/-- A provider's charge is not above the maximum of its call. -/
def Bounded (s : State) : Event → Prop
  | .settle request_id costUsd => ∀ micros, s.calls.get? request_id = some (.called micros) →
      costUsd ≤ usd micros
  | _ => True

/-- The check admits the call. -/
def Admits (s : State) (micros : ℕ) (approved : Approved) : Prop :=
  usd micros ≤ approved.amountUsd - approved.settledUsd - (s.held.get? run.run_id).getD 0

/-- What the check leaves out: the rows written since it was read and the calls settled without a row. -/
def State.uncounted (s : State) (approved : Approved) : ℚ :=
  s.rows.sum - approved.settledUsd + usd s.unrecorded

/-- An admission that leaves something out has room for it beside the rows it read and the holds in
memory. -/
def HasRoom (s : State) : Event → Prop
  | .decide request_id => ∀ micros approved,
      s.calls.get? request_id = some (.read micros (some approved)) → Admits run s micros approved →
        0 < s.uncounted approved →
          usd micros + s.uncounted approved ≤
            approved.amountUsd - approved.settledUsd - (s.held.get? run.run_id).getD 0
  | _ => True

/-! ### The books -/

structure Balanced (s : State) : Prop where
  held : (s.held.get? run.run_id).getD 0 = usd s.inFlight
  covered : s.rows.sum + usd s.inFlight + usd s.unrecorded ≤ amountUsd

end

/-- A call has read the amount of the reservation, and its cost is not above its maximum. -/
def Stage.Sound (amountUsd : ℚ) : Stage → Prop
  | .read _ (some approved) => approved.amountUsd = amountUsd
  | .settled micros costUsd => costUsd ≤ usd micros
  | _ => True

def Sound (amountUsd : ℚ) (s : State) : Prop :=
  ∀ request_id stage, s.calls.get? request_id = some stage → stage.Sound amountUsd

section

variable {amountUsd : ℚ} {run : ProxiedRunFacts} {s : State} {request_id : String}

theorem usd_add (a b : ℤ) : usd (a + b) = usd a + usd b := by
  unfold usd
  push_cast
  ring

theorem usd_sub (a b : ℤ) : usd (a - b) = usd a - usd b := by
  unfold usd
  push_cast
  ring

/-- How a sum over the calls changes with one of them. -/
theorem move_sum {stage : Stage} (f : Stage → ℤ) (h : s.calls.get? request_id = some stage)
    (stage' : Stage) : ((s.move request_id stage').calls.sum fun call => f call.2) =
      (s.calls.sum fun call => f call.2) - f stage + f stage' := by
  unfold State.move
  rw [OrdMap.sum_set, h]

theorem inFlight_nonneg (s : State) : 0 ≤ s.inFlight := by
  unfold State.inFlight OrdMap.sum
  refine List.sum_nonneg ?_
  intro charge hcharge
  obtain ⟨call, -, rfl⟩ := List.mem_map.mp hcharge
  cases call.2 <;> simp [Stage.inFlight]

/-- What is exposed is in flight or without a row. -/
theorem exposed_le (s : State) : s.exposed ≤ s.inFlight + s.unrecorded := by
  have hpoint : ∀ stage : Stage, stage.exposed ≤ stage.inFlight + stage.unrecorded := by
    intro stage
    cases stage <;> simp [Stage.exposed, Stage.inFlight, Stage.unrecorded]
  unfold State.exposed State.inFlight State.unrecorded OrdMap.sum
  rw [← List.sum_map_add]
  exact List.sum_le_sum fun call _ => hpoint call.2

/-- The threshold of `drop` is below every charge. -/
theorem get?_dropHold {held : OrdMap String ℚ} {rest : ℤ} {micros : ℕ} {run_id : String}
    (h : (held.get? run_id).getD 0 = usd (rest + micros)) (hrest : 0 ≤ rest) :
    ((dropHold held run_id (usd micros)).get? run_id).getD 0 = usd rest := by
  have hcurrent : (held.get? run_id).getD 0 - usd micros = usd rest := by
    rw [h, usd_add]
    ring
  unfold dropHold
  dsimp only
  rw [hcurrent]
  split_ifs with hlt
  · rw [OrdMap.get?_set_self]
    rfl
  · rw [OrdMap.get?_delete_self]
    have hzero : rest = 0 := by
      by_contra hne
      have hone : (1 : ℚ) ≤ rest := by exact_mod_cast (by omega : (1 : ℤ) ≤ rest)
      apply hlt
      unfold usd
      linarith
    rw [hzero]
    simp [usd]

/-- The books close on the reservation. -/
theorem Balanced.covers (h : Balanced amountUsd run s) : Covered amountUsd s := by
  unfold Covered
  have hle : usd s.exposed ≤ usd (s.inFlight + s.unrecorded) := by
    have hle : (s.exposed : ℚ) ≤ ((s.inFlight + s.unrecorded : ℤ) : ℚ) := by
      exact_mod_cast exposed_le s
    unfold usd
    linarith
  rw [usd_add] at hle
  have hcovered := h.covered
  linarith

/-- A move of a call that keeps its charges. -/
theorem Balanced.move {stage : Stage} (h : Balanced amountUsd run s)
    (hstage : s.calls.get? request_id = some stage) (stage' : Stage)
    (hinFlight : stage'.inFlight = stage.inFlight)
    (hunrecorded : stage'.unrecorded = stage.unrecorded) :
    Balanced amountUsd run (s.move request_id stage') := by
  have hflight : (s.move request_id stage').inFlight = s.inFlight := by
    refine (move_sum Stage.inFlight hstage stage').trans ?_
    rw [hinFlight]
    exact sub_add_cancel _ _
  have hrows : (s.move request_id stage').unrecorded = s.unrecorded := by
    refine (move_sum Stage.unrecorded hstage stage').trans ?_
    rw [hunrecorded]
    exact sub_add_cancel _ _
  constructor
  · rw [hflight]
    exact h.held
  · rw [hflight, hrows]
    exact h.covered

/-- The hold of a call is dropped. -/
theorem inFlight_drop {stage : Stage} {micros : ℕ} (hstage : s.calls.get? request_id = some stage)
    (hflight : stage.inFlight = micros) (stage' : Stage) (hflight' : stage'.inFlight = 0) :
    ((s.drop run micros).move request_id stage').inFlight = s.inFlight - micros := by
  refine (move_sum (s := s.drop run micros) Stage.inFlight hstage stage').trans ?_
  rw [hflight, hflight', add_zero]
  rfl

theorem held_drop {stage : Stage} {micros : ℕ} (h : Balanced amountUsd run s)
    (hstage : s.calls.get? request_id = some stage) (hflight : stage.inFlight = micros) :
    ((s.drop run micros).held.get? run.run_id).getD 0 = usd (s.inFlight - micros) := by
  refine get?_dropHold ?_ ?_
  · rw [sub_add_cancel]
    exact h.held
  · rw [← @inFlight_drop run _ _ _ _ hstage hflight .released rfl]
    exact inFlight_nonneg _

/-- An admitted call fits into the books: by the check alone where it leaves nothing out. -/
theorem admits_covered {micros : ℕ} {approved : Approved} (h : Balanced amountUsd run s)
    (hsound : Sound amountUsd s) (hstage : s.calls.get? request_id = some (.read micros (some approved)))
    (hadmits : Admits run s micros approved)
    (hroom : 0 < s.uncounted approved → usd micros + s.uncounted approved ≤
      approved.amountUsd - approved.settledUsd - (s.held.get? run.run_id).getD 0) :
    s.rows.sum + (usd s.inFlight + usd micros) + usd s.unrecorded ≤ amountUsd := by
  have hamount : approved.amountUsd = amountUsd := hsound request_id _ hstage
  have hheld := h.held
  unfold Admits at hadmits
  unfold State.uncounted at hroom
  by_cases hpos : 0 < s.rows.sum - approved.settledUsd + usd s.unrecorded
  · have hfits := hroom hpos
    linarith
  · linarith

/-- What an admission adds to the books. -/
theorem decide_balanced (h : Balanced amountUsd run s) (hsound : Sound amountUsd s)
    (hguard : HasRoom run s (.decide request_id)) :
    Balanced amountUsd run (step amountUsd run s (.decide request_id)) := by
  dsimp only [step]
  split
  · rename_i micros approved hstage
    have hrefused := h.move hstage .refused rfl rfl
    cases approved with
    | none => exact hrefused
    | some approved =>
      unfold Budget.reserve
      dsimp only
      by_cases hadmits : Admits run s micros approved
      · have hroom := admits_covered h hsound hstage hadmits (hguard micros approved hstage hadmits)
        rw [if_neg (not_lt.mpr hadmits)]
        dsimp only
        generalize hholds : s.held.set run.run_id _ = holds
        have hsum : (State.move { s with held := holds } request_id (.held micros)).inFlight =
            s.inFlight + micros := by
          refine (move_sum (s := { s with held := holds }) Stage.inFlight hstage _).trans ?_
          simp only [Stage.inFlight, sub_zero]
          rfl
        have hrows : (State.move { s with held := holds } request_id (.held micros)).unrecorded =
            s.unrecorded := by
          refine (move_sum (s := { s with held := holds }) Stage.unrecorded hstage _).trans ?_
          simp only [Stage.unrecorded, sub_zero, add_zero]
          rfl
        constructor
        · rw [hsum, usd_add, ← h.held]
          show (holds.get? run.run_id).getD 0 = _
          rw [← hholds, OrdMap.get?_set_self]
          rfl
        · rw [hsum, hrows, usd_add]
          exact hroom
      · rw [if_pos (not_le.mp hadmits)]
        exact hrefused
  · exact h

/-- A settled call keeps its charge in the books. -/
theorem settle_balanced (h : Balanced amountUsd run s) (costUsd : ℚ) :
    Balanced amountUsd run (step amountUsd run s (.settle request_id costUsd)) := by
  dsimp only [step]
  split
  · rename_i micros hstage
    have hsum := @inFlight_drop run _ _ _ _ hstage rfl (.settled micros costUsd) rfl
    have hrows : ((s.drop run micros).move request_id (.settled micros costUsd)).unrecorded =
        s.unrecorded + micros := by
      refine (move_sum (s := s.drop run micros) Stage.unrecorded hstage _).trans ?_
      simp only [Stage.unrecorded, sub_zero]
      rfl
    constructor
    · rw [hsum]
      exact held_drop h hstage rfl
    · rw [hsum, hrows, usd_sub, usd_add]
      have hcovered := h.covered
      show s.rows.sum + _ + _ ≤ amountUsd
      linarith
  · exact h

theorem release_balanced (h : Balanced amountUsd run s) :
    Balanced amountUsd run (step amountUsd run s (.release request_id)) := by
  have hrelease : ∀ {stage : Stage} {micros : ℕ}, s.calls.get? request_id = some stage →
      stage.inFlight = micros → stage.unrecorded = 0 →
      Balanced amountUsd run ((s.drop run micros).move request_id .released) := by
    intro stage micros hstage hflight hunrecorded
    have hsum := @inFlight_drop run _ _ _ _ hstage hflight .released rfl
    have hrows : ((s.drop run micros).move request_id .released).unrecorded = s.unrecorded := by
      refine (move_sum (s := s.drop run micros) Stage.unrecorded hstage _).trans ?_
      rw [hunrecorded]
      exact sub_add_cancel _ _
    constructor
    · rw [hsum]
      exact held_drop h hstage hflight
    · rw [hsum, hrows, usd_sub]
      have hcovered := h.covered
      have hnonneg : (0 : ℚ) ≤ usd micros := by
        unfold usd
        positivity
      show s.rows.sum + _ + _ ≤ amountUsd
      linarith
  dsimp only [step]
  split
  · rename_i micros hstage
    exact hrelease hstage rfl rfl
  · rename_i micros hstage
    exact hrelease hstage rfl rfl
  · exact h

/-- A row that is written takes the place of its call's charge. -/
theorem record_balanced (h : Balanced amountUsd run s) (hsound : Sound amountUsd s) :
    Balanced amountUsd run (step amountUsd run s (.record request_id)) := by
  dsimp only [step]
  split
  · rename_i micros costUsd hstage
    have hcost : costUsd ≤ usd micros := hsound request_id _ hstage
    have hsum : (State.move { s with rows := costUsd :: s.rows } request_id
        (.recorded costUsd)).inFlight = s.inFlight := by
      refine (move_sum (s := { s with rows := costUsd :: s.rows }) Stage.inFlight hstage _).trans ?_
      simp only [Stage.inFlight, sub_zero, add_zero]
      rfl
    have hrows : (State.move { s with rows := costUsd :: s.rows } request_id
        (.recorded costUsd)).unrecorded = s.unrecorded - micros := by
      refine (move_sum (s := { s with rows := costUsd :: s.rows }) Stage.unrecorded hstage _).trans ?_
      simp only [Stage.unrecorded, add_zero]
      rfl
    constructor
    · rw [hsum]
      exact h.held
    · rw [hsum, hrows, usd_sub]
      have hcovered := h.covered
      show (costUsd :: s.rows).sum + _ + _ ≤ amountUsd
      rw [List.sum_cons]
      linarith
  · exact h

theorem Sound.move (h : Sound amountUsd s) {stage : Stage} (hstage : stage.Sound amountUsd) :
    Sound amountUsd (s.move request_id stage) := by
  intro id other hget
  unfold State.move at hget
  dsimp only at hget
  rw [OrdMap.get?_set] at hget
  split_ifs at hget
  · cases hget
    exact hstage
  · exact h id other hget

/-- One step, of a provider that keeps to the maximum. -/
theorem step_sound (h : Sound amountUsd s) (event : Event) (hbounded : Bounded s event) :
    Sound amountUsd (step amountUsd run s event) := by
  cases event with
  | arrive request_id micros =>
    dsimp only [step]
    split_ifs
    · exact h
    · exact h.move trivial
  | read request_id =>
    dsimp only [step]
    split
    · refine h.move ?_
      split_ifs
      · exact rfl
      · exact trivial
    · exact h
  | decide request_id =>
    dsimp only [step]
    split
    · split
      · exact Sound.move (s := { s with held := _ }) h trivial
      · exact h.move trivial
    · exact h
  | request request_id =>
    dsimp only [step]
    split
    · exact h.move trivial
    · exact h
  | settle request_id costUsd =>
    dsimp only [step]
    split
    · rename_i micros hstage
      exact Sound.move (s := s.drop run micros) h (hbounded micros hstage)
    · exact h
  | release request_id =>
    dsimp only [step]
    split
    · exact Sound.move (s := s.drop run _) h trivial
    · exact Sound.move (s := s.drop run _) h trivial
    · exact h
  | record request_id =>
    dsimp only [step]
    split
    · exact Sound.move (s := { s with rows := _ }) h trivial
    · exact h
  | close => exact h

/-- One step, whose admission has room for what it leaves out. -/
theorem step_balanced (h : Balanced amountUsd run s) (hsound : Sound amountUsd s) (event : Event)
    (hguard : HasRoom run s event) : Balanced amountUsd run (step amountUsd run s event) := by
  cases event with
  | arrive request_id micros =>
    dsimp only [step]
    split_ifs with hhas
    · exact h
    · have hnone : s.calls.get? request_id = none := by
        unfold OrdMap.has at hhas
        simpa using hhas
      have hflight : (s.move request_id (.arrived micros)).inFlight = s.inFlight := by
        unfold State.inFlight State.move
        rw [OrdMap.sum_set, hnone]
        simp [Stage.inFlight]
      have hrows : (s.move request_id (.arrived micros)).unrecorded = s.unrecorded := by
        unfold State.unrecorded State.move
        rw [OrdMap.sum_set, hnone]
        simp [Stage.unrecorded]
      constructor
      · rw [hflight]
        exact h.held
      · rw [hflight, hrows]
        exact h.covered
  | read request_id =>
    dsimp only [step]
    split
    · rename_i micros hstage
      exact h.move hstage _ rfl rfl
    · exact h
  | decide request_id => exact decide_balanced h hsound hguard
  | request request_id =>
    dsimp only [step]
    split
    · rename_i micros hstage
      exact h.move hstage _ rfl rfl
    · exact h
  | settle request_id costUsd => exact settle_balanced h costUsd
  | release request_id => exact release_balanced h
  | record request_id => exact record_balanced h hsound
  | close => exact ⟨h.held, h.covered⟩

end

section

variable (amountUsd : ℚ) (run : ProxiedRunFacts)

theorem start_balanced (hamount : 0 ≤ amountUsd) : Balanced amountUsd run {} := by
  constructor
  · simp [State.inFlight, OrdMap.sum, OrdMap.get?, OrdMap.empty, Assoc.lookup, usd]
  · simpa [State.inFlight, State.unrecorded, OrdMap.sum, OrdMap.empty, usd] using hamount

/-- The reservation of a run covers its rows and its open calls after every run of the server whose
admissions have room for the rows written since they were read and the calls settled without a row. -/
theorem run_never_oversubscribed (hamount : 0 ≤ amountUsd) (events : List Event)
    (h : Along (step amountUsd run) (fun s event => Bounded s event ∧ HasRoom run s event) {} events) :
    Covered amountUsd (Run.run (step amountUsd run) {} events) := by
  have hinv : Balanced amountUsd run (Run.run (step amountUsd run) {} events) ∧
      Sound amountUsd (Run.run (step amountUsd run) {} events) := by
    refine run_induct (I := fun s => Balanced amountUsd run s ∧ Sound amountUsd s) ?_ ?_ h
    · rintro s event ⟨hbalanced, hsound⟩ ⟨hbounded, hroom⟩
      exact ⟨step_balanced hbalanced hsound event hroom, step_sound hsound event hbounded⟩
    · refine ⟨start_balanced amountUsd run hamount, ?_⟩
      intro request_id stage hget
      cases hget
  exact hinv.1.covers

end

/-! A call of sixty cents on a reservation of a dollar, settled and without a row, and after it a call of
thirty cents, for which there is room, and one of sixty, for which there is none. -/

def firstCall : List Event :=
  [.arrive "a" 600000, .read "a", .decide "a", .request "a", .settle "a" (3 / 5)]

def secondCall (micros : ℕ) : List Event := [.arrive "b" micros, .read "b", .decide "b", .request "b"]

theorem firstCall_called :
    (Run.run (step 1 paidRun) {} (firstCall.take 4)).calls.get? "a" = some (.called 600000) := by decide +kernel

theorem run_never_oversubscribed_of_room :
    Covered 1 (Run.run (step 1 paidRun) {} (firstCall ++ secondCall 300000)) := by
  refine run_never_oversubscribed 1 paidRun (by decide +kernel) _ ?_
  refine ⟨⟨trivial, trivial⟩, ⟨trivial, trivial⟩, ⟨trivial, ?_⟩, ⟨trivial, trivial⟩, ⟨?_, trivial⟩,
    ⟨trivial, trivial⟩, ⟨trivial, trivial⟩, ⟨trivial, ?_⟩, ⟨trivial, trivial⟩, trivial⟩
  · intro micros approved hget _
    have hread : (Run.run (step 1 paidRun) {} (firstCall.take 2)).calls.get? "a" =
        some (.read 600000 (some ⟨1, 0⟩)) := by decide +kernel
    cases hread.symm.trans hget
    decide +kernel
  · intro micros hget
    cases firstCall_called.symm.trans hget
    decide +kernel
  · intro micros approved hget _
    have hread : (Run.run (step 1 paidRun) {} (firstCall ++ (secondCall 300000).take 2)).calls.get? "b" =
        some (.read 300000 (some ⟨1, 0⟩)) := by decide +kernel
    cases hread.symm.trans hget
    decide +kernel

theorem settled_call_uncounted :
    Along (step 1 paidRun) Bounded {} (firstCall ++ secondCall 600000) ∧
      ¬ Covered 1 (Run.run (step 1 paidRun) {} (firstCall ++ secondCall 600000)) := by
  refine ⟨⟨trivial, trivial, trivial, trivial, ?_, trivial, trivial, trivial, trivial, trivial⟩,
    by decide +kernel⟩
  intro micros hget
  cases firstCall_called.symm.trans hget
  decide +kernel

end Norns.Inference.RunReservation
