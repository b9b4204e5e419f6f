import Norns.Contracts.Plan
import Norns.Lib.Edit
import Mathlib.Algebra.Order.Floor.Semiring
import Mathlib.Data.Rat.Floor
import Mathlib.Data.List.ReduceOption

/-! # Planning sessions

`runPlanning` (`session.ts`): the project manager drafts a plan, the reviewer finds faults, the project manager
answers and revises, until the reviewer is satisfied or the rounds are used up. What the adapters and the observer do
is a function of the number of calls made before, so that any behaviour is covered; the prompts are left out.

* `generateValidPlan`, `reviewRounds`, `runPlanning`: the session, as an edit of its lists that may throw;
* `Recorded`, `Ready`: what holds of the lists whenever the session is left, and before each round;
* `generateValidPlan_spec`, `reviewRounds_spec`: the two loops;
* `runPlanning_spec`: what a session records and returns, within how many calls. -/

namespace Norns.Planning.Session

open Norns.Contracts.Plan Norns.Lib.Edit

/-! ### Reviews -/

inductive ReviewSeverity
  | must_fix | should_fix | suggestion
  deriving DecidableEq, Repr

structure ReviewFinding where
  severity : ReviewSeverity
  module_id : Option String
  finding : String
  recommendation : String
  deriving DecidableEq, Repr

inductive FindingDisposition
  | accept | rebut
  deriving DecidableEq, Repr

structure FindingResponse where
  finding_index : ℕ
  disposition : FindingDisposition
  rationale : String
  deriving DecidableEq, Repr

def mustFixCount (findings : List ReviewFinding) : ℕ := (findings.filter fun f => f.severity = .must_fix).length

structure ReviewPolicyRecord where
  requested_policy : String
  pm_provider : String
  pm_model : String
  reviewer_provider : String
  reviewer_model : String
  exception_reason : Option String
  exception_approved_by : Option String
  deriving DecidableEq, Repr

structure PlanVersionRecord where
  version : ℕ
  plan : PlanContract
  /-- The review of this version. -/
  findings : Option (List ReviewFinding)
  /-- The dispositions that produced the next version. -/
  responses : Option (List FindingResponse)
  deriving DecidableEq, Repr

inductive PlanningStatus
  | converged | cap_reached
  deriving DecidableEq, Repr

structure PlanningResult (υ : Type) where
  status : PlanningStatus
  rounds : ℕ
  versions : List PlanVersionRecord
  finalPlan : PlanContract
  outstanding : List ReviewFinding
  policy : ReviewPolicyRecord
  usage : List υ

inductive PlanningErrorCode
  | same_provider | plan_invalid | missing_dispositions
  deriving DecidableEq, Repr

inductive Failure
  | planning (code : PlanningErrorCode) (message : String)
  /-- An adapter call that threw. -/
  | adapter
  /-- `onRound` threw. -/
  | hook
  | unreachable
  deriving DecidableEq, Repr

inductive RoundPhase
  | draft | review | revision
  deriving DecidableEq, Repr

structure Adapter where
  provider : String
  model : String

/-- The options, with the answers of the adapters: what a call returns, after so many calls, or `none` if it throws. -/
structure PlanningOptions (Input υ : Type) where
  pm : Adapter
  reviewer : Adapter
  maxRounds : ℚ := 1
  maxValidationRetries : ℚ := 2
  /-- Its reason, and who approved it. -/
  reviewException : Option (String × String) := none
  draft : ℕ → Option (Input × υ)
  review : ℕ → Option (List ReviewFinding × υ)
  revise : ℕ → Option ((List FindingResponse × Input) × υ)
  /-- `onRound` throws. -/
  hookFails : ℕ → RoundPhase → Bool := fun _ _ => false

/-- The lists that the session fills. -/
structure State (υ : Type) where
  /-- The adapter calls, each with the usage that it returned. -/
  calls : List (Option υ)
  usage : List υ
  versions : List PlanVersionRecord

variable {Input υ : Type}

/-! ### The session -/

def complete {α : Type} (answer : ℕ → Option (α × υ)) : EStateM Failure (State υ) α := do
  let s ← get
  match answer s.calls.length with
  | none =>
    set { s with calls := s.calls ++ [none] }
    throw .adapter
  | some (value, usage) =>
    -- `usage.push(draft.usage)` follows every call
    set { s with calls := s.calls ++ [some usage], usage := s.usage ++ [usage] }
    return value

section

variable (safeParse : Input → Except (List SchemaIssue) PlanContract) (o : PlanningOptions Input υ)

/-- `options.onRound?.({ round, phase, plan })` -/
def onRound (round : ℕ) (phase : RoundPhase) : EStateM Failure (State υ) Unit :=
  if o.hookFails round phase then throw .hook else return ()

/-- The attempts that are left. -/
def generateValidPlan : ℕ → EStateM Failure (State υ) PlanContract
  | 0 => throw (.planning .plan_invalid "plan failed engine validation after retries")
  | attempts + 1 => do
    let draft ← complete o.draft
    match validatePlan safeParse draft with
    | .ok plan => return plan
    | .error _ => generateValidPlan attempts

/-- `for (let attempt = 0; attempt <= maxValidationRetries; attempt += 1)` -/
def PlanningOptions.attempts : ℕ := ⌊o.maxValidationRetries + 1⌋₊

/-- The plan of a revision, or another one where it is not valid. -/
def revisedPlan (revision : Input) : EStateM Failure (State υ) PlanContract :=
  match validatePlan safeParse revision with
  | .ok plan => return plan
  | .error _ => generateValidPlan safeParse o o.attempts

/-- `current` is the last version. -/
def setCurrent (f : PlanVersionRecord → PlanVersionRecord) (versions : List PlanVersionRecord) : List PlanVersionRecord :=
  versions.dropLast ++ (versions.getLast?.map f).toList

def reviewPolicy : ReviewPolicyRecord where
  requested_policy := "cross_provider"
  pm_provider := o.pm.provider
  pm_model := o.pm.model
  reviewer_provider := o.reviewer.provider
  reviewer_model := o.reviewer.model
  exception_reason := o.reviewException.map Prod.fst
  exception_approved_by := o.reviewException.map Prod.snd

/-- The must-fix findings without a response. -/
def unanswered (findings : List ReviewFinding) (responses : List FindingResponse) : List ℕ :=
  ((findings.zipIdx).filter fun f =>
    f.1.severity = .must_fix && f.2 ∉ responses.map FindingResponse.finding_index).map Prod.snd

def missingDispositions (indices : List ℕ) : Failure :=
  .planning .missing_dispositions
    ("PM left must-fix findings without a disposition: " ++ String.intercalate ", " (indices.map toString))

def result (s : State υ) (status : PlanningStatus) (round : ℕ) (plan : PlanContract) (outstanding : List ReviewFinding) :
    PlanningResult υ :=
  ⟨status, round, s.versions, plan, outstanding, reviewPolicy o, s.usage⟩

/-- The rounds that are left, from `round` on. -/
def reviewRounds : ℕ → ℕ → PlanContract → EStateM Failure (State υ) (PlanningResult υ)
  | 0, _, _ => throw .unreachable
  | remaining + 1, round, plan => do
    let findings ← complete o.review
    modify fun s => { s with versions := setCurrent (fun v => { v with findings := some findings }) s.versions }
    onRound o round .review
    if mustFixCount findings = 0 then
      return result o (← get) .converged round plan []
    else if (round : ℚ) = o.maxRounds then
      return result o (← get) .cap_reached round plan (findings.filter fun f => f.severity = .must_fix)
    else do
      let revision ← complete o.revise
      if unanswered findings revision.1 ≠ [] then throw (missingDispositions (unanswered findings revision.1))
      else do
        let plan ← revisedPlan safeParse o revision.2
        modify fun s => { s with
          versions := setCurrent (fun v => { v with responses := some revision.1 }) s.versions }
        modify fun s => { s with versions := s.versions ++ [⟨s.versions.length + 1, plan, none, none⟩] }
        onRound o round .revision
        reviewRounds remaining (round + 1) plan

def sameProvider : Failure :=
  .planning .same_provider
    "cross-provider review is the default policy; a documented human-approved exception is required to use the same provider"

def runPlanning : EStateM Failure (State υ) (PlanningResult υ) :=
  if o.pm.provider = o.reviewer.provider ∧ o.reviewException = none then throw sameProvider
  else do
    let plan ← generateValidPlan safeParse o o.attempts
    modify fun s => { s with versions := s.versions ++ [⟨1, plan, none, none⟩] }
    onRound o 1 .draft
    reviewRounds safeParse o ⌊o.maxRounds⌋₊ 1 plan

end

def initial : State υ := ⟨[], [], []⟩

/-! ### What holds of the lists -/

/-- Every must-fix finding has a disposition. -/
def PlanVersionRecord.Answered (v : PlanVersionRecord) : Prop :=
  ∃ findings responses, v.findings = some findings ∧ v.responses = some responses ∧
    ∀ i f, findings[i]? = some f → f.severity = .must_fix → ∃ r ∈ responses, r.finding_index = i

section

variable (safeParse : Input → Except (List SchemaIssue) PlanContract) (raw : PlanContract → Input)

/-- The plan, read again, passes `validatePlan`. -/
def Passes (plan : PlanContract) : Prop := validatePlan safeParse (raw plan) = .ok plan

/-- What holds whenever the session is left. -/
structure Recorded (s : State υ) : Prop where
  plans : ∀ v ∈ s.versions, Passes safeParse raw v.plan
  numbered : s.versions.map PlanVersionRecord.version = List.range' 1 s.versions.length
  answered : ∀ v ∈ s.versions.dropLast, v.Answered
  metered : s.usage = s.calls.reduceOption

/-- What holds before a round: the earlier versions are `done`, and the plan is the last one. -/
structure Ready (done : List PlanVersionRecord) (plan : PlanContract) (s : State υ) : Prop where
  versions : s.versions = done ++ [⟨done.length + 1, plan, none, none⟩]
  passes : Passes safeParse raw plan
  earlier : ∀ v ∈ done, Passes safeParse raw v.plan ∧ v.Answered
  numbered : done.map PlanVersionRecord.version = List.range' 1 done.length
  metered : s.usage = s.calls.reduceOption

/-- What is returned, about the lists left behind. -/
structure Outcome (r : PlanningResult υ) (s : State υ) : Prop where
  recorded : Recorded safeParse raw s
  versions : r.versions = s.versions
  usage : r.usage = s.usage
  rounds : r.rounds = s.versions.length
  /-- The final plan is the last version, and its review decides. -/
  final : ∃ v findings, s.versions.getLast? = some v ∧ v.plan = r.finalPlan ∧ v.findings = some findings ∧
    (r.status = .converged ↔ mustFixCount findings = 0) ∧
    r.outstanding = findings.filter fun f => f.severity = .must_fix

/-- Calls were made, at most `n`, and nothing else has changed. -/
structure Metered (s s' : State υ) (n : ℕ) : Prop where
  versions : s'.versions = s.versions
  metered : s'.usage = s'.calls.reduceOption
  calls : s'.calls.length ≤ s.calls.length + n

end

theorem setCurrent_concat (f : PlanVersionRecord → PlanVersionRecord) (done : List PlanVersionRecord)
    (v : PlanVersionRecord) : setCurrent f (done ++ [v]) = done ++ [f v] := by
  unfold setCurrent
  rw [List.dropLast_concat, List.getLast?_concat]
  rfl

/-- Where no index is missing, every must-fix finding has a response. -/
theorem answered_of_unanswered {findings : List ReviewFinding} {responses : List FindingResponse}
    (h : unanswered findings responses = []) {i : ℕ} {f : ReviewFinding} (hf : findings[i]? = some f)
    (hmust : f.severity = .must_fix) : ∃ r ∈ responses, r.finding_index = i := by
  unfold unanswered at h
  rw [List.map_eq_nil_iff, List.filter_eq_nil_iff] at h
  have hmem : (f, i) ∈ findings.zipIdx := List.mk_mem_zipIdx_iff_getElem?.mpr hf
  have hindex := h (f, i) hmem
  simp only [hmust, decide_true, Bool.true_and, decide_eq_true_eq, not_not, List.mem_map] at hindex
  exact hindex

section

variable {safeParse : Input → Except (List SchemaIssue) PlanContract} {raw : PlanContract → Input}
  {o : PlanningOptions Input υ}

theorem sat_complete {α : Type} {answer : ℕ → Option (α × υ)} {s : State υ} {ok : α → State υ → Prop}
    {err : Failure → State υ → Prop} (hthrow : err .adapter { s with calls := s.calls ++ [none] })
    (hok : ∀ value usage, ok value { s with calls := s.calls ++ [some usage], usage := s.usage ++ [usage] }) :
    Sat (complete answer) s ok err := by
  unfold complete
  rw [sat_bind, sat_get]
  rcases answer s.calls.length with _ | ⟨value, usage⟩
  · exact hthrow
  · exact hok value usage

/-- A call is metered, also one that throws. -/
theorem metered_complete {α : Type} (answer : ℕ → Option (α × υ)) {s : State υ} (h : s.usage = s.calls.reduceOption) :
    Sat (complete answer) s (fun _ s' => Metered s s' 1) fun _ s' => Metered s s' 1 := by
  refine sat_complete ⟨rfl, ?_, ?_⟩ fun value usage => ⟨rfl, ?_, ?_⟩
  · rw [List.reduceOption_append, ← h]
    exact (List.append_nil _).symm
  · simp
  · rw [List.reduceOption_append, ← h]
    rfl
  · simp

theorem Metered.trans {s s' s'' : State υ} {m n : ℕ} (h : Metered s s' m) (h' : Metered s' s'' n) :
    Metered s s'' (m + n) := by
  have hcalls := h.calls
  have hcalls' := h'.calls
  exact ⟨h'.versions.trans h.versions, h'.metered, by omega⟩

theorem Metered.mono {s s' : State υ} {m n : ℕ} (h : Metered s s' m) (hle : m ≤ n) : Metered s s' n := by
  have hcalls := h.calls
  exact ⟨h.versions, h.metered, by omega⟩

theorem Metered.refl {s : State υ} (h : s.usage = s.calls.reduceOption) (n : ℕ) : Metered s s n :=
  ⟨rfl, h, by omega⟩

variable (hreparse : ∀ input plan, safeParse input = .ok plan → safeParse (raw plan) = .ok plan)

include hreparse

/-- An accepted plan is accepted again. -/
theorem passes_of_validatePlan {input : Input} {plan : PlanContract} (h : validatePlan safeParse input = .ok plan) :
    Passes safeParse raw plan := by
  rcases hp : safeParse input with issues | parsed
  · unfold validatePlan at h
    rw [hp] at h
    cases h
  · obtain rfl := validatePlan_same hp h
    exact (validatePlan_iff (hreparse input plan hp)).mpr (validatePlan_valid h)

/-- **Attempts at a plan**, by induction on those that are left. -/
theorem generateValidPlan_spec (attempts : ℕ) : ∀ {s : State υ}, s.usage = s.calls.reduceOption →
    Sat (generateValidPlan safeParse o attempts) s
      (fun plan s' => Passes safeParse raw plan ∧ Metered s s' attempts) fun _ s' => Metered s s' attempts := by
  induction attempts with
  | zero => exact fun h => Metered.refl h 0
  | succ attempts ih =>
    intro s h
    unfold generateValidPlan
    refine ((metered_complete o.draft h).mono (fun _ _ hm => hm) fun _ _ hm => hm.mono (by omega)).bind fun draft s' hm => ?_
    rcases hplan : validatePlan safeParse draft with errors | plan
    · refine (ih hm.metered).mono ?_ ?_
      · exact fun plan s'' ⟨hpasses, hrest⟩ => ⟨hpasses, (hm.trans hrest).mono (by omega)⟩
      · exact fun _ s'' hrest => (hm.trans hrest).mono (by omega)
    · exact ⟨passes_of_validatePlan hreparse hplan, hm.mono (by omega)⟩

theorem revisedPlan_spec (revision : Input) {s : State υ} (h : s.usage = s.calls.reduceOption) :
    Sat (revisedPlan safeParse o revision) s (fun plan s' => Passes safeParse raw plan ∧ Metered s s' o.attempts)
      fun _ s' => Metered s s' o.attempts := by
  unfold revisedPlan
  rcases hplan : validatePlan safeParse revision with errors | plan
  · exact generateValidPlan_spec hreparse o.attempts h
  · exact ⟨passes_of_validatePlan hreparse hplan, Metered.refl h _⟩

omit hreparse

/-- What is ready is recorded, whatever the review of the last version. -/
theorem Ready.recorded {done : List PlanVersionRecord} {plan : PlanContract} {s s' : State υ}
    (h : Ready safeParse raw done plan s) {v : PlanVersionRecord} (hversion : v.version = done.length + 1)
    (hplan : v.plan = plan) (hversions : s'.versions = done ++ [v]) (hmetered : s'.usage = s'.calls.reduceOption) :
    Recorded safeParse raw s' := by
  refine ⟨?_, ?_, ?_, hmetered⟩
  · intro w hw
    rw [hversions, List.mem_append, List.mem_singleton] at hw
    rcases hw with hw | rfl
    · exact (h.earlier w hw).1
    · rw [hplan]
      exact h.passes
  · rw [hversions, List.map_append, h.numbered, List.length_append, List.length_singleton, List.range'_concat]
    simp [hversion, Nat.add_comm]
  · rw [hversions, List.dropLast_concat]
    exact fun w hw => (h.earlier w hw).2

/-- The last version was answered, and another one is added. -/
theorem Ready.next {done : List PlanVersionRecord} {plan : PlanContract} {s s' : State υ}
    (h : Ready safeParse raw done plan s) {current : PlanVersionRecord} (hversion : current.version = done.length + 1)
    (hplan : current.plan = plan) (hanswered : current.Answered) {revised : PlanContract}
    (hpasses : Passes safeParse raw revised)
    (hversions : s'.versions = done ++ [current] ++ [⟨(done ++ [current]).length + 1, revised, none, none⟩])
    (hmetered : s'.usage = s'.calls.reduceOption) : Ready safeParse raw (done ++ [current]) revised s' := by
  refine ⟨hversions, hpasses, fun w hw => ?_, ?_, hmetered⟩
  · rw [List.mem_append, List.mem_singleton] at hw
    rcases hw with hw | rfl
    · exact h.earlier w hw
    · rw [hplan]
      exact ⟨h.passes, hanswered⟩
  · rw [List.map_append, h.numbered, List.length_append, List.length_singleton, List.range'_concat]
    simp [hversion, Nat.add_comm]

theorem sat_onRound {round : ℕ} {phase : RoundPhase} {s : State υ} {ok : Unit → State υ → Prop}
    {err : Failure → State υ → Prop} (herr : err .hook s) (hok : ok () s) : Sat (onRound o round phase) s ok err := by
  unfold onRound
  split_ifs
  · exact herr
  · exact hok

include hreparse

/-- **The rounds**, by induction on those that are left. -/
theorem reviewRounds_spec (remaining : ℕ) : ∀ {done : List PlanVersionRecord} {plan : PlanContract} {s : State υ},
    Ready safeParse raw done plan s →
    Sat (reviewRounds safeParse o remaining (done.length + 1) plan) s
      (fun r s' => Outcome safeParse raw r s' ∧ s'.calls.length ≤ s.calls.length + remaining * (2 + o.attempts))
      fun _ s' => Recorded safeParse raw s' ∧ s'.calls.length ≤ s.calls.length + remaining * (2 + o.attempts) := by
  induction remaining with
  | zero => exact fun h => ⟨h.recorded rfl rfl h.versions h.metered, by omega⟩
  | succ remaining ih =>
    intro done plan s h
    have hbudget : (remaining + 1) * (2 + o.attempts) = remaining * (2 + o.attempts) + 2 + o.attempts := by ring
    unfold reviewRounds
    refine ((metered_complete o.review h.metered).mono (fun _ _ hm => hm) ?_).bind fun findings s1 hm1 => ?_
    · intro _ s1 hm1
      have hcalls := hm1.calls
      exact ⟨h.recorded rfl rfl (hm1.versions.trans h.versions) hm1.metered, by omega⟩
    have hcalls1 := hm1.calls
    have hversions1 : setCurrent (fun v => { v with findings := some findings }) s1.versions =
        done ++ [⟨done.length + 1, plan, some findings, none⟩] := by
      rw [hm1.versions, h.versions, setCurrent_concat]
    have hlength1 : (done ++ [⟨done.length + 1, plan, some findings, none⟩] : List PlanVersionRecord).length =
        done.length + 1 := by simp
    rw [sat_bind, sat_modify, hversions1]
    have hreviewed : Recorded safeParse raw
        { s1 with versions := done ++ [⟨done.length + 1, plan, some findings, none⟩] } :=
      h.recorded rfl rfl rfl hm1.metered
    rw [sat_bind]
    refine sat_onRound ⟨hreviewed, by show s1.calls.length ≤ _; omega⟩ ?_
    by_cases hconverged : mustFixCount findings = 0
    · rw [if_pos hconverged, sat_bind, sat_get, sat_pure]
      refine ⟨⟨hreviewed, rfl, rfl, hlength1.symm, ?_⟩, by show s1.calls.length ≤ _; omega⟩
      refine ⟨_, findings, List.getLast?_concat, rfl, rfl, iff_of_true rfl hconverged, ?_⟩
      exact (List.eq_nil_of_length_eq_zero hconverged).symm
    rw [if_neg hconverged]
    by_cases hcap : ((done.length + 1 : ℕ) : ℚ) = o.maxRounds
    · rw [if_pos hcap, sat_bind, sat_get, sat_pure]
      refine ⟨⟨hreviewed, rfl, rfl, hlength1.symm, ?_⟩, by show s1.calls.length ≤ _; omega⟩
      exact ⟨_, findings, List.getLast?_concat, rfl, rfl, iff_of_false PlanningStatus.noConfusion hconverged, rfl⟩
    rw [if_neg hcap]
    have hcall := metered_complete o.revise hreviewed.metered
    refine (hcall.mono (fun _ _ hm => hm) ?_).bind fun revision s2 hm2 => ?_
    · intro _ s2 hm2
      have hcalls2 : s2.calls.length ≤ s1.calls.length + 1 := hm2.calls
      exact ⟨h.recorded rfl rfl hm2.versions hm2.metered, by omega⟩
    have hcalls2 : s2.calls.length ≤ s1.calls.length + 1 := hm2.calls
    by_cases hunanswered : unanswered findings revision.1 = []
    · rw [if_neg (by simpa using hunanswered), sat_bind]
      refine Sat.mono (revisedPlan_spec hreparse revision.2 hm2.metered) ?_ fun _ s3 hm3 => ?_
      · rintro plan' s3 ⟨hpasses, hm3⟩
        have hcalls3 := hm3.calls
        have hversions3 : s3.versions = done ++ [⟨done.length + 1, plan, some findings, none⟩] :=
          hm3.versions.trans hm2.versions
        rw [sat_bind, sat_modify, hversions3, setCurrent_concat, sat_bind, sat_modify, sat_bind]
        obtain ⟨current, hcurrent⟩ : ∃ v : PlanVersionRecord,
          ⟨done.length + 1, plan, some findings, some revision.1⟩ = v := ⟨_, rfl⟩
        rw [hcurrent]
        have hready : Ready safeParse raw (done ++ [current]) plan' { s3 with versions := done ++ [current] ++
            [⟨(done ++ [current]).length + 1, plan', none, none⟩] } := by
          subst hcurrent
          exact h.next rfl rfl ⟨findings, revision.1, rfl, rfl, fun i f => answered_of_unanswered hunanswered⟩ hpasses
            rfl hm3.metered
        have hcalls : s3.calls.length + remaining * (2 + o.attempts) ≤
            s.calls.length + (remaining + 1) * (2 + o.attempts) := by omega
        refine sat_onRound ⟨hready.recorded rfl rfl rfl hm3.metered, ?_⟩ ?_
        · show s3.calls.length ≤ _
          omega
        · rw [show done.length + 1 + 1 = (done ++ [current]).length + 1 by rw [List.length_append]; rfl]
          refine Sat.mono (ih hready) ?_ ?_
          · exact fun r s4 hr => ⟨hr.1, Nat.le_trans hr.2 hcalls⟩
          · exact fun _ s4 hr => ⟨hr.1, Nat.le_trans hr.2 hcalls⟩
      · have hcalls3 := hm3.calls
        exact ⟨h.recorded rfl rfl (hm3.versions.trans hm2.versions) hm3.metered, by omega⟩
    · rw [if_pos hunanswered, sat_throw]
      exact ⟨h.recorded rfl rfl hm2.versions hm2.metered, by omega⟩

/-- **A planning session**, whatever the adapters do and for any number of rounds: it ends within a bounded number of
calls, and what it has recorded and what it returns agree. -/
theorem runPlanning_spec (o : PlanningOptions Input υ) :
    Sat (runPlanning safeParse o) initial
      (fun r s => Outcome safeParse raw r s ∧ s.calls.length ≤ o.attempts + ⌊o.maxRounds⌋₊ * (2 + o.attempts))
      fun _ s => Recorded safeParse raw s ∧ s.calls.length ≤ o.attempts + ⌊o.maxRounds⌋₊ * (2 + o.attempts) := by
  have hinitial : Recorded safeParse raw (initial : State υ) :=
    ⟨fun v hv => absurd hv List.not_mem_nil, rfl, fun v hv => absurd hv List.not_mem_nil, rfl⟩
  unfold runPlanning
  by_cases hprovider : o.pm.provider = o.reviewer.provider ∧ o.reviewException = none
  · rw [if_pos hprovider, sat_throw]
    exact ⟨hinitial, Nat.zero_le _⟩
  rw [if_neg hprovider]
  have hdraft : Sat (generateValidPlan safeParse o o.attempts) initial
      (fun plan s' => Passes safeParse raw plan ∧ Metered initial s' o.attempts)
      fun _ s => Recorded safeParse raw s ∧ s.calls.length ≤ o.attempts + ⌊o.maxRounds⌋₊ * (2 + o.attempts) := by
    refine (generateValidPlan_spec hreparse o.attempts hinitial.metered).mono (fun _ _ hplan => hplan) fun _ s1 hm1 => ?_
    have hcalls : s1.calls.length ≤ 0 + o.attempts := hm1.calls
    refine ⟨⟨?_, ?_, ?_, hm1.metered⟩, by omega⟩
    · rw [hm1.versions]
      exact hinitial.plans
    · rw [hm1.versions]
      rfl
    · rw [hm1.versions]
      exact hinitial.answered
  refine hdraft.bind fun plan s1 hplan => ?_
  obtain ⟨hpasses, hm1⟩ := hplan
  have hcalls : s1.calls.length ≤ 0 + o.attempts := hm1.calls
  have hready : Ready safeParse raw [] plan { s1 with versions := s1.versions ++ [⟨1, plan, none, none⟩] } := by
    refine ⟨?_, hpasses, fun v hv => absurd hv List.not_mem_nil, rfl, hm1.metered⟩
    rw [hm1.versions]
    rfl
  rw [sat_bind, sat_modify, sat_bind]
  refine sat_onRound ⟨hready.recorded rfl rfl hready.versions hm1.metered, by show s1.calls.length ≤ _; omega⟩ ?_
  refine Sat.mono (reviewRounds_spec hreparse ⌊o.maxRounds⌋₊ hready) ?_ ?_
  · rintro r s ⟨hr, hle⟩
    have hle : s.calls.length ≤ s1.calls.length + ⌊o.maxRounds⌋₊ * (2 + o.attempts) := hle
    exact ⟨hr, by omega⟩
  · rintro _ s ⟨hr, hle⟩
    have hle : s.calls.length ≤ s1.calls.length + ⌊o.maxRounds⌋₊ * (2 + o.attempts) := hle
    exact ⟨hr, by omega⟩

end

/-- Two rounds: the first version has a finding, the second has none. -/
def sample : PlanningOptions PlanContract ℕ where
  pm := ⟨"anthropic", "pm"⟩
  reviewer := ⟨"openai", "reviewer"⟩
  maxRounds := 2
  draft _ := some (⟨[⟨"core", "Core", [], .S, .low, true⟩]⟩, 1)
  review n := some (if n = 1 then [⟨.must_fix, none, "no tests", "add tests"⟩] else [], 2)
  revise _ := some (([⟨0, .accept, "tests added"⟩], ⟨[⟨"core", "Core, tested", [], .S, .low, true⟩]⟩), 3)

theorem runPlanning_sample : Sat (runPlanning Except.ok sample) initial
    (fun r s => Outcome Except.ok id r s ∧ s.calls.length ≤ sample.attempts + ⌊sample.maxRounds⌋₊ * (2 + sample.attempts))
    (fun _ s => Recorded Except.ok id s ∧
      s.calls.length ≤ sample.attempts + ⌊sample.maxRounds⌋₊ * (2 + sample.attempts)) ∧
    (after (runPlanning Except.ok sample initial)).usage = [1, 2, 3, 2] :=
  ⟨runPlanning_spec (fun _ _ _ => rfl) sample, by decide +kernel⟩

end Norns.Planning.Session
