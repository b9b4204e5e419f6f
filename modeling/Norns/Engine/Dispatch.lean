import Mathlib
import Norns.Lib.OrdMap
import Norns.Lib.Run

/-! # Dispatch jobs and leases

`DispatchStore` of `engine/dispatch.ts`, shared by any number of `DispatchLoop`s of
`engine/dispatchLoop.ts`. A tick claims a job, awaits its delivery and then reports the outcome;
`complete` and `fail` ask neither for the owner nor for the status of the job. A delivery that is
awaited is identified by the claim it follows, which `attempts` counts; ticks of one loop may overlap,
and the kill switch only stops ticks that could be taken here.

* `Held`: a delivery of the latest claim finds its job leased to its loop;
* `Timely`: the outcome is one of the latest claim;
* `dispatch_job_safe`: with timely outcomes, `done` is final and only the holder of a lease ends it;
* `stale_failure_requeues`: without them, a job that is done goes back to the queue. -/

namespace Norns.Engine.Dispatch

open Norns.Lib Norns.Lib.Run

inductive JobStatus
  | queued | leased | done | failed
  deriving DecidableEq, Repr

structure DispatchJob (Payload : Type) where
  id : String
  node_id : String
  command_id : Option String
  runner_id : String
  status : JobStatus
  attempts : ℕ
  available_at : ℤ
  lease_owner : Option String
  lease_expires_at : Option ℤ
  payload : Payload
  deriving DecidableEq, Repr

structure DispatchStore (Payload : Type) where
  jobs : OrdMap String (DispatchJob Payload)
  counter : ℕ
  deriving DecidableEq

variable {Payload : Type}

def jobId (n : ℕ) : String := "job_" ++ toString n

namespace DispatchStore

def new : DispatchStore Payload := ⟨OrdMap.empty, 0⟩

/-- The job that `enqueue` stores and returns. -/
def newJob (store : DispatchStore Payload) (node_id runner_id : String) (payload : Payload)
    (available_at : Option ℤ) : DispatchJob Payload where
  id := jobId (store.counter + 1)
  node_id := node_id
  command_id := none
  runner_id := runner_id
  status := .queued
  attempts := 0
  available_at := available_at.getD 0
  lease_owner := none
  lease_expires_at := none
  payload := payload

def enqueue (store : DispatchStore Payload) (node_id runner_id : String) (payload : Payload)
    (available_at : Option ℤ) : DispatchStore Payload :=
  let job := store.newJob node_id runner_id payload available_at
  { jobs := store.jobs.set job.id job, counter := store.counter + 1 }

def get (store : DispatchStore Payload) (id : String) : Option (DispatchJob Payload) :=
  store.jobs.get? id

end DispatchStore

def DispatchJob.leaseExpired (job : DispatchJob Payload) (nowMs : ℤ) : Prop :=
  job.status = .leased ∧ ∃ expires ∈ job.lease_expires_at, expires ≤ nowMs

instance (job : DispatchJob Payload) (nowMs : ℤ) : Decidable (job.leaseExpired nowMs) :=
  inferInstanceAs (Decidable (_ ∧ _))

def DispatchJob.eligible (job : DispatchJob Payload) (nowMs : ℤ) : Prop :=
  (job.status = .queued ∨ job.leaseExpired nowMs) ∧ job.available_at ≤ nowMs

instance (job : DispatchJob Payload) (nowMs : ℤ) : Decidable (job.eligible nowMs) :=
  inferInstanceAs (Decidable (_ ∧ _))

def DispatchJob.lease (job : DispatchJob Payload) (owner : String) (nowMs leaseMs : ℤ) :
    DispatchJob Payload :=
  { job with
    status := .leased
    attempts := job.attempts + 1
    lease_owner := some owner
    lease_expires_at := some (nowMs + leaseMs) }

namespace DispatchStore

/-- The first eligible job, in the order of their insertion. -/
def claim (store : DispatchStore Payload) (owner : String) (nowMs leaseMs : ℤ) :
    Option (DispatchJob Payload × DispatchStore Payload) :=
  (store.jobs.values.find? fun job => job.eligible nowMs).map fun job =>
    let job := job.lease owner nowMs leaseMs
    (job, { store with jobs := store.jobs.set job.id job })

def complete (store : DispatchStore Payload) (id : String) (commandId : Option String) :
    DispatchStore Payload :=
  match store.jobs.get? id with
  | none => store
  | some job => { store with jobs := store.jobs.set id { job with
      status := .done
      command_id := commandId <|> job.command_id
      lease_owner := none
      lease_expires_at := none } }

def fail (store : DispatchStore Payload) (id : String) (nowMs retryDelayMs : ℤ) :
    DispatchStore Payload :=
  match store.jobs.get? id with
  | none => store
  | some job => { store with jobs := store.jobs.set id { job with
      status := .queued
      lease_owner := none
      lease_expires_at := none
      available_at := nowMs + retryDelayMs } }

end DispatchStore

/-! ### Loops -/

/-- The options of a `DispatchLoop`. -/
structure DispatchLoop where
  owner : String
  leaseMs : ℤ := 30000
  retryDelayMs : ℤ := 1000
  deriving DecidableEq, Repr

/-- A tick between its claim and the outcome of the delivery. -/
structure Delivery where
  loop : DispatchLoop
  jobId : String
  attempt : ℕ
  deriving DecidableEq, Repr

/-- The store, the clock, and the deliveries that are awaited. -/
structure Dispatching (Payload : Type) where
  store : DispatchStore Payload
  clock : ℤ
  awaited : List Delivery
  deriving DecidableEq

inductive Op (Payload : Type)
  | enqueue (node_id runner_id : String) (payload : Payload) (available_at : Option ℤ)
  | elapse (ms : ℕ)
  | claim (loop : DispatchLoop)
  /-- `deliver` returned a command id. -/
  | delivered (d : Delivery) (commandId : String)
  /-- `deliver` threw. -/
  | failed (d : Delivery)
  deriving DecidableEq

def step (s : Dispatching Payload) : Op Payload → Dispatching Payload
  | .enqueue node_id runner_id payload available_at =>
    { s with store := s.store.enqueue node_id runner_id payload available_at }
  | .elapse ms => { s with clock := s.clock + ms }
  | .claim loop =>
    match s.store.claim loop.owner s.clock loop.leaseMs with
    | none => s
    | some (job, store) =>
      { s with store, awaited := s.awaited ++ [⟨loop, job.id, job.attempts⟩] }
  | .delivered d commandId =>
    if d ∈ s.awaited then
      { s with
        store := s.store.complete d.jobId (some commandId)
        awaited := s.awaited.filter (· ≠ d) }
    else s
  | .failed d =>
    if d ∈ s.awaited then
      { s with
        store := s.store.fail d.jobId s.clock d.loop.retryDelayMs
        awaited := s.awaited.filter (· ≠ d) }
    else s

def boot (clock : ℤ) : Dispatching Payload := ⟨.new, clock, []⟩

/-- The step reports the outcome of the delivery. -/
def Reports (s : Dispatching Payload) (op : Op Payload) (d : Delivery) : Prop :=
  d ∈ s.awaited ∧ ((∃ commandId, op = .delivered d commandId) ∨ op = .failed d)

/-- The step claims the job, and so has it delivered. -/
def Claims (s : Dispatching Payload) (op : Op Payload) (id : String) : Prop :=
  ∃ loop job store, op = .claim loop ∧
    s.store.claim loop.owner s.clock loop.leaseMs = some (job, store) ∧ job.id = id

def IsDone (s : Dispatching Payload) (id : String) : Prop :=
  ∃ job, s.store.get id = some job ∧ job.status = .done

/-- The delivery follows the claim that leases the job now. -/
def Holds (d : Delivery) (job : DispatchJob Payload) : Prop :=
  job.status = .leased ∧ job.lease_owner = some d.loop.owner ∧ job.attempts = d.attempt

/-- **Job safety** of a run: a job that was done is neither claimed again nor anything but done, and
an outcome that changes a job is that of its holder. -/
structure JobSafe (clock : ℤ) (ops : List (Op Payload)) : Prop where
  done : ∀ pre mid, pre ++ mid <+: ops → ∀ id, IsDone (run step (boot clock) pre) id →
    IsDone (run step (boot clock) (pre ++ mid)) id ∧
      ∀ op, pre ++ mid ++ [op] <+: ops → ¬ Claims (run step (boot clock) (pre ++ mid)) op id
  holder : ∀ pre op, pre ++ [op] <+: ops → ∀ d, Reports (run step (boot clock) pre) op d →
    ∀ job, (run step (boot clock) pre).store.get d.jobId = some job →
      (run step (boot clock) (pre ++ [op])).store.get d.jobId ≠ some job → Holds d job

/-- **The condition**: when a delivery ends, its job was not claimed again since. -/
def Timely (s : Dispatching Payload) (op : Op Payload) : Prop :=
  ∀ d, Reports s op d → ∀ job, s.store.get d.jobId = some job → job.attempts = d.attempt

section

variable {s : Dispatching Payload} {store store' : DispatchStore Payload}
  {job : DispatchJob Payload} {op : Op Payload} {d : Delivery} {id : String}

theorem jobId_injective : Function.Injective jobId := fun _ _ h =>
  Nat.repr_injective ((String.append_right_inj _).mp h)

/-! ### The invariant -/

/-- The entries carry their own keys, and none is ahead of the counter. -/
def Indexed (store : DispatchStore Payload) : Prop :=
  ∀ k job, store.get k = some job → job.id = k ∧ ∃ n ≤ store.counter, k = jobId n

structure Held (s : Dispatching Payload) : Prop where
  indexed : Indexed s.store
  lease : ∀ d ∈ s.awaited, ∃ job, s.store.get d.jobId = some job ∧ d.attempt ≤ job.attempts ∧
    (job.attempts = d.attempt → Holds d job)
  distinct : ∀ d ∈ s.awaited, ∀ d' ∈ s.awaited, d.jobId = d'.jobId → d.attempt = d'.attempt → d = d'

theorem held_boot (clock : ℤ) : Held (boot clock : Dispatching Payload) where
  indexed := fun k job h => by cases h
  lease := fun d hd => by cases hd
  distinct := fun d hd => by cases hd

/-- **A claim** leases an eligible job. -/
theorem claim_some {owner : String} {nowMs leaseMs : ℤ} (hindexed : Indexed store)
    (h : store.claim owner nowMs leaseMs = some (job, store')) :
    ∃ old, store.get old.id = some old ∧ old.eligible nowMs ∧ job = old.lease owner nowMs leaseMs ∧
      store' = { store with jobs := store.jobs.set old.id job } := by
  unfold DispatchStore.claim at h
  rw [Option.map_eq_some_iff] at h
  obtain ⟨old, hfind, heq⟩ := h
  cases heq
  obtain ⟨k, hk⟩ := OrdMap.mem_values.mp (List.mem_of_find?_eq_some hfind)
  have hid := (hindexed k old hk).1
  refine ⟨old, ?_, by simpa using List.find?_some hfind, rfl, rfl⟩
  rw [hid]
  exact hk

theorem not_eligible_of_done {nowMs : ℤ} (h : job.status = .done) : ¬ job.eligible nowMs := by
  rintro ⟨hq | ⟨hl, -⟩, -⟩
  · rw [h] at hq
    cases hq
  · rw [h] at hl
    cases hl

/-- Writing to one entry keeps the store indexed. -/
theorem Indexed.set (h : Indexed store) (hold : ∃ n ≤ store.counter, id = jobId n)
    (hid : job.id = id) : Indexed { store with jobs := store.jobs.set id job } := by
  intro k job' hk
  unfold DispatchStore.get at hk
  dsimp only at hk
  rw [OrdMap.get?_set] at hk
  split at hk
  · rename_i heq
    subst heq
    cases hk
    exact ⟨hid, hold⟩
  · exact h k job' hk

/-- What a step can do. -/
inductive Moves (s : Dispatching Payload) (op : Op Payload) : Dispatching Payload → Prop
  | enqueued (job : DispatchJob Payload) (hid : job.id = jobId (s.store.counter + 1)) :
      Moves s op { s with store := ⟨s.store.jobs.set job.id job, s.store.counter + 1⟩ }
  | same (s' : Dispatching Payload) (hstore : s'.store = s.store)
      (hawaited : s'.awaited = s.awaited) : Moves s op s'
  | claimed (loop : DispatchLoop) (old : DispatchJob Payload)
      (hold : s.store.get old.id = some old) (heligible : old.eligible s.clock) :
      Moves s op { s with
        store := { s.store with
          jobs := s.store.jobs.set old.id (old.lease loop.owner s.clock loop.leaseMs) }
        awaited := s.awaited ++ [⟨loop, old.id, old.attempts + 1⟩] }
  | reported (d : Delivery) (job job' : DispatchJob Payload) (hreports : Reports s op d)
      (hjob : s.store.get d.jobId = some job) (hid : job'.id = job.id)
      (hattempts : job'.attempts = job.attempts) :
      Moves s op { s with
        store := { s.store with jobs := s.store.jobs.set d.jobId job' }
        awaited := s.awaited.filter (· ≠ d) }

theorem step_moves (hs : Held s) (op : Op Payload) : Moves s op (step s op) := by
  rcases op with ⟨node_id, runner_id, payload, available_at⟩ | ms | loop | ⟨d, commandId⟩ | d
  · exact .enqueued (s.store.newJob node_id runner_id payload available_at) rfl
  · exact .same _ rfl rfl
  · unfold step
    dsimp only
    rcases hc : s.store.claim loop.owner s.clock loop.leaseMs with _ | ⟨job, store⟩
    · exact .same _ rfl rfl
    · obtain ⟨old, hold, heligible, rfl, rfl⟩ := claim_some hs.indexed hc
      exact .claimed loop old hold heligible
  · unfold step
    dsimp only
    by_cases hd : d ∈ s.awaited
    · obtain ⟨job, hjob, -⟩ := hs.lease d hd
      have hcomplete : s.store.complete d.jobId (some commandId) = { s.store with
          jobs := s.store.jobs.set d.jobId { job with
            status := .done, command_id := some commandId <|> job.command_id
            lease_owner := none, lease_expires_at := none } } := by
        unfold DispatchStore.complete
        unfold DispatchStore.get at hjob
        rw [hjob]
      rw [if_pos hd, hcomplete]
      exact .reported d job _ ⟨hd, .inl ⟨commandId, rfl⟩⟩ hjob rfl rfl
    · rw [if_neg hd]
      exact .same _ rfl rfl
  · unfold step
    dsimp only
    by_cases hd : d ∈ s.awaited
    · obtain ⟨job, hjob, -⟩ := hs.lease d hd
      have hfail : s.store.fail d.jobId s.clock d.loop.retryDelayMs = { s.store with
          jobs := s.store.jobs.set d.jobId { job with
            status := .queued, lease_owner := none, lease_expires_at := none
            available_at := s.clock + d.loop.retryDelayMs } } := by
        unfold DispatchStore.fail
        unfold DispatchStore.get at hjob
        rw [hjob]
      rw [if_pos hd, hfail]
      exact .reported d job _ ⟨hd, .inr rfl⟩ hjob rfl rfl
    · rw [if_neg hd]
      exact .same _ rfl rfl

/-- Under the condition a reported delivery holds its job. -/
theorem Held.holds (hs : Held s) (htimely : Timely s op) (hreports : Reports s op d)
    (hjob : s.store.get d.jobId = some job) : Holds d job := by
  obtain ⟨job', hjob', -, hlease⟩ := hs.lease d hreports.1
  cases hjob.symm.trans hjob'
  exact hlease (htimely d hreports job hjob)

theorem step_held (hs : Held s) (htimely : Timely s op) : Held (step s op) := by
  have hmoves := step_moves hs op
  generalize step s op = s' at hmoves
  rcases hmoves with ⟨job, hid⟩ | ⟨s', hstore, hawaited⟩ | ⟨loop, old, hold, -⟩ |
    ⟨d, job, job', hreports, hjob, hid, hattempts⟩
  · -- the new id is ahead of every known one
    have hfresh : ∀ job', s.store.get job.id ≠ some job' := by
      intro job' hjob'
      obtain ⟨-, n, hn, heq⟩ := hs.indexed _ _ hjob'
      have hsucc := jobId_injective (hid.symm.trans heq)
      omega
    refine ⟨?_, ?_, hs.distinct⟩
    · intro k job' hk
      unfold DispatchStore.get at hk
      dsimp only at hk
      rw [OrdMap.get?_set] at hk
      split at hk
      · rename_i heq
        subst heq
        cases hk
        exact ⟨rfl, s.store.counter + 1, le_rfl, hid⟩
      · obtain ⟨hk', n, hn, heq⟩ := hs.indexed k job' hk
        exact ⟨hk', n, Nat.le_succ_of_le hn, heq⟩
    · intro d hd
      obtain ⟨job', hjob', hrest⟩ := hs.lease d hd
      refine ⟨job', ?_, hrest⟩
      have hne : job.id ≠ d.jobId := by
        intro heq
        exact hfresh job' (heq ▸ hjob')
      exact (OrdMap.get?_set_ne _ _ hne).trans hjob'
  · refine ⟨?_, ?_, ?_⟩
    · rw [hstore]
      exact hs.indexed
    · rw [hstore, hawaited]
      exact hs.lease
    · rw [hawaited]
      exact hs.distinct
  · obtain ⟨-, hindex⟩ := hs.indexed _ _ hold
    -- the deliveries of earlier claims are behind the new attempt
    have hbehind : ∀ d ∈ s.awaited, d.jobId = old.id → d.attempt ≤ old.attempts := by
      intro d hd heq
      obtain ⟨job', hjob', hle, -⟩ := hs.lease d hd
      rw [heq, hold] at hjob'
      cases hjob'
      exact hle
    refine ⟨hs.indexed.set hindex rfl, ?_, ?_⟩
    · intro d hd
      show ∃ job, (s.store.jobs.set old.id _).get? d.jobId = some job ∧ _
      rcases List.mem_append.mp hd with hd | hd
      · by_cases heq : old.id = d.jobId
        · have hle := hbehind d hd heq.symm
          refine ⟨_, by rw [heq]; exact OrdMap.get?_set_self _ _ _, Nat.le_succ_of_le hle,
            fun hlast => ?_⟩
          have hattempts : old.attempts + 1 = d.attempt := hlast
          omega
        · rw [OrdMap.get?_set_ne _ _ heq]
          exact hs.lease d hd
      · rw [List.mem_singleton.mp hd]
        exact ⟨_, OrdMap.get?_set_self _ _ _, le_rfl, fun _ => ⟨rfl, rfl, rfl⟩⟩
    · intro d hd d' hd' hjobs hattempts
      rcases List.mem_append.mp hd with hd | hd
      · rcases List.mem_append.mp hd' with hd' | hd'
        · exact hs.distinct d hd d' hd' hjobs hattempts
        · rw [List.mem_singleton.mp hd'] at hjobs hattempts
          have hle := hbehind d hd hjobs
          dsimp only at hattempts
          omega
      · rcases List.mem_append.mp hd' with hd' | hd'
        · rw [List.mem_singleton.mp hd] at hjobs hattempts
          have hle := hbehind d' hd' hjobs.symm
          dsimp only at hattempts
          omega
        · rw [List.mem_singleton.mp hd, List.mem_singleton.mp hd']
  · obtain ⟨hjobId, hindex⟩ := hs.indexed _ _ hjob
    have hmem : ∀ d', d' ∈ s.awaited.filter (· ≠ d) → d' ∈ s.awaited ∧ d' ≠ d := by
      intro d' hd'
      simpa using List.mem_filter.mp hd'
    refine ⟨hs.indexed.set hindex (hid.trans hjobId), ?_, ?_⟩
    · intro d' hd'
      obtain ⟨hd', hne⟩ := hmem d' hd'
      show ∃ job, (s.store.jobs.set d.jobId job').get? d'.jobId = some job ∧ _
      by_cases heq : d.jobId = d'.jobId
      · -- only the delivery that ended followed the latest claim
        obtain ⟨job'', hjob'', hle, -⟩ := hs.lease d' hd'
        rw [← heq, hjob] at hjob''
        cases hjob''
        refine ⟨job', by rw [heq]; exact OrdMap.get?_set_self _ _ _, hattempts ▸ hle,
          fun hlast => ?_⟩
        have hlatest := (hs.holds htimely hreports hjob).2.2
        exact absurd (hs.distinct d' hd' d hreports.1 heq.symm
          (hlast.symm.trans (hattempts.trans hlatest))) hne
      · rw [OrdMap.get?_set_ne _ _ heq]
        exact hs.lease d' hd'
    · intro d₁ hd₁ d₂ hd₂
      exact hs.distinct d₁ (hmem d₁ hd₁).1 d₂ (hmem d₂ hd₂).1

theorem not_claims_of_done (hs : Held s) (hdone : IsDone s id) : ¬ Claims s op id := by
  rintro ⟨loop, job, store, -, hclaim, rfl⟩
  obtain ⟨old, hold, heligible, rfl, -⟩ := claim_some hs.indexed hclaim
  obtain ⟨job', hjob', hstatus⟩ := hdone
  have hold' : s.store.get (old.lease loop.owner s.clock loop.leaseMs).id = some old := hold
  cases hold'.symm.trans hjob'
  exact not_eligible_of_done hstatus heligible

/-- **`done` is final.** -/
theorem step_done (hs : Held s) (htimely : Timely s op) (hdone : IsDone s id) :
    IsDone (step s op) id := by
  have hmoves := step_moves hs op
  obtain ⟨job, hjob, hstatus⟩ := hdone
  generalize step s op = s' at hmoves
  rcases hmoves with ⟨new, hid⟩ | ⟨s', hstore, -⟩ | ⟨loop, old, hold, heligible⟩ |
    ⟨d, job₁, job', hreports, hjob₁, -, -⟩
  · have hne : new.id ≠ id := by
      intro heq
      obtain ⟨-, n, hn, hindex⟩ := hs.indexed _ _ hjob
      have hsucc := jobId_injective (hid.symm.trans (heq.trans hindex))
      omega
    exact ⟨job, (OrdMap.get?_set_ne _ _ hne).trans hjob, hstatus⟩
  · exact ⟨job, by rw [hstore]; exact hjob, hstatus⟩
  · have hne : old.id ≠ id := by
      intro heq
      rw [heq, hjob] at hold
      cases hold
      exact not_eligible_of_done hstatus heligible
    exact ⟨job, (OrdMap.get?_set_ne _ _ hne).trans hjob, hstatus⟩
  · have hne : d.jobId ≠ id := by
      intro heq
      rw [heq, hjob] at hjob₁
      cases hjob₁
      have hleased := (hs.holds htimely hreports (heq ▸ hjob)).1
      rw [hstatus] at hleased
      cases hleased
    exact ⟨job, (OrdMap.get?_set_ne _ _ hne).trans hjob, hstatus⟩

end

/-! ### Runs -/

/-- **Dispatch is job safe** in every run whose deliveries end before their jobs are claimed again. -/
theorem dispatch_job_safe (clock : ℤ) (ops : List (Op Payload))
    (htimely : Along step Timely (boot clock) ops) : JobSafe clock ops := by
  have hheld : ∀ pre, pre <+: ops → Held (run step (boot clock) pre) := by
    rintro pre ⟨post, rfl⟩
    exact run_induct (fun s op hs ht => step_held hs ht) (held_boot clock) ( along_prefix htimely)
  rw [along_iff_steps] at htimely
  constructor
  · intro pre mid
    induction mid using List.reverseRecOn with
    | nil =>
      intro hpre id hdone
      rw [List.append_nil] at hpre ⊢
      exact ⟨hdone, fun op _ => not_claims_of_done (hheld pre hpre) hdone⟩
    | append_singleton mid op ih =>
      intro hpre id hdone
      rw [← List.append_assoc] at hpre ⊢
      have hpre' : pre ++ mid <+: ops := (List.prefix_append _ _).trans hpre
      obtain ⟨hdone', -⟩ := ih hpre' id hdone
      have hlast : IsDone (run step (boot clock) (pre ++ mid ++ [op])) id := by
        rw [run_concat]
        exact step_done (hheld _ hpre') (htimely _ op hpre) hdone'
      exact ⟨hlast, fun op' _ => not_claims_of_done (hheld _ hpre) hlast⟩
  · intro pre op hpre d hreports job hjob _
    exact (hheld pre ((List.prefix_append _ _).trans hpre)).holds (htimely pre op hpre) hreports hjob

def loopA : DispatchLoop := { owner := "dispatcher-a", leaseMs := 10 }

def loopB : DispatchLoop := { owner := "dispatcher-b", leaseMs := 10 }

/-- The job is delivered by the second loop, after the first one lost its lease. -/
def delivered : List (Op Unit) :=
  [.enqueue "n1" "r1" () none, .claim loopA, .elapse 10, .claim loopB,
    .delivered ⟨loopB, "job_1", 2⟩ "cmd_1"]

theorem dispatch_job_safe_delivered : JobSafe 0 delivered := by
  refine dispatch_job_safe 0 delivered ⟨?_, ?_, ?_, ?_, ?_, trivial⟩
  · rintro d ⟨-, ⟨commandId, hop⟩ | hop⟩ <;> cases hop
  · rintro d ⟨-, ⟨commandId, hop⟩ | hop⟩ <;> cases hop
  · rintro d ⟨-, ⟨commandId, hop⟩ | hop⟩ <;> cases hop
  · rintro d ⟨-, ⟨commandId, hop⟩ | hop⟩ <;> cases hop
  · rintro d ⟨-, ⟨commandId, hop⟩ | hop⟩ job hjob
    · cases hop
      have hattempts : ((run step (boot 0) (delivered.take 4)).store.get "job_1").map
          DispatchJob.attempts = some 2 := by decide +kernel
      change (run step (boot 0) (delivered.take 4)).store.get "job_1" = some job at hjob
      rw [hjob] at hattempts
      exact Option.some.inj hattempts
    · cases hop

/-- The first loop reports its failure afterwards. -/
def requeued : List (Op Unit) := delivered ++ [.failed ⟨loopA, "job_1", 1⟩, .elapse 1000]

/-- The job that was done is queued again, and claimed once more. -/
theorem stale_failure_requeues : ¬ JobSafe 0 (requeued ++ [.claim loopB]) := by
  intro h
  have hdone : IsDone (run step (boot 0) delivered) "job_1" := by
    have hstatus : ((run step (boot 0) delivered).store.get "job_1").map DispatchJob.status =
        some .done := by decide +kernel
    exact Option.map_eq_some_iff.mp hstatus
  refine (h.done delivered [.failed ⟨loopA, "job_1", 1⟩, .elapse 1000] ⟨[.claim loopB], rfl⟩ "job_1"
    hdone).2 (.claim loopB) ⟨[], rfl⟩ ?_
  have hclaim : ((run step (boot 0) requeued).store.claim loopB.owner
      (run step (boot 0) requeued).clock loopB.leaseMs).map (fun r => r.1.id) = some "job_1" := by
    decide +kernel
  obtain ⟨⟨job, store⟩, hclaim, hid⟩ := Option.map_eq_some_iff.mp hclaim
  exact ⟨loopB, job, store, rfl, hclaim, hid⟩

end Norns.Engine.Dispatch
