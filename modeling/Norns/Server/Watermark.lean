import Mathlib.Tactic.Common
import Norns.Lib.Run
import Norns.Server.Stores

/-! # Watermark and generation

The watermark belongs to a runner *id*, while the sequence a runner counts belongs to one
*generation* of it. `History` keeps beside the stores which events of which generation were ingested
and which were acknowledged from the relational log; neither is read by the stores.

* `Covered`: every sequence up to the watermark is known for the generation;
* `covered_run`: so it is as long as one generation alone moved the watermark of the id
  (`SameGeneration`), and then a duplicate is a duplicate (`duplicate_known`). -/

namespace Norns.Server.Watermark

open Norns.Lib Norns.Lib.Run Norns.Contracts.Protocol Norns.Server.Stores

/-- The calls that a server makes over time; `generation` of an acknowledgement is the one whose
relational watermark it passes on. -/
inductive StoreOp
  | registerRunner (runnerId publicKeyPem : String)
  | reserveRunnerGeneration (runnerId : String)
  | enrollRunnerAtGeneration (runnerId publicKeyPem : String) (generation : Nat)
  | restoreDurableRunnerIdentity (runnerId publicKeyPem : String) (generation : Nat)
  | revokeRunnerSessions (runnerId : String)
  | acknowledgeEventWatermark (runnerId : String) (generation eventSequence : Nat)
  | ingestEvent (event : EventEnvelope)
  /-- A reconcile: the runner prunes its buffer by the watermark. -/
  | reconcile (runnerId : String) (generation : Nat)
  deriving DecidableEq, Repr

/-- Runner id, generation, sequence. -/
abbrev EventKey := String × Nat × Nat

structure History where
  stores : RelayStores
  ingested : List EventKey
  /-- The last entry is the sequence up to which the relational log has the events. -/
  acknowledged : List EventKey
  deriving DecidableEq

def start : History := ⟨RelayStores.new, [], []⟩

def step (h : History) : StoreOp → History
  | .registerRunner runnerId key => { h with stores := (h.stores.registerRunner runnerId key).1 }
  | .reserveRunnerGeneration runnerId =>
    { h with stores := (h.stores.reserveRunnerGeneration runnerId).1 }
  | .enrollRunnerAtGeneration runnerId key generation =>
    { h with stores := (h.stores.enrollRunnerAtGeneration runnerId key generation).1 }
  | .restoreDurableRunnerIdentity runnerId key generation =>
    { h with stores := (h.stores.restoreDurableRunnerIdentity runnerId key generation).1 }
  | .revokeRunnerSessions runnerId =>
    match h.stores.revokeRunnerSessions runnerId with
    | .ok (stores, _) => { h with stores }
    | .error _ => h
  | .acknowledgeEventWatermark runnerId generation n =>
    { h with
      stores := h.stores.acknowledgeEventWatermark runnerId n
      acknowledged := h.acknowledged ++ [(runnerId, generation, n)] }
  | .ingestEvent event =>
    let (stores, outcome) := h.stores.ingestEvent event
    { h with
      stores
      ingested := if outcome = .accepted then
        h.ingested ++ [(event.runner_id, event.generation, event.event_seq)] else h.ingested }
  | .reconcile _ _ => h

/-- The event was ingested, or acknowledged from the relational log. -/
def Known (h : History) (runnerId : String) (generation n : Nat) : Prop :=
  (runnerId, generation, n) ∈ h.ingested ∨ ∃ m ≥ n, (runnerId, generation, m) ∈ h.acknowledged

/-- Runner and generation an operation speaks for, if it reads or moves a watermark. -/
def StoreOp.speaker : StoreOp → Option (String × Nat)
  | .acknowledgeEventWatermark runnerId generation _ => some (runnerId, generation)
  | .ingestEvent event => some (event.runner_id, event.generation)
  | .reconcile runnerId generation => some (runnerId, generation)
  | _ => none

/-- Every event and acknowledgement of the runner id so far was of this generation. -/
def OnlyGeneration (h : History) (runnerId : String) (generation : Nat) : Prop :=
  ∀ g n, (runnerId, g, n) ∈ h.ingested ++ h.acknowledged → g = generation

/-- **The condition**: the id's watermark was moved by no other generation. -/
def SameGeneration (h : History) (op : StoreOp) : Prop :=
  ∀ runnerId generation, op.speaker = some (runnerId, generation) →
    OnlyGeneration h runnerId generation

/-- Every sequence up to the watermark is known. -/
def Covered (h : History) (runnerId : String) (generation : Nat) : Prop :=
  ∀ n, 0 < n → n ≤ h.stores.eventWatermark runnerId → Known h runnerId generation n

/-- **The law**: a duplicate was known, and what the runner is told to prune is known. -/
structure WatermarkLaw (h : History) (op : StoreOp) : Prop where
  duplicate : ∀ event, op = .ingestEvent event → 0 < event.event_seq →
    (h.stores.ingestEvent event).2 = .duplicate →
      Known h event.runner_id event.generation event.event_seq
  prune : ∀ runnerId generation, op.speaker = some (runnerId, generation) →
    Covered (step h op) runnerId generation

variable {h : History} {op : StoreOp} {runnerId : String} {generation : Nat}

theorem Known.step {n : Nat} (hk : Known h runnerId generation n) (op : StoreOp) :
    Known (step h op) runnerId generation n := by
  cases op with
  | acknowledgeEventWatermark r g m =>
    exact hk.imp (fun hi => hi) fun ⟨k, hk, hm⟩ => ⟨k, hk, List.mem_append_left _ hm⟩
  | ingestEvent event =>
    refine hk.imp (fun hi => ?_) fun ha => ha
    simp only [Watermark.step]
    split_ifs
    · exact List.mem_append_left _ hi
    · exact hi
  | revokeRunnerSessions r =>
    simp only [Watermark.step]
    split <;> exact hk
  | _ => exact hk

/-- The operations on runner records leave every watermark alone. -/
theorem stores_step_watermark (hop : op.speaker = none) (runnerId : String) :
    (step h op).stores.eventWatermark runnerId = h.stores.eventWatermark runnerId ∧
      (step h op).ingested = h.ingested ∧ (step h op).acknowledged = h.acknowledged := by
  cases op with
  | registerRunner r key => exact ⟨rfl, rfl, rfl⟩
  | reserveRunnerGeneration r => exact ⟨rfl, rfl, rfl⟩
  | restoreDurableRunnerIdentity r key g => exact ⟨rfl, rfl, rfl⟩
  | enrollRunnerAtGeneration r key g =>
    refine ⟨?_, rfl, rfl⟩
    simp only [step, RelayStores.enrollRunnerAtGeneration]
    split
    · rfl
    · split_ifs <;> rfl
  | revokeRunnerSessions r =>
    simp only [step, RelayStores.revokeRunnerSessions]
    rcases h.stores.runners.get? r with _ | record
    · exact ⟨rfl, rfl, rfl⟩
    · exact ⟨rfl, rfl, rfl⟩
  | acknowledgeEventWatermark r g n => cases hop
  | ingestEvent event => cases hop
  | reconcile r g => cases hop

/-- The history only grows. -/
theorem OnlyGeneration.of_step (ho : OnlyGeneration (step h op) runnerId generation) :
    OnlyGeneration h runnerId generation := by
  intro g n hm
  refine ho g n ?_
  by_cases hs : op.speaker = none
  · obtain ⟨-, hi, ha⟩ := stores_step_watermark (h := h) hs runnerId
    rw [hi, ha]
    exact hm
  cases op with
  | acknowledgeEventWatermark r g' m =>
    show _ ∈ h.ingested ++ (h.acknowledged ++ [(r, g', m)])
    rw [← List.append_assoc]
    exact List.mem_append_left _ hm
  | ingestEvent event =>
    simp only [step]
    split_ifs
    · rcases List.mem_append.mp hm with hm | hm
      · exact List.mem_append_left _ (List.mem_append_left _ hm)
      · exact List.mem_append_right _ hm
    · exact hm
  | reconcile r g' => exact hm
  | _ => exact absurd rfl hs

/-- The generations that moved the watermark of an id, if it is one, know all it stands for. -/
def AllCovered (h : History) : Prop :=
  ∀ runnerId generation, OnlyGeneration h runnerId generation → Covered h runnerId generation

/-- **The step lemma.** -/
theorem allCovered_step (hc : AllCovered h) (op : StoreOp) : AllCovered (step h op) := by
  intro runnerId generation ho n hpos hn
  have hold : n ≤ h.stores.eventWatermark runnerId → Known (step h op) runnerId generation n :=
    fun hle => (hc runnerId generation ho.of_step n hpos hle).step op
  by_cases hs : op.speaker = none
  · rw [(stores_step_watermark hs runnerId).1] at hn
    exact hold hn
  cases op with
  | acknowledgeEventWatermark r g m =>
    by_cases hr : r = runnerId
    · subst hr
      have hg : g = generation := ho g m (by simp [step])
      rcases h.stores.eventWatermark_acknowledge r m with hw | hw
      · exact hold (by rw [← hw]; exact hn)
      · refine .inr ⟨m, by rw [← hw]; exact hn, ?_⟩
        rw [← hg]
        exact List.mem_append_right _ (List.mem_singleton_self _)
    · exact hold (by rw [← h.stores.eventWatermark_acknowledge_ne m hr]; exact hn)
  | ingestEvent event =>
    by_cases hr : event.runner_id = runnerId
    · subst hr
      by_cases he : h.stores.Next event
      · obtain ⟨hout, hw, -⟩ := RelayStores.ingestEvent_accepted he
        have hseq := he.2
        have hmem : (event.runner_id, event.generation, event.event_seq) ∈
            (step h (.ingestEvent event)).ingested := by simp [step, hout]
        have hg : event.generation = generation :=
          ho _ _ (List.mem_append_left _ hmem)
        have hn : n ≤ (h.stores.ingestEvent event).1.eventWatermark event.runner_id := hn
        rw [hw] at hn
        rcases Nat.lt_or_ge n event.event_seq with hlt | hge
        · exact hold (by omega)
        · have heq : n = event.event_seq := by omega
          subst heq
          rw [← hg]
          exact .inl hmem
      · have hs := (RelayStores.ingestEvent_refused he).1
        have hn : n ≤ (h.stores.ingestEvent event).1.eventWatermark event.runner_id := hn
        rw [hs] at hn
        exact hold hn
    · have hn : n ≤ (h.stores.ingestEvent event).1.eventWatermark runnerId := hn
      rw [RelayStores.eventWatermark_ingest_ne hr] at hn
      exact hold hn
  | reconcile r g => exact hold hn
  | _ => exact absurd rfl hs

theorem allCovered_run (ops : List StoreOp) : AllCovered (run step start ops) := by
  refine run_induct' (I := AllCovered) (fun h op hc => allCovered_step hc op) ?_ ops
  intro runnerId generation _ n hpos hn
  have : n ≤ 0 := hn
  omega

/-- An operation speaks for the one generation it meets. -/
theorem OnlyGeneration.step (ho : OnlyGeneration h runnerId generation)
    (hop : op.speaker = some (runnerId, generation)) :
    OnlyGeneration (step h op) runnerId generation := by
  intro g n hm
  cases op with
  | acknowledgeEventWatermark r g' m =>
    simp only [StoreOp.speaker, Option.some.injEq, Prod.mk.injEq] at hop
    obtain ⟨rfl, rfl⟩ := hop
    have hm : (r, g, n) ∈ h.ingested ++ (h.acknowledged ++ [(r, g', m)]) := hm
    rw [← List.append_assoc] at hm
    rcases List.mem_append.mp hm with hm | hm
    · exact ho g n hm
    · simp only [List.mem_singleton, Prod.mk.injEq] at hm
      exact hm.2.1
  | ingestEvent event =>
    simp only [StoreOp.speaker, Option.some.injEq, Prod.mk.injEq] at hop
    obtain ⟨rfl, rfl⟩ := hop
    simp only [Watermark.step] at hm
    split_ifs at hm
    · rcases List.mem_append.mp hm with hm | hm
      · rcases List.mem_append.mp hm with hm | hm
        · exact ho g n (List.mem_append_left _ hm)
        · simp only [List.mem_singleton, Prod.mk.injEq] at hm
          exact hm.2.1
      · exact ho g n (List.mem_append_right _ hm)
    · exact ho g n hm
  | reconcile r g' => exact ho g n hm
  | _ => cases hop

/-- **Duplicates are duplicates**, in every reachable state and for every operation of the one
generation that has moved the id's watermark so far: an event reported as a duplicate was ingested or
acknowledged before, and so was everything the runner prunes by the watermark it is sent. -/
theorem watermark_law (ops : List StoreOp) (op : StoreOp)
    (hop : SameGeneration (run step start ops) op) : WatermarkLaw (run step start ops) op := by
  have hc := allCovered_run ops
  refine ⟨fun event he hpos hdup => ?_, fun runnerId generation hs => ?_⟩
  · subst he
    refine hc _ _ (hop _ _ rfl) _ hpos ?_
    by_contra hlt
    by_cases he : (run step start ops).stores.Next event
    · rw [(RelayStores.ingestEvent_accepted he).1] at hdup; cases hdup
    · exact hlt ((RelayStores.ingestEvent_refused he).2.2 hdup)
  · exact allCovered_step hc op _ _ ((hop _ _ hs).step hs)

/-- An event of runner `r`. -/
def eventOf (generation event_seq : Nat) : EventEnvelope :=
  ⟨event_seq, "r", generation, "c", none, 0, .run .heartbeat⟩

theorem watermark_law_resend :
    WatermarkLaw (run step start [.registerRunner "r" "key", .ingestEvent (eventOf 1 1)])
      (.ingestEvent (eventOf 1 1)) := by
  refine watermark_law _ _ fun runnerId generation hs g n hm => ?_
  have hm : (runnerId, g, n) ∈ [(("r", 1, 1) : EventKey)] := hm
  simp only [List.mem_singleton, Prod.mk.injEq] at hm
  simp only [StoreOp.speaker, eventOf, Option.some.injEq, Prod.mk.injEq] at hs
  omega

/-- Paired again, the runner starts at sequence 1 with a fresh state file, and its first event is
taken for the first event of the generation before. -/
theorem repaired_first_event_dropped :
    ¬ ∀ (ops : List StoreOp) (event : EventEnvelope), 0 < event.event_seq →
      ((run step start ops).stores.ingestEvent event).2 = .duplicate →
        Known (run step start ops) event.runner_id event.generation event.event_seq := by
  intro hall
  have h := hall [.registerRunner "r" "key1", .ingestEvent (eventOf 1 1),
    .registerRunner "r" "key2"] (eventOf 2 1) (by decide) (by decide)
  rcases h with h | ⟨m, -, h⟩
  · revert h; decide
  · cases h

end Norns.Server.Watermark
