import Mathlib.Data.List.Basic
import Norns.Server.Stores

/-! # The command outbox

What the operations on commands do to one command: `stateOf` after a state change, after a round of
`pendingCommandsFor`, and after its commands were sent. None of them touches the event log. -/

namespace Norns.Server.Outbox

open Norns.Lib Norns.Contracts.Protocol Norns.Server.Stores

/-- The state that the command state machine moves to. -/
def nextState (source target : CommandState) : CommandState :=
  if source.isTerminal = false ∧ canCommandTransition source target = true then target else source

theorem nextState_idem (source target : CommandState) :
    nextState (nextState source target) target = nextState source target := by
  cases source <;> cases target <;> rfl

theorem applyState_state (record : CommandRecord) (target : CommandState) (now : ℕ) :
    (RelayStores.applyState record target now).state = nextState record.state target := by
  unfold RelayStores.applyState nextState
  by_cases he : record.state = target
  · rw [if_pos he, he, ite_self]
  by_cases ht : record.state.isTerminal = true
  · have hno : ¬ (record.state.isTerminal = false ∧ canCommandTransition record.state target = true) := by
      simp [ht]
    rw [if_neg he, if_pos ht, if_neg hno]
    split_ifs <;> rfl
  · rw [if_neg he, if_neg ht]
    by_cases hc : canCommandTransition record.state target = true
    · rw [if_pos hc, if_pos ⟨by simpa using ht, hc⟩]
    · rw [if_neg hc, if_neg fun h => hc h.2]

theorem applyState_envelope (record : CommandRecord) (target : CommandState) (now : ℕ) :
    (RelayStores.applyState record target now).envelope = record.envelope := by
  unfold RelayStores.applyState
  split_ifs <;> rfl

/-! ### One command -/

/-- Every record is stored under its command id. -/
def Keyed (s : RelayStores) : Prop :=
  ∀ id record, s.commands.get? id = some record → record.envelope.command_id = id

/-- The recorded state of a command. -/
def stateOf (s : RelayStores) (id : String) : Option CommandState :=
  (s.commands.get? id).map CommandRecord.state

/-- Only commands change. -/
structure SameLog (s s' : RelayStores) : Prop where
  events : s'.eventsByRunner = s.eventsByRunner
  watermark : s'.watermark = s.watermark

theorem SameLog.trans {s₁ s₂ s₃ : RelayStores} (h : SameLog s₁ s₂) (h' : SameLog s₂ s₃) :
    SameLog s₁ s₃ := ⟨h'.events.trans h.events, h'.watermark.trans h.watermark⟩

theorem SameLog.eventsFor {s s' : RelayStores} (h : SameLog s s') (runnerId : String) :
    s'.eventsFor runnerId = s.eventsFor runnerId := by
  unfold RelayStores.eventsFor; rw [h.events]

theorem SameLog.eventWatermark {s s' : RelayStores} (h : SameLog s s') (runnerId : String) :
    s'.eventWatermark runnerId = s.eventWatermark runnerId := by
  unfold RelayStores.eventWatermark; rw [h.watermark]

section SetState

variable (s : RelayStores) (id : String) (target : CommandState) (now : ℕ)

theorem sameLog_setCommandState : SameLog s (s.setCommandState id target now) := by
  unfold RelayStores.setCommandState
  split <;> exact ⟨rfl, rfl⟩

theorem get?_setCommandState (id' : String) :
    (s.setCommandState id target now).commands.get? id' =
      if id = id' then
        (s.commands.get? id').map fun record => RelayStores.applyState record target now
      else s.commands.get? id' := by
  unfold RelayStores.setCommandState
  rcases hg : s.commands.get? id with _ | record
  · split_ifs with he
    · rw [← he, hg]; rfl
    · rfl
  · simp only [OrdMap.get?_set]
    split_ifs with he
    · rw [← he, hg]; rfl
    · rfl

theorem stateOf_setCommandState (id' : String) :
    stateOf (s.setCommandState id target now) id' =
      if id = id' then (stateOf s id').map fun state => nextState state target
      else stateOf s id' := by
  unfold stateOf
  rw [get?_setCommandState]
  split_ifs
  · rcases s.commands.get? id' with _ | record
    · rfl
    · simp [applyState_state]
  · rfl

variable {s}

theorem Keyed.setCommandState (h : Keyed s) : Keyed (s.setCommandState id target now) := by
  intro id' record hg
  rw [get?_setCommandState] at hg
  split_ifs at hg with he
  · obtain ⟨record', hg', rfl⟩ := Option.map_eq_some_iff.mp hg
    rw [applyState_envelope]
    exact h id' record' hg'
  · exact h id' record hg

end SetState

/-! ### A round of `pendingCommandsFor` -/

section Pending

variable (runnerId : String) (executed : List String) (now : ℕ)

/-- The record is one that is resent or expired. -/
def Unfinished (record : CommandRecord) : Prop :=
  record.envelope.runner_id = runnerId ∧ (record.state = .queued ∨ record.state = .delivered) ∧
    record.envelope.command_id ∉ executed

/-- What collecting a record does. -/
theorem collectPending_cases (acc : RelayStores × List CommandEnvelope) (record : CommandRecord) :
    RelayStores.collectPending runnerId executed now acc record = acc ∨
      (Unfinished runnerId executed record ∧
        (isCommandExpired record.envelope now = true ∧
            RelayStores.collectPending runnerId executed now acc record =
              (acc.1.setCommandState record.envelope.command_id .expired now, acc.2) ∨
          isCommandExpired record.envelope now = false ∧
            RelayStores.collectPending runnerId executed now acc record =
              (acc.1, acc.2 ++ [record.envelope]))) := by
  unfold RelayStores.collectPending
  by_cases h1 : record.envelope.runner_id = runnerId
  · by_cases h2 : record.state ≠ .queued ∧ record.state ≠ .delivered
    · left; rw [if_neg (by simpa using h1), if_pos h2]
    by_cases h3 : record.envelope.command_id ∈ executed
    · left; rw [if_neg (by simpa using h1), if_neg h2, if_pos h3]
    · right
      rw [if_neg (by simpa using h1), if_neg h2, if_neg h3]
      refine ⟨⟨h1, by simpa [or_iff_not_imp_left] using h2, h3⟩, ?_⟩
      rcases he : isCommandExpired record.envelope now with _ | _
      · exact .inr ⟨rfl, rfl⟩
      · exact .inl ⟨rfl, rfl⟩
  · left; rw [if_pos h1]

/-- The records of a round: a command none of them expires keeps its record, and what is pending is
the envelope of one of them. -/
theorem foldl_collectPending (records : List CommandRecord) : ∀ acc : RelayStores × List CommandEnvelope,
    let out := records.foldl (RelayStores.collectPending runnerId executed now) acc
    SameLog acc.1 out.1 ∧ (Keyed acc.1 → Keyed out.1) ∧
      (∀ id, (∀ record ∈ records, record.envelope.command_id = id →
          Unfinished runnerId executed record → isCommandExpired record.envelope now = false) →
        out.1.commands.get? id = acc.1.commands.get? id) ∧
      ∀ c ∈ out.2, c ∈ acc.2 ∨ ∃ record ∈ records, record.envelope = c ∧
        Unfinished runnerId executed record ∧ isCommandExpired c now = false := by
  induction records with
  | nil => intro acc; exact ⟨⟨rfl, rfl⟩, fun h => h, fun _ _ => rfl, fun c hc => .inl hc⟩
  | cons record records ih =>
    intro acc
    obtain ⟨hlog, hkeyed, hget, hmem⟩ :=
      ih (RelayStores.collectPending runnerId executed now acc record)
    rw [List.foldl_cons]
    have later : ∀ {c}, (∃ r ∈ records, r.envelope = c ∧ Unfinished runnerId executed r ∧
        isCommandExpired c now = false) → ∃ r ∈ record :: records, r.envelope = c ∧
          Unfinished runnerId executed r ∧ isCommandExpired c now = false :=
      fun ⟨r, hr, h⟩ => ⟨r, List.mem_cons_of_mem _ hr, h⟩
    rcases collectPending_cases runnerId executed now acc record with
      he | ⟨hu, ⟨hexp, he⟩ | ⟨hexp, he⟩⟩
    · rw [he] at hlog hkeyed hget hmem ⊢
      refine ⟨hlog, hkeyed, fun id h => hget id fun r hr => h r (List.mem_cons_of_mem _ hr), ?_⟩
      exact fun c hc => (hmem c hc).imp_right later
    · rw [he] at hlog hkeyed hget hmem ⊢
      refine ⟨(sameLog_setCommandState _ _ _ _).trans hlog, fun h => hkeyed (h.setCommandState _ _ _),
        fun id h => ?_, fun c hc => (hmem c hc).imp_right later⟩
      rw [hget id fun r hr => h r (List.mem_cons_of_mem _ hr), get?_setCommandState, if_neg]
      intro hid
      have := h record List.mem_cons_self hid hu
      rw [hexp] at this
      cases this
    · rw [he] at hlog hkeyed hget hmem ⊢
      refine ⟨hlog, hkeyed, fun id h => hget id fun r hr => h r (List.mem_cons_of_mem _ hr), ?_⟩
      intro c hc
      rcases hmem c hc with hc | hc
      · rcases List.mem_append.mp hc with hc | hc
        · exact .inl hc
        · obtain rfl := List.mem_singleton.mp hc
          exact .inr ⟨record, List.mem_cons_self, rfl, hu, hexp⟩
      · exact .inr (later hc)

variable {s : RelayStores} {runnerId executed now}

/-- A record that is not expired in the round stays as it is. -/
theorem get?_pendingCommandsFor (h : Keyed s) {id : String}
    (hid : ∀ record, s.commands.get? id = some record → Unfinished runnerId executed record →
      isCommandExpired record.envelope now = false) :
    (s.pendingCommandsFor runnerId executed now).1.commands.get? id = s.commands.get? id := by
  refine (foldl_collectPending runnerId executed now s.commands.values (s, [])).2.2.1 id ?_
  intro record hr hrid
  obtain ⟨id', hg⟩ := OrdMap.mem_values.mp hr
  rw [← hrid, h id' record hg] at hid
  exact hid record hg

theorem mem_pendingCommandsFor (h : Keyed s) {c : CommandEnvelope}
    (hc : c ∈ (s.pendingCommandsFor runnerId executed now).2) :
    ∃ record, s.commands.get? c.command_id = some record ∧ record.envelope = c ∧
      Unfinished runnerId executed record ∧ isCommandExpired c now = false := by
  have hc : c ∈ (s.commands.values.foldl
      (RelayStores.collectPending runnerId executed now) (s, [])).2 := (List.mem_insertionSort _).mp hc
  rcases (foldl_collectPending runnerId executed now s.commands.values (s, [])).2.2.2 c hc with
    hc | ⟨record, hr, rfl, hu, hexp⟩
  · cases hc
  · obtain ⟨id', hg⟩ := OrdMap.mem_values.mp hr
    exact ⟨record, by rw [h id' record hg]; exact hg, rfl, hu, hexp⟩

theorem sameLog_pendingCommandsFor : SameLog s (s.pendingCommandsFor runnerId executed now).1 :=
  (foldl_collectPending runnerId executed now s.commands.values (s, [])).1

theorem Keyed.pendingCommandsFor (h : Keyed s) :
    Keyed (s.pendingCommandsFor runnerId executed now).1 :=
  (foldl_collectPending runnerId executed now s.commands.values (s, [])).2.1 h

end Pending

/-! ### Sending -/

theorem markDelivered_spec (commands : List CommandEnvelope) (now : ℕ) : ∀ s : RelayStores,
    SameLog s (s.markDelivered commands now) ∧ (Keyed s → Keyed (s.markDelivered commands now)) ∧
      ∀ id, stateOf (s.markDelivered commands now) id =
        if ∃ c ∈ commands, c.command_id = id then
          (stateOf s id).map fun state => nextState state .delivered
        else stateOf s id := by
  induction commands with
  | nil => intro s; exact ⟨⟨rfl, rfl⟩, fun h => h, fun id => by simp [RelayStores.markDelivered]⟩
  | cons c commands ih =>
    intro s
    obtain ⟨hlog, hkeyed, hstate⟩ := ih (s.setCommandState c.command_id .delivered now)
    refine ⟨(sameLog_setCommandState _ _ _ _).trans hlog, fun h => hkeyed (h.setCommandState _ _ _),
      fun id => (hstate id).trans ?_⟩
    rw [stateOf_setCommandState]
    by_cases hc : c.command_id = id <;> by_cases hm : ∃ c ∈ commands, c.command_id = id
    · rw [if_pos hm, if_pos hc, if_pos ⟨c, List.mem_cons_self, hc⟩, Option.map_map]
      congr 1
      exact funext fun state => nextState_idem state .delivered
    · rw [if_neg hm, if_pos hc, if_pos ⟨c, List.mem_cons_self, hc⟩]
    · obtain ⟨c', hc', hid⟩ := hm
      rw [if_pos ⟨c', hc', hid⟩, if_neg hc, if_pos ⟨c', List.mem_cons_of_mem _ hc', hid⟩]
    · rw [if_neg hm, if_neg hc, if_neg]
      rintro ⟨c', hc', hid⟩
      rcases List.mem_cons.mp hc' with rfl | hc'
      · exact hc hid
      · exact hm ⟨c', hc', hid⟩

end Norns.Server.Outbox
