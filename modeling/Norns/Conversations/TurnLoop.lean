import Norns.Conversations.Turns

/-! # The loop of a turn

What holds while `run` consumes the stream, where the stream breaks it off, and after the success was committed. The
loop is followed event by event; `Broken` lists what it leaves to the `catch` block.

* `Running`, `Open`, `Succeeded`: what holds;
* `handleEvent_started`, `handleEvent_delta`, `handleEvent_finish`, `handleEvent_done`: one event;
* `consume_running`, `consume_done`, `body_spec`: the loop. -/

namespace Norns.Conversations.Turns

open Norns.Lib.Edit
open Norns.Conversations.Context (V2WorkMessageVisibilityStatus)
open Norns.Lib.JsonText (Text isJsonbText)

/-! ### Conditions on the input -/

/-- One of the steps fails for some event. -/
def Input.failsEvent (input : Input) (steps : List Step) : Prop := ∃ step ∈ steps, ∃ i, input.fails (.event i step)

/-- One of the steps of the `catch` block fails. -/
def Input.failsCaught (input : Input) (steps : List Step) : Prop := ∃ step ∈ steps, input.fails (.caught step)

/-- The provider may throw the error. -/
def Input.Throws (input : Input) (error : ProviderError) : Prop :=
  input.ending = some error ∨ input.failing = some (.stream error)

/-- Ids and finish reasons are filled. -/
structure Input.Filled (input : Input) : Prop where
  ids : ∀ error, input.Throws error → ∀ id ∈ error.thrown.metadata.provider_execution_id, id ≠ "" →
    isFilled id = true
  reasons : ∀ error, input.Throws error → ∀ reason ∈ error.thrown.metadata.finish_reason, isFilled reason = true
  finishes : ∀ result, .finish result ∈ input.events → isFilled result.finish_reason = true

/-- The first `finish` is not of the response that was started. -/
def Input.Mismatched (input : Input) : Prop :=
  ∃ front result back, input.events = front ++ .finish result :: back ∧ (∀ other, .finish other ∉ front) ∧
    startedId front ≠ some result.provider_execution_id

/-- Something goes wrong after the success. -/
def Input.IsLate (input : Input) : Prop :=
  input.failsEvent [.complete, .finished] ∨ input.ending ≠ none ∨
    ∃ front result back, input.events = front ++ .finish result :: back ∧ ∃ event ∈ back, event ≠ .text_delta []

/-- The provider has reported usage. -/
def Reported (s : State) : Prop :=
  (∃ result, .finish result ∈ s.received) ∨
    ∃ error usage, s.providerError = some error ∧ exactUsage error = some usage

/-! ### What holds -/

/-- The stream is consumed, and no `finish` has come yet. -/
structure Running (s : State) : Prop where
  terminal : s.terminal = false
  providerError : s.providerError = none
  lease : s.lease = .active
  unfinished : ∀ result, .finish result ∉ s.received
  text : s.text = deltas s.received
  started : s.providerRequestId = startedId s.received
  pending : s.providerRequestId = none → s.rows.attempt.status = .pending
  streaming : ∀ id, s.providerRequestId = some id →
    s.rows.attempt.status = .streaming ∧ s.rows.attempt.provider_request_id = some id
  output : s.visibleOutput = true → s.rows.message = some ⟨.streaming, s.text⟩ ∧
    s.rows.attempt.output_message = true ∧ isStorable s.text = true ∧ given s.texts = s.text
  shown : s.visibleOutput = true → s.providerRequestId ≠ none
  noOutput : s.visibleOutput = false → s.rows.message = none ∧ s.rows.attempt.output_message = false ∧
    hasVisibleContent s.text = false ∧ s.texts = []

/-- The attempt is not settled. -/
structure Unsettled (input : Input) (s : State) : Prop where
  terminal : s.terminal = false
  status : s.rows.attempt.status.isTerminal = false
  pending : s.providerRequestId = none → s.rows.attempt.status = .pending ∧ ∀ id, .response_started id ∉ s.received
  output : s.visibleOutput = true →
    hasVisibleContent s.text = true ∧ ∃ text, s.rows.message = some ⟨.streaming, text⟩
  noOutput : s.visibleOutput = false → s.rows.message = none
  text : s.rows.message ≠ none → s.text = deltas (beforeFinish s.received)
  stored : ∀ message, s.rows.message = some message → ¬ input.failsEvent [.persistVisibleText] →
    message.text = given s.texts ∧ (isJsonbText s.text = true → given s.texts = s.text)

/-- What the error that broke the turn says, and the lease as it was then. -/
structure Open (input : Input) (error : Thrown) (s : State) : Prop where
  unsettled : Unsettled input s
  notTurn : ∀ code message httpStatus, error ≠ .turn code message httpStatus
  ids : input.Filled → s.providerRequestId = none → ∀ id ∈ error.metadata.provider_execution_id, id ≠ "" →
    isFilled id = true
  reasons : input.Filled → ∀ reason ∈ error.metadata.finish_reason, isFilled reason = true
  usage : exactUsage error ≠ none → Reported s
  reported : Reported s → exactUsage error ≠ none ∨ input.Mismatched ∨ ¬ input.Filled ∨
    input.failsEvent [.observe] ∨ (input.failsEvent [.succeed] ∧ ∃ usage, s.lease = .settled usage)
  dispatched : error.metadata.request_dispatched = some false → s.providerError = some error
  lease : s.lease = .active ∨ (∃ usage, s.lease = .settled usage) ∧ Reported s

/-- The success is committed. -/
structure Succeeded (input : Input) (s : State) : Prop where
  status : s.rows.attempt.status = .succeeded
  usage : s.rows.attempt.usage_status = .exact
  dispatched : s.providerRequestId ≠ none
  output : ∃ front result back, s.received = front ++ .finish result :: back ∧ (∀ other, .finish other ∉ front) ∧
    s.rows.message = some ⟨.complete, deltas front⟩ ∧ given s.texts = deltas front
  lease : (∃ usage, s.lease = .settled usage) ∨ s.lease = .active ∧ input.failsEvent [.settle]

/-- The loop goes on after the success. -/
structure Done (input : Input) (s : State) : Prop extends Succeeded input s where
  terminal : s.terminal = true
  visibleOutput : s.visibleOutput = true

/-- What the loop leaves behind where it throws. -/
inductive Broken (input : Input) (error : Thrown) (s : State) : Prop
  | unsettled (h : Open input error s)
  /-- `if (terminal) throw error` -/
  | terminal (h : Succeeded input s) (hterminal : s.terminal = true) (late : input.IsLate)
  | committed (h : Succeeded input s) (hterminal : s.terminal = false) (hfails : input.failsEvent [.complete, .finished])
      (herror : error = .other)

section

variable {input : Input} {error : Thrown} {s : State}

theorem Running.not_reported (h : Running s) : ¬ Reported s := by
  rintro (⟨result, hresult⟩ | ⟨error, usage, herror, -⟩)
  · exact h.unfinished result hresult
  · rw [h.providerError] at herror
    cases herror

/-- An error that says nothing. -/
def IsPlain (error : Thrown) : Prop := error = .other ∨ error = invalidResponse {}

theorem IsPlain.metadata (h : IsPlain error) : error.metadata = {} := by
  rcases h with rfl | rfl
  · rfl
  · rfl

theorem IsPlain.notTurn (h : IsPlain error) : ∀ code message httpStatus, error ≠ .turn code message httpStatus := by
  rcases h with rfl | rfl
  · simp
  · simp [invalidResponse]

/-- An error without metadata, before anything was reported. -/
theorem Unsettled.plain (h : Unsettled input s) (herror : IsPlain error) (hlease : s.lease = .active)
    (hreported : ¬ Reported s) : Open input error s where
  unsettled := h
  notTurn := herror.notTurn
  ids _ _ id hid := by rw [herror.metadata] at hid; cases hid
  reasons _ reason hreason := by rw [herror.metadata] at hreason; cases hreason
  usage husage := by
    unfold exactUsage at husage
    rw [herror.metadata] at husage
    exact absurd rfl husage
  reported h := absurd h hreported
  dispatched hdispatched := by rw [herror.metadata] at hdispatched; cases hdispatched
  lease := .inl hlease

/-- Where the loop stands, the attempt is not settled. -/
theorem Running.unsettled (h : Running s) : Unsettled input s where
  terminal := h.terminal
  status := by
    rcases hid : s.providerRequestId with _ | id
    · rw [h.pending hid]; rfl
    · rw [(h.streaming id hid).1]; rfl
  pending hid := ⟨h.pending hid, startedId_none (h.started.symm.trans hid)⟩
  output hvisible := ⟨(isStorable_iff.mp (h.output hvisible).2.2.1).1, s.text, (h.output hvisible).1⟩
  noOutput hvisible := (h.noOutput hvisible).1
  text _ := by rw [beforeFinish_eq h.unfinished]; exact h.text
  stored message hmessage _ := by
    cases hvisible : s.visibleOutput with
    | false =>
      rw [(h.noOutput hvisible).1] at hmessage
      cases hmessage
    | true =>
      obtain ⟨hrow, -, -, hgiven⟩ := h.output hvisible
      rw [hrow] at hmessage
      cases hmessage
      exact ⟨hgiven.symm, fun _ => hgiven⟩

/-- The next event is taken from the stream. -/
def State.take (s : State) (event : ConversationStreamEvent) : State := { s with received := s.received ++ [event] }

theorem not_finish_mem {events : List ConversationStreamEvent} {event : ConversationStreamEvent}
    (h : ∀ result, .finish result ∉ events) (hevent : ∀ result, event ≠ .finish result) :
    ∀ result, .finish result ∉ events ++ [event] := by
  intro result hmem
  rcases List.mem_append.mp hmem with hmem | hmem
  · exact h result hmem
  · exact hevent result (List.mem_singleton.mp hmem).symm

theorem startedId_take {events : List ConversationStreamEvent} {event : ConversationStreamEvent}
    (hevent : ∀ id, event ≠ .response_started id) : startedId (events ++ [event]) = startedId events := by
  rcases hid : startedId events with _ | id
  · rw [startedId_append hid]
    cases event with
    | response_started id => exact absurd rfl (hevent id)
    | text_delta delta => rfl
    | finish result => rfl
  · exact startedId_append_of_some hid _

/-- An event that only ends the turn. -/
theorem Running.refused (h : Running s) {event : ConversationStreamEvent}
    (hevent : ∀ result, event ≠ .finish result)
    (htext : s.providerRequestId ≠ none → ∀ delta, event ≠ .text_delta delta)
    (hstarted : s.providerRequestId = none → ∀ id, event ≠ .response_started id) :
    Open input (invalidResponse {}) (s.take event) := by
  have hunfinished := not_finish_mem h.unfinished hevent
  have hunsettled : Unsettled input s := h.unsettled
  refine Unsettled.plain ⟨h.terminal, hunsettled.status, fun hid => ⟨h.pending hid, ?_⟩, hunsettled.output,
    hunsettled.noOutput, fun hmessage => ?_, hunsettled.stored⟩ (.inr rfl) h.lease ?_
  · intro id hmem
    rcases List.mem_append.mp hmem with hmem | hmem
    · exact (hunsettled.pending hid).2 id hmem
    · exact hstarted hid id (List.mem_singleton.mp hmem).symm
  · have hvisible : s.visibleOutput = true := by
      by_contra hnot
      exact hmessage (hunsettled.noOutput (by simpa using hnot))
    show s.text = deltas (beforeFinish (s.received ++ [event]))
    rw [beforeFinish_eq hunfinished, deltas_append_other (htext (h.shown hvisible))]
    exact h.text
  · rintro (⟨result, hresult⟩ | hother)
    · exact hunfinished result hresult
    · exact h.not_reported (.inr hother)

/-- `response_started` -/
theorem handleEvent_started (h : Running s) (i : ℕ) (id : String) :
    Sat (handleEvent input i (.response_started id)) (s.take (.response_started id))
      (fun _ s' => Running s' ∧ s'.received = s.received ++ [.response_started id])
      fun error s' => Broken input error s' := by
  have hunfinished := @not_finish_mem s.received (.response_started id) h.unfinished (by simp)
  have hdeltas : s.text = deltas (s.received ++ [.response_started id]) := by
    rw [deltas_append_other (by simp)]
    exact h.text
  have hunsettled : Unsettled input s := h.unsettled
  unfold handleEvent
  rw [sat_bind, sat_get]
  dsimp only
  by_cases hid : s.providerRequestId = none
  · have hmessage : s.visibleOutput = false := by
      by_contra hnot
      exact h.shown (by simpa using hnot) hid
    have hnot : ¬ Reported { s.take (.response_started id) with providerRequestId := some id } := by
      rintro (⟨result, hresult⟩ | hother)
      · exact hunfinished result hresult
      · exact h.not_reported (.inr hother)
    have hbroken : Open input .other { s.take (.response_started id) with providerRequestId := some id } := by
      refine Unsettled.plain ⟨h.terminal, hunsettled.status, fun hnone => absurd hnone (by simp),
        hunsettled.output, hunsettled.noOutput, fun _ => ?_, hunsettled.stored⟩ (.inl rfl) h.lease hnot
      show s.text = deltas (beforeFinish (s.received ++ [.response_started id]))
      rw [beforeFinish_eq hunfinished]
      exact hdeltas
    rw [if_neg (by simp [State.take, hid]), sat_bind, sat_modify, sat_bind]
    refine sat_attempted (fun _ => .unsettled hbroken) fun _ => sat_transact (fun _ => .unsettled hbroken) ?_
    intro rows hrows
    unfold Rows.markDispatched at hrows
    split at hrows
    case isFalse => cases hrows
    case isTrue hpending =>
      cases hrows
      have hrunning : Running { s.take (.response_started id) with
          providerRequestId := some id
          rows := { s.rows with
            attempt := { s.rows.attempt with
              status := .streaming
              provider_request_id := some id } } } := by
        refine ⟨h.terminal, h.providerError, h.lease, hunfinished, hdeltas, ?_, fun hnone => absurd hnone (by simp),
          fun id' hid' => ?_, fun hvisible => ?_, fun _ => by simp, h.noOutput⟩
        · have hnone : startedId s.received = none := h.started.symm.trans hid
          show some id = startedId (s.received ++ [.response_started id])
          rw [startedId_append hnone]
          rfl
        · cases hid'
          exact ⟨rfl, rfl⟩
        · rw [show s.visibleOutput = true from hvisible] at hmessage
          cases hmessage
      refine sat_attempted (fun _ => .unsettled ?_) fun _ => ⟨hrunning, rfl⟩
      exact hrunning.unsettled.plain (.inl rfl) hrunning.lease hrunning.not_reported
  · rw [if_pos (by simpa [State.take] using hid), sat_throw]
    exact .unsettled (h.refused (by simp) (fun _ => by simp) fun hnone => absurd hnone hid)

/-- The state when a delta has been added to the text. -/
def State.addText (s : State) (delta : Text) : State :=
  { s.take (.text_delta delta) with text := s.text ++ delta }

/-- A delta is received, and the call that stores it fails or is refused. -/
theorem Running.unstored (h : Running s) (hid : s.providerRequestId ≠ none) (delta : Text)
    (hvisible : s.visibleOutput = true → input.failsEvent [.persistVisibleText] ∨
      isJsonbText (s.text ++ delta) = false) :
    Open input .other (s.addText delta) := by
  have hunfinished := @not_finish_mem s.received (.text_delta delta) h.unfinished (by simp)
  have hunsettled : Unsettled input s := h.unsettled
  refine Unsettled.plain ⟨h.terminal, hunsettled.status, fun hnone => absurd hnone hid, fun hshown => ?_,
    hunsettled.noOutput, fun _ => ?_, fun message hmessage hfails => ?_⟩ (.inl rfl) h.lease ?_
  · have hvisible' := (isStorable_iff.mp (h.output hshown).2.2.1).1
    exact ⟨hasVisibleContent_append hvisible' delta, s.text, (h.output hshown).1⟩
  · show s.text ++ delta = deltas (beforeFinish (s.received ++ [.text_delta delta]))
    rw [beforeFinish_eq hunfinished, deltas_append_delta, h.text]
  · cases hshown : s.visibleOutput with
    | true =>
      have hrefused := (hvisible hshown).resolve_left hfails
      obtain ⟨hrow, -, -, hgiven⟩ := h.output hshown
      cases hrow.symm.trans hmessage
      exact ⟨hgiven.symm, fun hkept => absurd (hrefused.symm.trans hkept) (by simp)⟩
    | false =>
      have hnone : s.rows.message = none := hunsettled.noOutput hshown
      rw [show s.rows.message = some message from hmessage] at hnone
      cases hnone
  · rintro (⟨result, hresult⟩ | hother)
    · exact hunfinished result hresult
    · exact h.not_reported (.inr hother)

/-- A delta is shown: the rows hold the text. -/
theorem Running.showText (h : Running s) (hid : s.providerRequestId ≠ none) (delta given' : Text)
    (hstorable : isStorable (s.text ++ delta) = true) (hgiven : given s.texts ++ given' = s.text ++ delta)
    {visibleOutput : Bool} (hshown : visibleOutput = true) :
    Running { s.addText delta with
      rows :=
        { attempt := { s.rows.attempt with output_message := true }
          message := some ⟨.streaming, s.text ++ delta⟩ }
      visibleOutput := visibleOutput
      texts := s.texts ++ [given'] } where
  terminal := h.terminal
  providerError := h.providerError
  lease := h.lease
  unfinished := not_finish_mem h.unfinished (by simp)
  text := by
    show s.text ++ delta = deltas (s.received ++ [.text_delta delta])
    rw [deltas_append_delta, h.text]
  started := by
    show s.providerRequestId = startedId (s.received ++ [.text_delta delta])
    rw [startedId_take (by simp)]
    exact h.started
  pending hnone := absurd hnone hid
  streaming := h.streaming
  output _ := ⟨rfl, rfl, hstorable, by rw [given_append]; exact hgiven⟩
  shown _ := hid
  noOutput hnot := absurd (hshown.symm.trans hnot) (by simp)

/-- A text that is not visible is kept. -/
theorem Running.keepText (h : Running s) (delta : Text) (hhidden : s.visibleOutput = false)
    (hvisible : hasVisibleContent (s.text ++ delta) = false) : Running (s.addText delta) where
  terminal := h.terminal
  providerError := h.providerError
  lease := h.lease
  unfinished := not_finish_mem h.unfinished (by simp)
  text := by
    show s.text ++ delta = deltas (s.received ++ [.text_delta delta])
    rw [deltas_append_delta, h.text]
  started := by
    show s.providerRequestId = startedId (s.received ++ [.text_delta delta])
    rw [startedId_take (by simp)]
    exact h.started
  pending := h.pending
  streaming := h.streaming
  output hnot := absurd (hhidden.symm.trans hnot) (by simp)
  shown hnot := absurd (hhidden.symm.trans hnot) (by simp)
  noOutput _ := ⟨(h.noOutput hhidden).1, (h.noOutput hhidden).2.1, hvisible, (h.noOutput hhidden).2.2.2⟩

/-- An empty delta changes nothing. -/
theorem Running.takeEmpty (h : Running s) : Running (s.take (.text_delta [])) where
  terminal := h.terminal
  providerError := h.providerError
  lease := h.lease
  unfinished := not_finish_mem h.unfinished (by simp)
  text := by
    show s.text = deltas (s.received ++ [.text_delta []])
    rw [deltas_append_delta, List.append_nil]
    exact h.text
  started := by
    show s.providerRequestId = startedId (s.received ++ [.text_delta []])
    rw [startedId_take (by simp)]
    exact h.started
  pending := h.pending
  streaming := h.streaming
  output := h.output
  shown := h.shown
  noOutput := h.noOutput

/-- `callbacks.text` may throw, after the rows were written. -/
theorem sat_give {t : State} (i : ℕ) (delta : Text) (h : Running { t with texts := t.texts ++ [delta] }) :
    Sat (give input i delta) t (fun _ s' => Running s' ∧ s'.received = t.received)
      fun error s' => Broken input error s' := by
  unfold give
  rw [sat_bind, sat_modify]
  refine sat_attempted (fun _ => .unsettled ?_) fun _ => ⟨h, rfl⟩
  exact h.unsettled.plain (.inl rfl) h.lease h.not_reported

/-- `text_delta` -/
theorem handleEvent_delta (h : Running s) (i : ℕ) (delta : Text) :
    Sat (handleEvent input i (.text_delta delta)) (s.take (.text_delta delta))
      (fun _ s' => Running s' ∧ s'.received = s.received ++ [.text_delta delta])
      fun error s' => Broken input error s' := by
  unfold handleEvent
  rw [sat_bind, sat_get]
  dsimp only
  by_cases hid : s.providerRequestId = none
  · rw [if_pos (by simpa [State.take] using hid), sat_throw]
    exact .unsettled (h.refused (by simp) (fun hsome => absurd hid hsome) fun _ => by simp)
  rw [if_neg (by simpa [State.take] using hid)]
  by_cases hempty : delta = []
  · rw [if_pos hempty, sat_pure]
    subst hempty
    exact ⟨h.takeEmpty, rfl⟩
  rw [if_neg hempty, sat_bind, sat_modify]
  cases hshown : s.visibleOutput with
  | true =>
    obtain ⟨hmessage, houtput, hstorable, hgiven⟩ := h.output hshown
    have hvisible := hasVisibleContent_append (isStorable_iff.mp hstorable).1 delta
    have hpersist : (s.take (.text_delta delta)).rows.persistVisibleText (s.text ++ delta) =
        if isStorable (s.text ++ delta) = true then
          some
            { attempt := { s.rows.attempt with output_message := true }
              message := some ⟨.streaming, s.text ++ delta⟩ }
        else none := by
      simp only [Rows.persistVisibleText, Rows.writeMessage, State.take, hmessage, true_and, ← houtput]
    rw [if_pos (show (s.take (.text_delta delta)).visibleOutput = true from hshown), sat_bind]
    refine sat_attempted (fun hfails => .unsettled (h.unstored hid delta fun _ => .inl ?_)) fun _ =>
      sat_transact (fun hnone => .unsettled (h.unstored hid delta fun _ => .inr ?_)) fun rows hrows => ?_
    · exact ⟨_, List.mem_singleton_self _, i, hfails⟩
    · by_contra hkept
      rw [if_pos (isStorable_iff.mpr ⟨hvisible, by simpa using hkept⟩)] at hpersist
      cases hnone.symm.trans hpersist
    · replace hrows := hrows.symm.trans hpersist
      split at hrows
      case isFalse => cases hrows
      case isTrue hstorable' =>
      cases hrows
      exact sat_give i delta (h.showText hid delta delta hstorable' (by rw [hgiven]) hshown)
  | false =>
    obtain ⟨-, -, -, htexts⟩ := h.noOutput hshown
    rw [if_neg (show ¬ (s.take (.text_delta delta)).visibleOutput = true by simp [State.take, hshown])]
    cases hvisible : hasVisibleContent (s.text ++ delta) with
    | false =>
      rw [if_neg (by simp [State.take, hvisible]), sat_pure]
      exact ⟨h.keepText delta hshown hvisible, rfl⟩
    | true =>
      rw [if_pos (by simp [State.take, hvisible]), sat_bind]
      have hbroken : Open input .other (s.addText delta) :=
        h.unstored hid delta fun hnot => absurd (hshown.symm.trans hnot) (by simp)
      refine sat_attempted (fun _ => .unsettled hbroken) fun _ => sat_transact (fun _ => .unsettled hbroken) ?_
      intro rows hrows
      unfold Rows.startVisibleOutput at hrows
      split at hrows
      case isFalse => cases hrows
      case isTrue hallowed =>
        cases hrows
        rw [sat_bind, sat_modify]
        exact sat_give i (s.text ++ delta) (h.showText hid delta (s.text ++ delta) hallowed.2.2.2 (by
          rw [htexts]
          rfl) rfl)

/-- Trace and lease are not part of the rows. -/
theorem Unsettled.frame (h : Unsettled input s) (trace : List TraceEvent) (lease : Lease) :
    Unsettled input
      { s with
        trace := trace
        lease := lease } :=
  ⟨h.terminal, h.status, h.pending, h.output, h.noOutput, h.text, h.stored⟩

theorem Running.unsettled_finish (h : Running s) (result : ConversationResult) :
    Unsettled input (s.take (.finish result)) := by
  have hunsettled : Unsettled input s := h.unsettled
  refine ⟨h.terminal, hunsettled.status, fun hid => ⟨h.pending hid, fun id hmem => ?_⟩, hunsettled.output,
    hunsettled.noOutput, fun _ => ?_, hunsettled.stored⟩
  · rcases List.mem_append.mp hmem with hmem | hmem
    · exact (hunsettled.pending hid).2 id hmem
    · simp at hmem
  · show s.text = deltas (beforeFinish (s.received ++ .finish result :: []))
    rw [beforeFinish_append_finish h.unfinished]
    exact h.text

theorem reported_finish (s : State) (result : ConversationResult) : Reported (s.take (.finish result)) :=
  .inl ⟨result, List.mem_append_right _ (List.mem_singleton_self _)⟩

/-- A result that is refused with its usage. -/
theorem Running.refusedResult (h : Running s) {result : ConversationResult} (hmem : .finish result ∈ input.events)
    (hid : s.providerRequestId ≠ none) :
    Open input (invalidResponse result.metadata) (s.take (.finish result)) where
  unsettled := h.unsettled_finish result
  notTurn := by simp [invalidResponse]
  ids _ hnone := absurd hnone hid
  reasons hfilled reason hreason := by
    cases hreason
    exact hfilled.finishes result hmem
  usage _ := reported_finish s result
  reported _ := .inl (by simp [exactUsage, invalidResponse, Thrown.metadata, ConversationResult.metadata])
  dispatched hnot := by
    simp [invalidResponse, Thrown.metadata, ConversationResult.metadata] at hnot
  lease := .inl h.lease

/-- A call fails between the result and the success. -/
theorem Running.lostResult (h : Running s) (result : ConversationResult) {error : Thrown}
    (herror : IsPlain error) (trace : List TraceEvent) {lease : Lease}
    (hlease : lease = .active ∨ ∃ usage, lease = .settled usage)
    (hcause : input.Mismatched ∨ ¬ input.Filled ∨ input.failsEvent [.observe] ∨
      (input.failsEvent [.succeed] ∧ ∃ usage, lease = .settled usage)) :
    Open input error
      { s.take (.finish result) with
        trace := trace
        lease := lease } where
  unsettled := (h.unsettled_finish result).frame trace lease
  notTurn := herror.notTurn
  ids _ _ id hid := by rw [herror.metadata] at hid; cases hid
  reasons _ reason hreason := by rw [herror.metadata] at hreason; cases hreason
  usage _ := reported_finish s result
  reported _ := .inr hcause
  dispatched hnot := by rw [herror.metadata] at hnot; cases hnot
  lease := hlease.imp_right fun hsettled => ⟨hsettled, reported_finish s result⟩

theorem fails_unique {c c' : Call} (h : input.fails c) (h' : input.fails c') : c = c' := by
  unfold Input.fails at h h'
  rw [h] at h'
  cases h'
  rfl

theorem failsEvent_of {step : Step} {steps : List Step} {i : ℕ} (h : input.fails (.event i step))
    (hmem : step ∈ steps) : input.failsEvent steps := ⟨step, hmem, i, h⟩

/-- The rows of a success. -/
theorem Running.succeed_eq (h : Running s) {result : ConversationResult}
    (hid : s.providerRequestId = some result.provider_execution_id) (hshown : s.visibleOutput = true) :
    s.rows.succeed s.text result.provider_execution_id result.finish_reason result.usage =
      if isFilled result.finish_reason then
        some
          { attempt := { s.rows.attempt with
              status := .succeeded
              provider_request_id := some result.provider_execution_id
              provider_finish_reason := some result.finish_reason
              usage_status := .exact
              usage := some result.usage.recorded }
            message := some ⟨.complete, s.text⟩ }
      else none := by
  obtain ⟨hmessage, houtput, hstorable, -⟩ := h.output hshown
  obtain ⟨hstatus, hrequest⟩ := h.streaming _ hid
  have hempty : s.text ≠ [] := by
    intro hempty
    rw [hempty] at hstorable
    revert hstorable
    decide
  unfold Rows.succeed Rows.finalizeMessage Rows.writeMessage
  rw [if_neg hempty, hmessage]
  simp only [hstorable, and_self, if_true, hstatus, houtput, true_and, hrequest, Option.orElse_some]

theorem sat_commitSuccess (h : Running s) {i : ℕ} {result : ConversationResult}
    (hmem : .finish result ∈ input.events) (hid : s.providerRequestId = some result.provider_execution_id)
    (hshown : s.visibleOutput = true) (trace : List TraceEvent)
    {lease : Lease} (hlease : lease = .settled result.usage ∨ lease = .active ∧ input.fails (.event i .settle)) :
    Sat (commitSuccess input i result s.text)
      { s.take (.finish result) with
        trace := trace
        lease := lease }
      (fun _ s' => Succeeded input s' ∧ s'.terminal = false ∧ s'.received = s.received ++ [.finish result])
      fun error s' => Broken input error s' := by
  have hlease' : lease = .active ∨ ∃ usage, lease = .settled usage :=
    hlease.elim (fun hsettled => .inr ⟨_, hsettled⟩) fun hactive => .inl hactive.1
  unfold commitSuccess
  rw [sat_bind]
  refine sat_attempted (fun hfails => .unsettled (h.lostResult result (.inl rfl) trace hlease' ?_)) fun _ =>
    sat_transact (fun hnone => .unsettled (h.lostResult result (.inl rfl) trace hlease' ?_)) fun rows hrows => ?_
  · have hsettled : lease = .settled result.usage := by
      rcases hlease with hsettled | ⟨-, hsettle⟩
      · exact hsettled
      · cases fails_unique hfails hsettle
    exact .inr (.inr (.inr ⟨failsEvent_of hfails (List.mem_singleton_self _), _, hsettled⟩))
  · refine .inr (.inl fun hfilled => ?_)
    have hsome := h.succeed_eq hid hshown
    rw [if_pos (hfilled.finishes result hmem)] at hsome
    cases hnone.symm.trans hsome
  · replace hrows := hrows.symm.trans (h.succeed_eq hid hshown)
    split at hrows
    case isFalse => cases hrows
    case isTrue =>
    cases hrows
    have hsucceeded : ∀ trace, Succeeded input
        { s.take (.finish result) with
          trace := trace
          lease := lease
          rows :=
            { attempt := { s.rows.attempt with
                status := .succeeded
                provider_request_id := some result.provider_execution_id
                provider_finish_reason := some result.finish_reason
                usage_status := .exact
                usage := some result.usage.recorded }
              message := some ⟨.complete, s.text⟩ } } := by
      intro trace
      refine ⟨rfl, rfl, ?_, ⟨s.received, result, [], rfl, h.unfinished, ?_, ?_⟩, ?_⟩
      · show s.providerRequestId ≠ none
        rw [hid]
        simp
      · rw [← h.text]
      · exact (h.output hshown).2.2.2.trans h.text
      · rcases hlease with hsettled | ⟨hactive, hsettle⟩
        · exact .inl ⟨_, hsettled⟩
        · exact .inr ⟨hactive, failsEvent_of hsettle (List.mem_singleton_self _)⟩
    rw [sat_bind]
    refine sat_attempted (fun hfails => ?_) fun _ => ?_
    · exact .committed (hsucceeded trace) h.terminal (failsEvent_of hfails (by simp)) rfl
    · unfold report
      rw [sat_modify]
      refine sat_attempted (fun hfails => ?_) fun _ => ⟨hsucceeded _, h.terminal, rfl⟩
      exact .committed (hsucceeded _) h.terminal (failsEvent_of hfails (by simp)) rfl

/-- `finish` -/
theorem handleEvent_finish (h : Running s) (i : ℕ) (result : ConversationResult)
    {rest : List ConversationStreamEvent} (hinput : input.events = s.received ++ .finish result :: rest) :
    Sat (handleEvent input i (.finish result)) (s.take (.finish result))
      (fun _ s' => Done input s' ∧ s'.received = s.received ++ [.finish result])
      fun error s' => Broken input error s' := by
  have hmem : .finish result ∈ input.events := by rw [hinput]; simp
  unfold handleEvent
  rw [sat_bind, sat_get]
  dsimp only
  rw [sat_bind]
  unfold finish
  by_cases hid : s.providerRequestId = some result.provider_execution_id
  case neg =>
    rw [if_pos (show (s.take (.finish result)).providerRequestId ≠ some result.provider_execution_id from hid),
      sat_throw]
    refine .unsettled (h.lostResult result (.inr rfl) s.trace (.inl h.lease) (.inl ?_))
    exact ⟨s.received, result, rest, hinput, h.unfinished, by rw [← h.started]; exact hid⟩
  case pos =>
  have hsome : s.providerRequestId ≠ none := by rw [hid]; simp
  rw [if_neg (show ¬ (s.take (.finish result)).providerRequestId ≠ some result.provider_execution_id from
    not_not.mpr hid)]
  by_cases htext : result.text = s.text
  case neg =>
    rw [if_pos (show result.text ≠ (s.take (.finish result)).text from htext), sat_throw]
    exact .unsettled (h.refusedResult hmem hsome)
  case pos =>
  rw [if_neg (show ¬ result.text ≠ (s.take (.finish result)).text from not_not.mpr htext)]
  cases hvisible : hasVisibleContent s.text with
  | false =>
    rw [if_pos (show hasVisibleContent (s.take (.finish result)).text = false from hvisible), sat_throw]
    exact .unsettled (h.refusedResult hmem hsome)
  | true =>
    rw [if_neg (show ¬ hasVisibleContent (s.take (.finish result)).text = false by simp [State.take, hvisible])]
    have hshown : s.visibleOutput = true := by
      by_contra hnot
      have hhidden := (h.noOutput (by simpa using hnot)).2.2.1
      rw [hvisible] at hhidden
      cases hhidden
    unfold startOutput
    rw [sat_bind, if_pos (show (s.take (.finish result)).visibleOutput = true from hshown), sat_pure, sat_bind]
    refine sat_attempted (fun hfails => .unsettled (h.lostResult result (.inl rfl) s.trace (.inl h.lease) ?_)) fun _ => ?_
    · exact .inr (.inr (.inl (failsEvent_of hfails (List.mem_singleton_self _))))
    have hcommit : ∀ {lease : Lease}, lease = .settled result.usage ∨
        lease = .active ∧ input.fails (.event i .settle) → _ :=
      fun hlease => sat_commitSuccess h hmem hid hshown
        (s.trace ++ [.observed result.usage result.provider_execution_id]) hlease
    have hfinal : ∀ t : State, Succeeded input t ∧ t.terminal = false ∧
        t.received = s.received ++ [.finish result] →
        Sat (modify fun s => { s with visibleOutput := true, terminal := true } : Turn Unit) t
          (fun _ s' => Done input s' ∧ s'.received = s.received ++ [.finish result])
          fun error s' => Broken input error s' := by
      rintro t ⟨ht, -, hreceived⟩
      exact ⟨⟨⟨ht.status, ht.usage, ht.dispatched, ht.output, ht.lease⟩, rfl, rfl⟩, hreceived⟩
    unfold report
    rw [sat_modify, sat_bind]
    refine sat_swallow_resolve _ (fun hfails => ?_) fun _ => ?_
    · exact (hcommit (.inr ⟨h.lease, hfails⟩)).mono (fun _ t ht => hfinal t ht) fun _ _ herr => herr
    · refine (hcommit (.inl ?_)).mono (fun _ t ht => hfinal t ht) fun _ _ herr => herr
      show s.lease.resolve _ = _
      rw [h.lease]
      rfl

/-! ### After the success -/

/-- The success stays whatever comes from the stream. -/
theorem Succeeded.frame (h : Succeeded input s) (event : ConversationStreamEvent) (text : Text)
    (trace : List TraceEvent) {lease : Lease} (hlease : lease = s.lease ∨ ∃ usage, lease = .settled usage) :
    Succeeded input
      { s.take event with
        text := text
        trace := trace
        lease := lease } where
  status := h.status
  usage := h.usage
  dispatched := h.dispatched
  output := by
    obtain ⟨front, result, back, hreceived, hfirst, hmessage, hgiven⟩ := h.output
    refine ⟨front, result, back ++ [event], ?_, hfirst, hmessage, hgiven⟩
    show s.received ++ [event] = _
    rw [hreceived, List.append_assoc]
    rfl
  lease := by
    rcases hlease with rfl | hsettled
    · exact h.lease
    · exact .inl hsettled

theorem Succeeded.writeMessage (h : Succeeded input s) (status : V2WorkMessageVisibilityStatus) (text : Text) :
    s.rows.writeMessage status text = none := by
  obtain ⟨front, result, back, -, -, hmessage, -⟩ := h.output
  unfold Rows.writeMessage
  rw [hmessage]
  exact if_neg (by simp)

theorem Succeeded.succeed (h : Succeeded input s) (text : Text) (providerRequestId finishReason : String) (usage : Usage) :
    s.rows.succeed text providerRequestId finishReason usage = none := by
  have hfinalize : s.rows.finalizeMessage .complete text = none := by
    unfold Rows.finalizeMessage
    rw [h.writeMessage, ite_self]
  unfold Rows.succeed
  rw [hfinalize]

/-- A call that writes the message fails after the success. -/
theorem sat_refused {m : Turn Unit} {c : Call} {op : Rows → Option Rows} {t : State} {ok : Unit → State → Prop}
    {err : Thrown → State → Prop} (h : op t.rows = none) (herr : err .other t) :
    Sat (attempted input c (transact op) >>= fun _ => m) t ok err := by
  rw [sat_bind]
  refine sat_attempted (fun _ => herr) fun _ => sat_transact (fun _ => herr) fun rows hrows => ?_
  rw [h] at hrows
  cases hrows

/-- After the success only an empty delta is passed over. -/
theorem handleEvent_done (h : Done input s) (i : ℕ) (event : ConversationStreamEvent) :
    Sat (handleEvent input i event) (s.take event)
      (fun _ s' => s' = s.take event ∧ event = .text_delta [])
      fun _ s' => Succeeded input s' ∧ s'.terminal = true ∧ event ≠ .text_delta [] := by
  have hkept : ∀ event, Succeeded input (s.take event) := fun event => h.frame event s.text s.trace (.inl rfl)
  unfold handleEvent
  rw [sat_bind, sat_get]
  cases event with
  | response_started id =>
    dsimp only
    rw [if_pos (show (s.take (.response_started id)).providerRequestId ≠ none from h.dispatched), sat_throw]
    exact ⟨hkept _, h.terminal, by simp⟩
  | text_delta delta =>
    dsimp only
    rw [if_neg (show ¬ (s.take (.text_delta delta)).providerRequestId = none from h.dispatched)]
    by_cases hempty : delta = []
    · rw [if_pos hempty, sat_pure]
      exact ⟨rfl, by rw [hempty]⟩
    rw [if_neg hempty, sat_bind, sat_modify,
      if_pos (show (s.take (.text_delta delta)).visibleOutput = true from h.visibleOutput)]
    refine sat_refused (h.writeMessage _ _) ⟨h.frame (.text_delta delta) _ s.trace (.inl rfl), h.terminal, ?_⟩
    simpa using hempty
  | finish result =>
    have hlate : ConversationStreamEvent.finish result ≠ .text_delta [] := by simp
    dsimp only
    rw [sat_bind]
    unfold finish
    split
    · exact ⟨hkept _, h.terminal, hlate⟩
    split
    · exact ⟨hkept _, h.terminal, hlate⟩
    split
    · exact ⟨hkept _, h.terminal, hlate⟩
    unfold startOutput
    rw [sat_bind, if_pos (show (s.take (.finish result)).visibleOutput = true from h.visibleOutput), sat_pure,
      sat_bind]
    refine sat_attempted (fun _ => ⟨hkept _, h.terminal, hlate⟩) fun _ => ?_
    have hlease : ∀ outcome, (outcome = Lease.settled result.usage) →
        s.lease.resolve outcome = s.lease ∨ ∃ usage, s.lease.resolve outcome = .settled usage := by
      rintro outcome rfl
      unfold Lease.resolve
      split
      · exact .inr ⟨_, rfl⟩
      · exact .inl rfl
    unfold report
    rw [sat_modify, sat_bind]
    refine sat_swallow_resolve _ (fun _ => ?_) fun _ => ?_
    · exact sat_refused (h.succeed _ _ _ _) ⟨h.frame _ _ _ (.inl rfl), h.terminal, hlate⟩
    · exact sat_refused (h.succeed _ _ _ _) ⟨h.frame _ _ _ (hlease _ rfl), h.terminal, hlate⟩

/-! ### The loop -/

theorem Done.take (h : Done input s) (event : ConversationStreamEvent) : Done input (s.take event) :=
  ⟨h.frame event s.text s.trace (.inl rfl), h.terminal, h.visibleOutput⟩

/-- The loop after the success. -/
theorem consume_done {events : List ConversationStreamEvent} : ∀ {s : State} (i : ℕ), Done input s →
    input.events = s.received ++ events →
      Sat (consume input i events) s (fun _ s' => Done input s') fun error s' => Broken input error s' := by
  induction events with
  | nil =>
    intro s i h hinput
    unfold consume
    split
    · exact h
    · rename_i error hending
      rw [sat_bind, sat_modify, sat_throw]
      refine .terminal ⟨h.status, h.usage, h.dispatched, h.output, h.lease⟩ h.terminal (.inr (.inl ?_))
      rw [hending]
      simp
  | cons event events ih =>
    intro s i h hinput
    unfold consume
    rw [sat_bind, sat_modify, sat_bind]
    refine (handleEvent_done h i event).mono ?_ ?_
    · rintro - _ ⟨rfl, -⟩
      exact ih (i + 1) (h.take event) (by rw [hinput]; exact List.append_cons _ _ _)
    · rintro error t ⟨ht, hterminal, hevent⟩
      obtain ⟨front, result, back, hreceived, -⟩ := h.output
      refine .terminal ht hterminal (.inr (.inr ⟨front, result, back ++ event :: events, ?_, event, ?_, hevent⟩))
      · rw [hinput, hreceived, List.append_assoc]
        rfl
      · exact List.mem_append_right _ List.mem_cons_self

/-- The provider throws. -/
theorem Running.providerThrows (h : Running s) {error : ProviderError} (herror : input.Throws error) :
    Open input error.thrown { s with providerError := some error.thrown } where
  unsettled :=
    have hunsettled : Unsettled input s := h.unsettled
    ⟨h.terminal, hunsettled.status, hunsettled.pending, hunsettled.output, hunsettled.noOutput, hunsettled.text,
      hunsettled.stored⟩
  notTurn := by cases error <;> simp [ProviderError.thrown]
  ids hfilled _ := hfilled.ids error herror
  reasons hfilled := hfilled.reasons error herror
  usage husage := by
    obtain ⟨usage, husage⟩ := Option.ne_none_iff_exists'.mp husage
    exact .inr ⟨_, usage, rfl, husage⟩
  reported hreported := by
    rcases hreported with ⟨result, hresult⟩ | ⟨thrown, usage, hthrown, husage⟩
    · exact absurd hresult (h.unfinished result)
    · cases hthrown
      exact .inl (by rw [husage]; simp)
  dispatched _ := rfl
  lease := .inl h.lease

/-- The loop before the success. -/
theorem consume_running {events : List ConversationStreamEvent} : ∀ {s : State} (i : ℕ), Running s →
    input.events = s.received ++ events →
      Sat (consume input i events) s (fun _ s' => Running s' ∨ Done input s')
        fun error s' => Broken input error s' := by
  induction events with
  | nil =>
    intro s i h hinput
    unfold consume
    split
    · exact .inl h
    · rename_i error hending
      rw [sat_bind, sat_modify, sat_throw]
      exact .unsettled (h.providerThrows (.inl hending))
  | cons event events ih =>
    intro s i h hinput
    have hnext : ∀ t : State, t.received = s.received ++ [event] → input.events = t.received ++ events := by
      intro t ht
      rw [hinput, ht, List.append_assoc]
      rfl
    unfold consume
    rw [sat_bind, sat_modify, sat_bind]
    cases event with
    | response_started id =>
      refine (handleEvent_started h i id).mono ?_ fun _ _ herr => herr
      rintro - t ⟨ht, hreceived⟩
      exact ih (i + 1) ht (hnext t hreceived)
    | text_delta delta =>
      refine (handleEvent_delta h i delta).mono ?_ fun _ _ herr => herr
      rintro - t ⟨ht, hreceived⟩
      exact ih (i + 1) ht (hnext t hreceived)
    | finish result =>
      refine (handleEvent_finish h i result hinput).mono ?_ fun _ _ herr => herr
      rintro - t ⟨ht, hreceived⟩
      exact (consume_done (i + 1) ht (hnext t hreceived)).mono (fun _ _ hok => .inr hok) fun _ _ herr => herr

theorem running_prepared : Running prepared where
  terminal := rfl
  providerError := rfl
  lease := rfl
  unfinished _ := List.not_mem_nil
  text := rfl
  started := rfl
  pending _ := rfl
  streaming _ h := nomatch h
  output h := nomatch h
  shown h := nomatch h
  noOutput _ := ⟨rfl, rfl, by decide, rfl⟩

/-- **The `try` block** ends after a success, or where it breaks. -/
theorem body_spec (input : Input) :
    Sat (body input) prepared (fun _ s' => Done input s') fun error s' => Broken input error s' := by
  unfold body
  split
  · rename_i error hfailing
    rw [sat_bind, sat_modify, sat_throw]
    exact .unsettled (running_prepared.providerThrows (.inr hfailing))
  · rw [sat_bind]
    refine (consume_running 0 running_prepared rfl).mono ?_ fun _ _ herr => herr
    rintro - t ht
    rw [sat_bind, sat_get]
    rcases ht with ht | ht
    · rw [if_neg (by rw [ht.terminal]; simp), sat_throw]
      exact .unsettled (ht.unsettled.plain (.inr rfl) ht.lease ht.not_reported)
    · rw [if_pos ht.terminal, sat_pure]
      exact ht

end

end Norns.Conversations.Turns
