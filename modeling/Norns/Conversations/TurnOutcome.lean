import Norns.Conversations.TurnLoop

/-! # The outcome of a turn

What the `catch` block makes of a turn that broke off, and what holds when a turn has ended: of the attempt, its
output and its usage, of the texts that were shown, and of the lease.

* `attachDispatch_open`, `resolveLease_open`, `closeAttempt_open`: the steps of the `catch` block;
* `caught_open`, `caught_succeeded`: the block;
* `run_outcome`: every turn. -/

namespace Norns.Conversations.Turns

open Norns.Lib.Edit
open Norns.Inference.Proxy (AdapterErrorKind)
open Norns.Lib.JsonText (Text isJsonbText)
open Norns.Lib.Utf8 (units)

/-! ### The end of a turn -/

section

variable {input : Input} {error : Thrown} {s : State}

/-- The calls of the `catch` block that it does not survive. -/
def closing : List Step := [.markDispatched, .observe, .cancel, .fail]

/-- The lease when the turn has ended. -/
structure LeaseOk (input : Input) (s : State) : Prop where
  settled : ∀ usage, s.lease = .settled usage → Reported s
  reported : ¬ input.failsCaught [.markDispatched, .observe, .settle] → ¬ input.failsEvent [.observe, .settle] →
    input.Filled → ¬ input.Mismatched → Reported s → ∃ usage, s.lease = .settled usage
  released : s.lease = .released → (∀ id, .response_started id ∉ s.received) ∧
    ∃ error, s.providerError = some error ∧ error.metadata.request_dispatched = some false

/-- Where a message was allocated, the database takes the text that was received. -/
def Storable (s : State) : Prop :=
  s.rows.message ≠ none → isJsonbText (deltas (beforeFinish s.received)) = true

/-- **What holds when a turn has ended.** -/
structure Ended (input : Input) (s : State) : Prop where
  ended : ¬ input.failsCaught closing → input.Filled → Storable s → s.rows.attempt.status.isTerminal = true ∧
    ∀ message, s.rows.message = some message → message.visibility_status ≠ .streaming
  usage : ¬ input.failsCaught closing → input.Filled → Storable s → ¬ input.Mismatched →
    ¬ input.failsEvent [.observe, .succeed] → Reported s → s.rows.attempt.usage_status = .exact
  text : input.Filled → Storable s → ∀ message, s.rows.message = some message →
    message.text = deltas (beforeFinish s.received)
  texts : ¬ input.failsEvent [.persistVisibleText] → ∀ message, s.rows.message = some message →
    message.text = given s.texts ∧ (Storable s → given s.texts = deltas (beforeFinish s.received))
  lease : LeaseOk input s

theorem failsCaught_of {step : Step} {steps : List Step} (h : input.fails (.caught step)) (hmem : step ∈ steps) :
    input.failsCaught steps := ⟨step, hmem, h⟩

theorem failsEvent_mono {steps steps' : List Step} (h : input.failsEvent steps) (hsub : steps ⊆ steps') :
    input.failsEvent steps' := by
  obtain ⟨step, hmem, i, hfails⟩ := h
  exact ⟨step, hsub hmem, i, hfails⟩

theorem failsCaught_mono {steps steps' : List Step} (h : input.failsCaught steps) (hsub : steps ⊆ steps') :
    input.failsCaught steps' := by
  obtain ⟨step, hmem, hfails⟩ := h
  exact ⟨step, hsub hmem, hfails⟩

/-- One call fails. -/
theorem not_failsEvent {steps steps' : List Step} (h : input.failsCaught steps) : ¬ input.failsEvent steps' := by
  rintro ⟨step', -, i, hfails'⟩
  obtain ⟨step, -, hfails⟩ := h
  cases fails_unique hfails hfails'

/-- The message of an attempt that is not settled. -/
theorem Unsettled.message (h : Unsettled input s) {message : MessageRow} (hmessage : s.rows.message = some message) :
    s.visibleOutput = true ∧ s.text = deltas (beforeFinish s.received) := by
  refine ⟨?_, h.text (by rw [hmessage]; simp)⟩
  by_contra hnot
  rw [h.noOutput (by simpa using hnot)] at hmessage
  cases hmessage

/-- The text received is one that the database takes. -/
theorem Unsettled.kept (h : Unsettled input s) (hstorable : Storable s) {message : MessageRow}
    (hmessage : s.rows.message = some message) : isJsonbText s.text = true := by
  rw [(h.message hmessage).2]
  exact hstorable (by rw [hmessage]; simp)

/-- The attempt is left as it was. -/
theorem Unsettled.left (h : Unsettled input s) (hlease : LeaseOk input s)
    (hfails : input.failsCaught closing ∨ ¬ input.Filled ∨ ¬ Storable s) :
    Ended input s ∧ s.rows.attempt.status ≠ .succeeded := by
  have hcaught : input.Filled → Storable s → input.failsCaught closing := fun hfilled hstorable =>
    hfails.resolve_right fun hrefused => hrefused.elim (fun hblank => hblank hfilled) fun hnot => hnot hstorable
  refine ⟨⟨fun hnot hfilled hstorable => ?_, fun hnot hfilled hstorable => ?_,
    fun hfilled hstorable message hmessage => ?_, fun hnot message hmessage => ?_, hlease⟩, fun hstatus => ?_⟩
  · exact (hnot (hcaught hfilled hstorable)).elim
  · exact (hnot (hcaught hfilled hstorable)).elim
  · obtain ⟨htext, hgiven⟩ := h.stored message hmessage (not_failsEvent (hcaught hfilled hstorable))
    rw [htext, hgiven (h.kept hstorable hmessage)]
    exact (h.message hmessage).2
  · obtain ⟨htext, hgiven⟩ := h.stored message hmessage hnot
    exact ⟨htext, fun hstorable => (hgiven (h.kept hstorable hmessage)).trans (h.message hmessage).2⟩
  · have hopen := h.status
    rw [hstatus] at hopen
    cases hopen

/-- The lease is left as it was. -/
theorem Open.leaseLeft (h : Open input error s)
    (hfails : input.failsCaught [.markDispatched, .observe, .settle] ∨ ¬ input.Filled) : LeaseOk input s where
  settled usage hsettled := by
    rcases h.lease with hactive | ⟨-, hreported⟩
    · rw [hactive] at hsettled
      cases hsettled
    · exact hreported
  reported hnot _ hfilled := (hfails.elim hnot fun hblank => hblank hfilled).elim
  released hreleased := by
    rcases h.lease with hactive | ⟨⟨usage, hsettled⟩, -⟩
    · rw [hactive] at hreleased
      cases hreleased
    · rw [hsettled] at hreleased
      cases hreleased

/-- The `catch` block ends at its first calls. -/
theorem Open.stopped (h : Open input error s) {step : Step} (hstep : step ∈ [Step.markDispatched, .observe])
    (hfails : input.fails (.caught step)) : Ended input s ∧ s.rows.attempt.status ≠ .succeeded := by
  have hmem : input.failsCaught [.markDispatched, .observe] := failsCaught_of hfails hstep
  exact h.unsettled.left (h.leaseLeft (.inl (failsCaught_mono hmem (by simp))))
    (.inl (failsCaught_mono hmem (by simp [closing])))

/-- A dispatch that the metadata tells is recorded. -/
theorem attachDispatch_open (h : Open input error s) :
    Sat (attachDispatch input error) s (fun _ t => Open input error t)
      fun _ t => Ended input t ∧ t.rows.attempt.status ≠ .succeeded := by
  unfold attachDispatch
  rw [sat_bind, sat_get]
  split
  · exact h
  rename_i id hid
  split
  case isFalse => exact h
  case isTrue hnone =>
  obtain ⟨hnone, hne⟩ := hnone
  rw [sat_bind]
  refine sat_attempted (fun hfails => h.stopped (by simp) hfails) fun _ =>
    sat_transact (fun hrefused => ?_) fun rows hrows => ?_
  · have hblank : ¬ input.Filled := by
      intro hfilled
      unfold Rows.markDispatched at hrefused
      rw [if_pos ⟨(h.unsettled.pending hnone).1, h.ids hfilled hnone id hid hne⟩] at hrefused
      cases hrefused
    exact h.unsettled.left (h.leaseLeft (.inr hblank)) (.inr (.inl hblank))
  · unfold Rows.markDispatched at hrows
    split at hrows
    case isFalse => cases hrows
    case isTrue =>
    cases hrows
    have hunsettled := h.unsettled
    rw [sat_modify]
    exact ⟨⟨hunsettled.terminal, rfl, fun hnot => absurd hnot (by simp), hunsettled.output, hunsettled.noOutput,
      hunsettled.text, hunsettled.stored⟩, h.notTurn, fun _ hnot => absurd hnot (by simp), h.reasons, h.usage, h.reported,
      h.dispatched, h.lease⟩

/-- The usage of the error is traced. -/
theorem observeFailure_open (h : Open input error s) :
    Sat (observeFailure input error) s (fun _ t => Open input error t)
      fun _ t => Ended input t ∧ t.rows.attempt.status ≠ .succeeded := by
  unfold observeFailure
  rw [sat_bind, sat_get]
  split
  · split
    · refine sat_attempted (fun hfails => h.stopped (by simp) hfails) fun _ => ?_
      unfold report
      rw [sat_modify]
      exact ⟨h.unsettled.frame _ s.lease, h.notTurn, h.ids, h.reasons, h.usage, h.reported, h.dispatched, h.lease⟩
    · exact h
  · exact h

theorem LeaseOk.of_settled (h : Reported s) {usage : Usage} (hsettled : s.lease = .settled usage) :
    LeaseOk input s where
  settled _ _ := h
  reported _ _ _ _ _ := ⟨usage, hsettled⟩
  released hnot := by
    rw [hsettled] at hnot
    cases hnot

/-- A lease that is not settled, for an error without usage. -/
theorem Open.leaseUnsettled (h : Open input error s) (hnone : exactUsage error = none) (hactive : s.lease = .active)
    {lease : Lease} (hunsettled : ∀ usage, lease ≠ .settled usage)
    (hreleased : lease = .released → s.providerRequestId = none ∧ error.metadata.request_dispatched = some false) :
    LeaseOk input { s with lease := lease } where
  settled usage hsettled := absurd hsettled (hunsettled usage)
  reported _ hevent hfilled hmatched hreported := by
    rcases h.reported hreported with hsome | hmismatched | hblank | hobserve | ⟨-, usage, hsettled⟩
    · exact absurd hnone hsome
    · exact absurd hmismatched hmatched
    · exact absurd hfilled hblank
    · exact absurd (failsEvent_mono hobserve (by simp)) hevent
    · rw [hactive] at hsettled
      cases hsettled
  released hlease := by
    obtain ⟨hid, hdispatched⟩ := hreleased hlease
    exact ⟨(h.unsettled.pending hid).2, error, h.dispatched hdispatched, hdispatched⟩

/-- The lease is resolved as the error says. -/
theorem resolveLease_open (h : Open input error s) :
    Sat (resolveLease input error) s (fun _ t => ∃ lease, t = { s with lease := lease } ∧ LeaseOk input t)
      fun _ _ => False := by
  unfold resolveLease
  rw [sat_bind, sat_get]
  rcases h.lease with hactive | ⟨⟨usage, hsettled⟩, hreported⟩
  · have hresolve : ∀ outcome : Lease, s.lease.resolve outcome = outcome := by
      intro outcome
      unfold Lease.resolve
      rw [if_pos hactive]
    split
    · rename_i usage husage
      refine sat_swallow_resolve _ (fun hfails => ⟨s.lease, rfl, h.leaseLeft (.inl ?_)⟩) fun _ => ⟨_, rfl, ?_⟩
      · exact failsCaught_of hfails (by simp)
      · rw [hresolve]
        exact .of_settled (h.usage (by rw [husage]; simp)) rfl
    · rename_i hnone
      have hleft : LeaseOk input { s with lease := s.lease } :=
        h.leaseUnsettled hnone hactive (by rw [hactive]; simp) (by rw [hactive]; simp)
      split
      · rename_i hreleased
        refine sat_swallow_resolve _ (fun _ => ⟨_, rfl, hleft⟩) fun _ => ⟨_, rfl, ?_⟩
        rw [hresolve]
        exact h.leaseUnsettled hnone hactive (by simp) fun _ => hreleased
      · refine sat_swallow_resolve _ (fun _ => ⟨_, rfl, hleft⟩) fun _ => ⟨_, rfl, ?_⟩
        rw [hresolve]
        exact h.leaseUnsettled hnone hactive (by simp) (by simp)
  · -- the settlement stays
    have hresolve : ∀ outcome : Lease, s.lease.resolve outcome = .settled usage := by
      intro outcome
      unfold Lease.resolve
      rw [hsettled]
      rfl
    have hok : LeaseOk input { s with lease := .settled usage } := .of_settled hreported rfl
    have hleft : LeaseOk input { s with lease := s.lease } := .of_settled hreported hsettled
    split
    · refine sat_swallow_resolve _ (fun _ => ⟨_, rfl, hleft⟩) fun _ => ⟨_, rfl, ?_⟩
      rw [hresolve]
      exact hok
    · split
      · refine sat_swallow_resolve _ (fun _ => ⟨_, rfl, hleft⟩) fun _ => ⟨_, rfl, ?_⟩
        rw [hresolve]
        exact hok
      · refine sat_swallow_resolve _ (fun _ => ⟨_, rfl, hleft⟩) fun _ => ⟨_, rfl, ?_⟩
        rw [hresolve]
        exact hok

/-- The output is interrupted. -/
theorem Unsettled.interrupt (h : Unsettled input s) (hstorable : Storable s) :
    s.rows.interrupt s.visibleOutput s.text = some { s.rows with
      message := if s.visibleOutput then some ⟨.interrupted, s.text⟩ else none } := by
  unfold Rows.interrupt
  cases hshown : s.visibleOutput with
  | false =>
    rw [if_neg (by simp), if_neg (by simp), ← h.noOutput hshown]
  | true =>
    obtain ⟨hvisible, text, hmessage⟩ := h.output hshown
    have hempty : s.text ≠ [] := by
      intro hempty
      rw [hempty] at hvisible
      revert hvisible
      decide
    unfold Rows.finalizeMessage Rows.writeMessage
    rw [if_pos rfl, if_neg hempty, hmessage, if_pos rfl]
    exact if_pos ⟨rfl, isStorable_iff.mpr ⟨hvisible, h.kept hstorable hmessage⟩⟩

/-- The output cannot be interrupted. -/
theorem Unsettled.interrupt_refused (h : Unsettled input s) (hrefused : ¬ Storable s) :
    s.rows.interrupt s.visibleOutput s.text = none := by
  unfold Storable at hrefused
  push Not at hrefused
  obtain ⟨hsome, hrefused⟩ := hrefused
  obtain ⟨message, hmessage⟩ := Option.ne_none_iff_exists'.mp hsome
  have hnot : isStorable s.text ≠ true := fun hstorable =>
    hrefused ((h.message hmessage).2 ▸ (isStorable_iff.mp hstorable).2)
  unfold Rows.interrupt Rows.finalizeMessage Rows.writeMessage
  rw [if_pos (h.message hmessage).1, hmessage]
  split
  · rfl
  · exact if_neg fun hwritten => hnot hwritten.2

/-- The attempt is closed with what the error reports. -/
theorem Open.closed (h : Open input error s) (hstorable : Storable s) {lease : Lease}
    (hlease : LeaseOk input { s with lease := lease }) {attempt : AttemptRow} (hterminal : attempt.status.isTerminal = true) (hstatus : attempt.status ≠ .succeeded)
    (husage : attempt.usage_status = Rows.usageStatus (exactUsage error)) :
    Ended input
        { s with
          lease := lease
          rows :=
            { attempt := attempt
              message := if s.visibleOutput then some ⟨.interrupted, s.text⟩ else none } } ∧
      attempt.status ≠ .succeeded := by
  have hmessage : ∀ message : MessageRow,
      (if s.visibleOutput then some ⟨.interrupted, s.text⟩ else none) = some message →
        message = ⟨.interrupted, s.text⟩ ∧ ∃ old, s.rows.message = some old := by
    intro message hsome
    split at hsome
    case isFalse => cases hsome
    case isTrue hshown =>
    cases hsome
    obtain ⟨-, text, hold⟩ := h.unsettled.output hshown
    exact ⟨rfl, _, hold⟩
  refine ⟨⟨fun _ _ _ => ⟨hterminal, fun message hsome => ?_⟩, fun _ hfilled _ hmatched hevent hreported => ?_,
    fun _ _ message hsome => ?_, fun hnot message hsome => ?_, ⟨hlease.settled, hlease.reported, hlease.released⟩⟩,
    hstatus⟩
  · rw [(hmessage message hsome).1]
    simp
  · show attempt.usage_status = .exact
    rw [husage]
    rcases h.reported hreported with hsome | hmismatched | hblank | hobserve | ⟨hsucceed, -⟩
    · obtain ⟨usage, hsome⟩ := Option.ne_none_iff_exists'.mp hsome
      rw [hsome]
      rfl
    · exact absurd hmismatched hmatched
    · exact absurd hfilled hblank
    · exact absurd (failsEvent_mono hobserve (by simp)) hevent
    · exact absurd (failsEvent_mono hsucceed (by simp)) hevent
  · obtain ⟨rfl, old, hold⟩ := hmessage message hsome
    exact (h.unsettled.message hold).2
  · obtain ⟨rfl, old, hold⟩ := hmessage message hsome
    have hgiven := (h.unsettled.stored old hold hnot).2 (h.unsettled.kept hstorable hold)
    exact ⟨hgiven.symm, fun _ => hgiven.trans (h.unsettled.message hold).2⟩

theorem kind_filled (kind : AdapterErrorKind) : isFilled kind.text = true ∧
    isFilled ("provider stream failed (" ++ kind.text ++ ")") = true := by
  cases kind <;> decide +kernel

theorem publicFailure_filled (herror : ∀ code message httpStatus, error ≠ .turn code message httpStatus) :
    isFilled (publicFailure error).code = true ∧ isFilled (publicFailure error).messageRedacted = true := by
  cases error with
  | adapter error => exact kind_filled error.kind
  | turn code message httpStatus => exact absurd rfl (herror code message httpStatus)
  | other => decide +kernel

theorem Rows.cancel_open {rows : Rows} (h : rows.attempt.status.isTerminal = false) (visibleOutput : Bool)
    (text : Text) (usage : Option Usage) :
    rows.cancel visibleOutput text usage = (rows.interrupt visibleOutput text).map fun rows' =>
      { rows' with
        attempt := { rows'.attempt with
          status := .cancelled
          usage_status := usageStatus usage
          usage := usage.map Usage.recorded } } := by
  unfold Rows.cancel
  rw [h]
  cases rows.interrupt visibleOutput text <;> rfl

theorem Rows.fail_open {rows : Rows} (h : rows.attempt.status.isTerminal = false) (visibleOutput : Bool) (text : Text)
    (usage : Option Usage) {failure : PublicFailure}
    (hfailure : isFilled failure.code = true ∧ isFilled failure.messageRedacted = true)
    (finishReason : Option String) :
    rows.fail visibleOutput text usage failure finishReason = (rows.interrupt visibleOutput text).bind fun rows' =>
      if ∀ reason ∈ finishReason, isFilled reason = true then
        some { rows' with
          attempt := { rows'.attempt with
            status := .failed
            provider_finish_reason := finishReason
            usage_status := usageStatus usage
            usage := usage.map Usage.recorded
            failure := some failure } }
      else none := by
  unfold Rows.fail
  rw [h]
  cases rows.interrupt visibleOutput text with
  | none => rfl
  | some rows' => simp only [Bool.false_eq_true, if_false, hfailure, and_self, and_true, Option.bind_some]

/-- The attempt is closed, or left as it was. -/
theorem closeAttempt_open (h : Open input error s) {lease : Lease} (hlease : LeaseOk input { s with lease := lease }) :
    Sat (closeAttempt input error) { s with lease := lease }
      (fun _ t => Ended input t ∧ t.rows.attempt.status ≠ .succeeded)
      fun _ t => Ended input t ∧ t.rows.attempt.status ≠ .succeeded := by
  have hunsettled : Unsettled input { s with lease := lease } := h.unsettled.frame s.trace lease
  have hleft := fun hcause => hunsettled.left hlease hcause
  have hcancel := Rows.cancel_open h.unsettled.status s.visibleOutput s.text (exactUsage error)
  have hfail := Rows.fail_open h.unsettled.status s.visibleOutput s.text (exactUsage error)
    (publicFailure_filled h.notTurn) error.metadata.finish_reason
  have hcalls : ∀ step ∈ closing, input.fails (.caught step) → input.failsCaught closing := fun step hstep hfails =>
    failsCaught_of hfails hstep
  unfold closeAttempt
  rw [sat_bind, sat_get]
  by_cases hstorable : Storable s
  · rw [h.unsettled.interrupt hstorable] at hcancel hfail
    split
    · refine sat_attempted (fun hfails => hleft (.inl (hcalls .cancel (by simp [closing]) hfails))) fun _ =>
        sat_transact (fun hnone => ?_) fun rows hrows => ?_
      · cases hnone.symm.trans hcancel
      · cases hrows.symm.trans hcancel
        exact h.closed hstorable hlease rfl (by simp) rfl
    · refine sat_attempted (fun hfails => hleft (.inl (hcalls .fail (by simp [closing]) hfails))) fun _ =>
        sat_transact (fun hnone => ?_) fun rows hrows => ?_
      · refine hleft (.inr (.inl fun hfilled => ?_))
        rw [Option.bind_some, if_pos (h.reasons hfilled)] at hfail
        cases hnone.symm.trans hfail
      · replace hrows := hrows.symm.trans hfail
        rw [Option.bind_some] at hrows
        split at hrows
        case isFalse => cases hrows
        case isTrue =>
        cases hrows
        exact h.closed hstorable hlease rfl (by simp) rfl
  · -- the text received is refused, and with it the transaction
    have hrefused := hleft (.inr (.inr hstorable))
    rw [h.unsettled.interrupt_refused hstorable] at hcancel hfail
    split
    · refine sat_attempted (fun _ => hrefused) fun _ => sat_transact (fun _ => hrefused) fun rows hrows => ?_
      cases hrows.symm.trans hcancel
    · refine sat_attempted (fun _ => hrefused) fun _ => sat_transact (fun _ => hrefused) fun rows hrows => ?_
      cases hrows.symm.trans hfail

theorem Ended.report (h : Ended input s) (trace : List TraceEvent) : Ended input { s with trace := trace } :=
  ⟨h.ended, h.usage, h.text, h.texts, ⟨h.lease.settled, h.lease.reported, h.lease.released⟩⟩

/-- **The `catch` block** where the attempt is not settled. -/
theorem caught_open (h : Open input error s) :
    Sat (caught input error) s (fun _ _ => False) fun _ t => Ended input t ∧ t.rows.attempt.status ≠ .succeeded := by
  unfold caught
  rw [sat_bind, sat_get, if_neg (by rw [h.unsettled.terminal]; simp)]
  refine (attachDispatch_open h).bind fun _ s₁ h₁ => ?_
  refine (observeFailure_open h₁).bind fun _ s₂ h₂ => ?_
  rw [sat_bind]
  refine (resolveLease_open h₂).mono ?_ fun _ _ hnot => hnot.elim
  rintro - _ ⟨lease, rfl, hlease⟩
  refine (closeAttempt_open h₂ hlease).bind fun _ s₃ h₃ => ?_
  unfold reportFailure
  rw [sat_bind, sat_get, sat_bind]
  refine sat_attempted (fun _ => h₃) fun _ => ?_
  unfold report
  rw [sat_modify, sat_throw]
  exact ⟨h₃.1.report _, h₃.2⟩

/-- The success is what holds at the end. -/
theorem Succeeded.ended (h : Succeeded input s) : Ended input s := by
  obtain ⟨front, result, back, hreceived, hfirst, hmessage, hgiven⟩ := h.output
  have hbefore : beforeFinish s.received = front := by rw [hreceived, beforeFinish_append_finish hfirst]
  have hreported : Reported s := .inl ⟨result, by rw [hreceived]; simp⟩
  refine ⟨fun _ _ _ => ⟨by rw [h.status]; rfl, fun message hsome => ?_⟩, fun _ _ _ _ _ _ => h.usage,
    fun _ _ message hsome => ?_, fun _ message hsome => ?_, ⟨fun _ _ => hreported, fun _ hevent _ _ _ => ?_,
    fun hreleased => ?_⟩⟩
  · cases hmessage.symm.trans hsome
    simp
  · cases hmessage.symm.trans hsome
    rw [hbefore]
  · cases hmessage.symm.trans hsome
    rw [hbefore]
    exact ⟨hgiven.symm, fun _ => hgiven⟩
  · exact h.lease.resolve_right fun hactive => hevent (failsEvent_mono hactive.2 (by simp))
  · rcases h.lease with ⟨usage, hsettled⟩ | ⟨hactive, -⟩
    · rw [hsettled] at hreleased
      cases hreleased
    · rw [hactive] at hreleased
      cases hreleased

theorem Succeeded.traced (h : Succeeded input s) (trace : List TraceEvent) :
    Succeeded input { s with trace := trace } := ⟨h.status, h.usage, h.dispatched, h.output, h.lease⟩

/-- **The `catch` block** leaves a success alone. -/
theorem caught_succeeded (h : Succeeded input s) (hterminal : s.terminal = false)
    (hfails : input.failsEvent [.complete, .finished]) :
    Sat (caught input .other) s (fun _ _ => False) fun _ t => Succeeded input t := by
  have hsettled : ∃ usage, s.lease = .settled usage := by
    refine h.lease.resolve_right fun hactive => ?_
    obtain ⟨step, hstep, i, hfail⟩ := hfails
    obtain ⟨step', hstep', j, hfail'⟩ := hactive.2
    rw [List.mem_singleton.mp hstep'] at hfail'
    cases fails_unique hfail hfail'
    simp at hstep
  obtain ⟨usage, hsettled⟩ := hsettled
  have hresolve : ∀ outcome : Lease, s.lease.resolve outcome = s.lease := by
    intro outcome
    unfold Lease.resolve
    rw [hsettled]
    rfl
  have hattach : Sat (attachDispatch input .other) s (fun _ t => t = s) fun _ _ => False := rfl
  have hobserve : Sat (observeFailure input .other) s (fun _ t => t = s) fun _ _ => False := rfl
  have hlease : Sat (resolveLease input .other) s (fun _ t => t = s) fun _ _ => False := by
    unfold resolveLease
    rw [sat_bind, sat_get]
    show Sat (if _ then _ else _) s _ _
    rw [if_neg (by simp [h.dispatched])]
    refine sat_swallow_resolve _ (fun _ => rfl) fun _ => ?_
    rw [hresolve]
  have hclose : Sat (closeAttempt input .other) s (fun _ t => t = s) fun _ t => t = s := by
    have hstatus : s.rows.attempt.status.isTerminal = true := by rw [h.status]; rfl
    unfold closeAttempt
    rw [sat_bind, sat_get]
    split
    · refine sat_attempted (fun _ => rfl) fun _ => sat_transact (fun _ => rfl) fun rows hrows => ?_
      unfold Rows.cancel at hrows
      rw [if_pos hstatus] at hrows
      cases hrows
      rfl
    · refine sat_attempted (fun _ => rfl) fun _ => sat_transact (fun _ => rfl) fun rows hrows => ?_
      unfold Rows.fail at hrows
      rw [if_pos hstatus] at hrows
      cases hrows
      rfl
  unfold caught
  rw [sat_bind, sat_get, if_neg (by rw [hterminal]; simp), sat_bind]
  refine hattach.mono ?_ fun _ _ hnot => hnot.elim
  rintro - _ rfl
  rw [sat_bind]
  refine hobserve.mono ?_ fun _ _ hnot => hnot.elim
  rintro - _ rfl
  rw [sat_bind]
  refine hlease.mono ?_ fun _ _ hnot => hnot.elim
  rintro - _ rfl
  rw [sat_bind]
  refine hclose.mono ?_ fun _ t ht => ht ▸ h
  rintro - _ rfl
  unfold reportFailure
  rw [sat_bind, sat_get, sat_bind]
  refine sat_attempted (fun _ => h) fun _ => ?_
  unfold report
  rw [sat_modify, sat_throw]
  exact h.traced _

end

/-! ### Every turn -/

theorem Ended.close {input : Input} {s : State} (h : Ended input s) : Ended input (close input s) :=
  ⟨h.ended, h.usage, h.text, h.texts, ⟨h.lease.settled, h.lease.reported, h.lease.released⟩⟩

/-- The turn resolves after a success; where it throws, the success came before or not at all. -/
theorem run_spec (input : Input) :
    Sat (run input) prepared (fun _ t => Ended input t ∧ t.rows.attempt.status = .succeeded)
      fun _ t => Ended input t ∧ (t.rows.attempt.status = .succeeded → input.IsLate) := by
  have hbody := body_spec input
  unfold Sat at hbody
  unfold Sat run
  rcases hresult : body input prepared with ⟨u, s⟩ | ⟨error, s⟩
  · rw [hresult] at hbody
    exact ⟨hbody.toSucceeded.ended.close, hbody.status⟩
  · rw [hresult] at hbody
    dsimp only at hbody ⊢
    cases hbody with
    | unsettled h =>
      have hcaught := caught_open h
      unfold Sat at hcaught
      rcases hend : caught input error s with ⟨u, t⟩ | ⟨error', t⟩
      · rw [hend] at hcaught
        exact hcaught.elim
      · rw [hend] at hcaught
        exact ⟨hcaught.1.close, fun hstatus => absurd hstatus hcaught.2⟩
    | terminal h hterminal hlate =>
      have hend : caught input error s = .error error s := by
        unfold caught
        rw [get_bind, if_pos hterminal]
        rfl
      rw [hend]
      exact ⟨h.ended.close, fun _ => hlate⟩
    | committed h hterminal hfails herror =>
      subst herror
      have hcaught := caught_succeeded h hterminal hfails
      unfold Sat at hcaught
      rcases hend : caught input .other s with ⟨u, t⟩ | ⟨error', t⟩
      · rw [hend] at hcaught
        exact hcaught.elim
      · rw [hend] at hcaught
        exact ⟨hcaught.ended.close, fun _ => .inl hfails⟩

/-- **The outcome of a turn**: what holds of the rows, the texts and the lease, and when the turn resolves. -/
theorem run_outcome (input : Input) :
    Ended input (after (run input prepared)) ∧
      (thrown? (run input prepared) = none → (after (run input prepared)).rows.attempt.status = .succeeded) ∧
      (¬ input.IsLate → ((after (run input prepared)).rows.attempt.status = .succeeded ↔
        thrown? (run input prepared) = none)) := by
  have hspec := run_spec input
  unfold Sat at hspec
  rcases hrun : run input prepared with ⟨u, t⟩ | ⟨error, t⟩
  · rw [hrun] at hspec
    exact ⟨hspec.1, fun _ => hspec.2, fun _ => ⟨fun _ => rfl, fun _ => hspec.2⟩⟩
  · rw [hrun] at hspec
    exact ⟨hspec.1, fun hnone => (nomatch hnone),
      fun hlate => ⟨fun hstatus => absurd (hspec.2 hstatus) hlate, fun hnone => (nomatch hnone)⟩⟩

/-- The outcome without any exception. -/
structure Outcome (r : EStateM.Result Thrown State Unit) : Prop where
  ended : (after r).rows.attempt.status.isTerminal = true ∧
    ∀ message, (after r).rows.message = some message → message.visibility_status ≠ .streaming
  resolved : (after r).rows.attempt.status = .succeeded ↔ thrown? r = none
  usage : Reported (after r) → (after r).rows.attempt.usage_status = .exact
  text : ∀ message, (after r).rows.message = some message →
    message.text = given (after r).texts ∧ given (after r).texts = deltas (after r).received
  settled : (∃ usage, (after r).lease = .settled usage) ↔ Reported (after r)
  released : (after r).lease = .released → (∀ id, .response_started id ∉ (after r).received) ∧
    ∃ error, (after r).providerError = some error ∧ error.metadata.request_dispatched = some false

def someResult : ConversationResult where
  text := units "ab"
  usage := { actual_cost_usd := none, estimated_cost_usd := 1 / 100, input_tokens := 10, output_tokens := 2 }
  provider_execution_id := "response-1"
  finish_reason := "stop"

/-- A response of two deltas, in which one call fails. -/
def responseWith (c : Call) : Input where
  events := [.response_started "response-1", .text_delta (units "a"), .text_delta (units "b"), .finish someResult]
  failing := some (.call c)

/-- A response that breaks off, and whose attempt cannot be closed. -/
def brokenResponse : Input where
  events := [.response_started "response-1", .text_delta (units "a")]
  ending := some .other
  failing := some (.call (.caught .fail))

/-- A response with a delta that the database refuses. -/
def refusedResponse : Input where
  events := [.response_started "response-1", .text_delta (units "a"), .text_delta [0]]

/-- A settlement that fails is swallowed; a delta that is not persisted in time is stored with the interruption; an
attempt that cannot be closed stays open, also one whose text is refused. -/
theorem run_falls_short : ¬ Outcome (run (responseWith (.event 3 .settle)) prepared) ∧
    ¬ Outcome (run (responseWith (.event 2 .persistVisibleText)) prepared) ∧
      ¬ Outcome (run brokenResponse prepared) ∧ ¬ Outcome (run refusedResponse prepared) := by
  refine ⟨fun h => ?_, fun h => ?_, fun h => ?_, fun h => ?_⟩
  · have hreported : Reported (after (run (responseWith (.event 3 .settle)) prepared)) :=
      .inl ⟨someResult, by decide +kernel⟩
    obtain ⟨usage, hsettled⟩ := h.settled.mpr hreported
    have hactive : (after (run (responseWith (.event 3 .settle)) prepared)).lease = .active := by decide +kernel
    cases hactive.symm.trans hsettled
  · have hrow : (after (run (responseWith (.event 2 .persistVisibleText)) prepared)).rows.message =
        some ⟨.interrupted, units "ab"⟩ := by decide +kernel
    have hgiven : given (after (run (responseWith (.event 2 .persistVisibleText)) prepared)).texts = units "a" := by
      decide +kernel
    have htext := (h.text _ hrow).1
    rw [hgiven] at htext
    revert htext
    decide
  · exact absurd h.ended.1 (by decide +kernel)
  · exact absurd h.ended.1 (by decide +kernel)

end Norns.Conversations.Turns
