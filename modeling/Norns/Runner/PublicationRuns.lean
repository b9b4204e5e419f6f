import Norns.Runner.Publication

/-! # The runs of the publisher

Every outcome of a publication is read off a push, or off a tip that was read after one failed. What
a call may conclude is stated with `Seen`, the tips that its refs were at while it was running.

* `CallOk`, `callOk_advanced`: what a call knows at each of its phases;
* `publish_truthful`: what the results say;
* `refs_moved`: how the refs move;
* `pushes_permitted`: the permits of a device;
* `integrated_stays`: integrated work is not lost. -/

namespace Norns.Runner.Publication

open Norns.Lib Norns.Lib.Run Norns.Lib.Remote
open Norns.Devices.PublicationPermits (DeviceIdentity PermitClaims PermitRow PermitService Served
  Consumable)

section

variable {g : CommitGraph String} [DecidableRel g.Contains] {service : PermitService}
  {world world' : World} {call call' : Call}

/-! ### What a call knows -/

def Phase.InFlight : Phase → Prop
  | .returned _ | .thrown => False
  | _ => True

/-- The push that a call is busy with. -/
def Phase.push? : Phase → Option Push
  | .guarded push | .consuming push _ | .pushing push | .reading push => some push
  | _ => none

/-- What the integration into the base says, where `seen` are the tips of the base. -/
structure IntegrationOk (seen : Option String → Prop) (commit : String) (result : IntegrationResult) :
    Prop where
  advanced : result.outcome ≠ .conflict → result.base_commit = some commit ∧ seen (some commit)
  conflict : result.outcome = .conflict → result.base_commit ≠ some commit ∧
    (result.base_commit ≠ none → seen result.base_commit)

/-- What holds of a call before a push. -/
def PushOk (seen : String → Option String → Prop) (call : Call) : Push → Prop
  | .plain => True
  | .lease tip => .read call.input.branch (some tip) ∈ call.trace
  | .base outcome base => call.input.base = some base ∧ outcome ≠ .local_only ∧
      seen call.input.branch (some call.input.commit)

/-- What holds of a call that published its branch. -/
structure Published (seen : String → Option String → Prop) (call : Call)
    (outcome : PublicationOutcome) (integration : Option IntegrationResult) : Prop where
  remote : outcome ≠ .local_only
  branch : seen call.input.branch (some call.input.commit)
  base : integration.map IntegrationResult.base_branch = call.input.base
  integration : ∀ result ∈ integration,
    IntegrationOk (seen result.base_branch) call.input.commit result

/-- The result of a call without a remote. -/
def localResult (call : Call) : PublicationResult :=
  ⟨.local_only, call.input.branch, call.input.commit, none⟩

/-- **What a call knows**, where `seen` says at which tips the refs were while it ran. -/
structure CallOk (seen : String → Option String → Prop) (call : Call) : Prop where
  resolving : call.phase = .resolving → call.trace = []
  push : ∀ push, call.phase.push? = some push → PushOk seen call push
  requesting : ∀ outcome integration, call.phase = .requesting outcome integration →
    Published seen call outcome integration
  returned : ∀ result, call.phase = .returned result →
    (result = localResult call ∧ call.trace = []) ∨
      (result.branch = call.input.branch ∧ result.commit = call.input.commit ∧
        Published seen call result.outcome result.integration)

section

variable {seen seen' : String → Option String → Prop}

theorem IntegrationOk.mono {seen seen' : Option String → Prop} {commit : String}
    {result : IntegrationResult} (h : IntegrationOk seen commit result)
    (hmono : ∀ tip, seen tip → seen' tip) : IntegrationOk seen' commit result where
  advanced houtcome := ⟨(h.advanced houtcome).1, hmono _ (h.advanced houtcome).2⟩
  conflict houtcome := ⟨(h.conflict houtcome).1, fun hread => hmono _ ((h.conflict houtcome).2 hread)⟩

theorem Published.mono {outcome : PublicationOutcome} {integration : Option IntegrationResult}
    (h : Published seen call outcome integration) (hmono : ∀ ref tip, seen ref tip → seen' ref tip) :
    Published seen' call outcome integration where
  remote := h.remote
  branch := hmono _ _ h.branch
  base := h.base
  integration result hresult := (h.integration result hresult).mono (hmono _)

theorem CallOk.mono (h : CallOk seen call) (hmono : ∀ ref tip, seen ref tip → seen' ref tip) :
    CallOk seen' call where
  resolving := h.resolving
  push push hphase := by
    have hok := h.push push hphase
    cases push with
    | plain => trivial
    | lease tip => exact hok
    | base outcome base => exact ⟨hok.1, hok.2.1, hmono _ _ hok.2.2⟩
  requesting outcome integration hphase := (h.requesting outcome integration hphase).mono hmono
  returned result hphase := by
    rcases h.returned result hphase with hlocal | ⟨hbranch, hcommit, hpublished⟩
    · exact .inl hlocal
    · exact .inr ⟨hbranch, hcommit, hpublished.mono hmono⟩

/-- A call that threw knows nothing. -/
theorem callOk_thrown (hphase : call.phase = .thrown) : CallOk seen call where
  resolving h := by simp [hphase] at h
  push push h := by simp [hphase, Phase.push?] at h
  requesting outcome integration h := by simp [hphase] at h
  returned result h := by simp [hphase] at h

/-- A call that is before a push. -/
theorem callOk_push {push : Push} (hphase : call.phase.push? = some push) (h : PushOk seen call push) :
    CallOk seen call where
  resolving hresolving := by simp [hresolving, Phase.push?] at hphase
  push push' hphase' := by
    cases hphase.symm.trans hphase'
    exact h
  requesting outcome integration hrequesting := by simp [hrequesting, Phase.push?] at hphase
  returned result hreturned := by simp [hreturned, Phase.push?] at hphase

theorem callOk_requesting {outcome : PublicationOutcome} {integration : Option IntegrationResult}
    (hphase : call.phase = .requesting outcome integration)
    (h : Published seen call outcome integration) : CallOk seen call where
  resolving hresolving := by simp [hphase] at hresolving
  push push hpush := by simp [hphase, Phase.push?] at hpush
  requesting outcome' integration' hrequesting := by
    rw [hphase] at hrequesting
    cases hrequesting
    exact h
  returned result hreturned := by simp [hphase] at hreturned

theorem enter_push? (call : Call) (push : Push) : (call.enter push).push? = some push := by
  unfold Call.enter
  split <;> rfl

theorem callOk_enter {push : Push} (hphase : call.phase = call'.enter push)
    (h : PushOk seen call push) : CallOk seen call :=
  callOk_push (by rw [hphase, enter_push?]) h

/-- The branch is published, and the base, if there is one, is next. -/
theorem callOk_published {outcome : PublicationOutcome} (hinput : call'.input = call.input)
    (hphase : call.phase = call'.published outcome) (hremote : outcome ≠ .local_only)
    (hseen : seen call.input.branch (some call.input.commit)) : CallOk seen call := by
  unfold Call.published at hphase
  split at hphase
  case h_1 hbase =>
    have hnone : call.input.base = none := hinput ▸ hbase
    exact callOk_requesting hphase ⟨hremote, hseen, hnone.symm, fun result h => by cases h⟩
  case h_2 base hbase =>
    have hsome : call.input.base = some base := hinput ▸ hbase
    exact callOk_enter hphase ⟨hsome, hremote, hseen⟩

theorem published_inFlight (call : Call) (outcome : PublicationOutcome) :
    (call.published outcome).InFlight := by
  unfold Call.published Call.enter
  split
  · trivial
  · split <;> trivial

/-- What a push does to the refs. -/
theorem push_cases (g : CommitGraph String) [DecidableRel g.Contains] (world : World) (call : Call)
    (push : Push) (delivery : Delivery) :
    (world.Accepts g call push ∧ (world.push g call push delivery).1 =
        Function.update world.refs (push.ref call.input) (some call.input.commit)) ∨
      world.push g call push delivery = (world.refs, false) :=
  push_eq (world.Accepts g call push) world.refs (push.ref call.input) call.input.commit delivery

theorem push_succeeded {push : Push} {delivery : Delivery}
    (h : (world.push g call push delivery).2 = true) :
    (world.push g call push delivery).1 (push.ref call.input) = some call.input.commit := by
  rcases push_cases g world call push delivery with ⟨-, hrefs⟩ | hfailed
  · rw [hrefs]
    exact Function.update_self ..
  · rw [hfailed] at h
    cases h

/-- **A step keeps what a call knows**; while the call runs, it sees the refs. -/
theorem callOk_advanced (h : CallOk seen call) (hstep : Advanced g service world call world' call')
    (hbefore : call.phase.InFlight → ∀ ref, seen ref (world.refs ref))
    (hafter : call'.phase.InFlight → ∀ ref, seen ref (world'.refs ref)) : CallOk seen call' := by
  cases hstep with
  | same => exact h
  | threw permits served => exact callOk_thrown rfl
  | localOnly hphase =>
    refine ⟨fun hresolving => by simp at hresolving, fun push hpush => by simp [Phase.push?] at hpush,
      fun outcome integration hrequesting => by simp at hrequesting, fun result hreturned => ?_⟩
    cases hreturned
    exact .inl ⟨rfl, h.resolving hphase⟩
  | entered hphase => exact callOk_enter rfl trivial
  | issued push signed request permits hphase served accepted =>
    exact callOk_push rfl (h.push push (by rw [hphase]; rfl))
  | consumed push signed identity found now hphase consumable =>
    have hok := h.push push (by rw [hphase]; rfl)
    refine callOk_push rfl ?_
    cases push with
    | plain => trivial
    | lease tip => exact List.mem_append_left _ hok
    | base outcome base => exact hok
  | pushed push delivery hphase =>
    have hok := h.push push (by rw [hphase]; rfl)
    by_cases hdone : (world.push g call push delivery).2 = true
    · simp only [hdone, if_true] at hafter ⊢
      have hsaw : (call.succeeded push).InFlight →
          seen (push.ref call.input) (some call.input.commit) := by
        intro hflight
        have hseen := hafter hflight (push.ref call.input)
        rwa [push_succeeded hdone] at hseen
      cases push with
      | plain => exact callOk_published rfl rfl (by decide) (hsaw (published_inFlight call _))
      | lease tip => exact callOk_published rfl rfl (by decide) (hsaw (published_inFlight call _))
      | base outcome base =>
        refine callOk_requesting rfl ⟨hok.2.1, hok.2.2, hok.1.symm, fun result hresult => ?_⟩
        cases hresult
        exact ⟨fun _ => ⟨rfl, hsaw trivial⟩, fun hconflict => by cases hconflict⟩
    · simp only [hdone]
      cases push with
      | plain => exact callOk_push rfl trivial
      | lease tip => exact callOk_thrown rfl
      | base outcome base => exact callOk_push rfl hok
  | read push tip hphase htip =>
    have hok := h.push push (by rw [hphase]; rfl)
    have hflight : call.phase.InFlight := by rw [hphase]; trivial
    have hseen : ∀ t, tip = some t → seen (push.ref call.input) (some t) := by
      intro t ht
      rcases htip with heq | hnone
      · rw [← ht, heq]
        exact hbefore hflight _
      · rw [hnone] at ht
        cases ht
    have hbranch : ∀ ref : String, ref = push.ref call.input → ∀ t, tip = some t → t ≠ call.input.commit →
        Event.read ref (some t) ∈ call.trace ++ [.read (push.ref call.input) tip] := by
      rintro ref rfl t rfl -
      exact List.mem_append_right _ (List.mem_singleton.mpr rfl)
    cases push with
    | base outcome base =>
      by_cases hcommit : tip = some call.input.commit
      · refine callOk_requesting (if_pos hcommit)
          ⟨hok.2.1, hok.2.2, hok.1.symm, fun result hresult => ?_⟩
        cases hresult
        exact ⟨fun _ => ⟨hcommit, hseen _ hcommit⟩, fun hconflict => by cases hconflict⟩
      · refine callOk_requesting (if_neg hcommit)
          ⟨hok.2.1, hok.2.2, hok.1.symm, fun result hresult => ?_⟩
        cases hresult
        refine ⟨fun hne => absurd rfl hne, fun _ => ⟨hcommit, fun hread => ?_⟩⟩
        obtain ⟨t, rfl⟩ := Option.ne_none_iff_exists'.mp hread
        exact hseen t rfl
    | plain =>
      cases tip with
      | none => exact callOk_thrown rfl
      | some tip =>
        by_cases hcommit : tip = call.input.commit
        · refine callOk_published (rfl : call.input = _)
            (show _ = call.published .already_published from if_pos hcommit) (by decide) ?_
          rw [← hcommit]
          exact hseen tip rfl
        · exact callOk_enter (show _ = call.enter (.lease tip) from if_neg hcommit)
            (hbranch _ rfl tip rfl hcommit)
    | lease leased =>
      cases tip with
      | none => exact callOk_thrown rfl
      | some tip =>
        by_cases hcommit : tip = call.input.commit
        · refine callOk_published (rfl : call.input = _)
            (show _ = call.published .already_published from if_pos hcommit) (by decide) ?_
          rw [← hcommit]
          exact hseen tip rfl
        · exact callOk_enter (show _ = call.enter (.lease tip) from if_neg hcommit)
            (hbranch _ rfl tip rfl hcommit)
  | requested outcome integration hphase =>
    have hpublished := h.requesting outcome integration hphase
    refine ⟨fun hresolving => by simp at hresolving, fun push hpush => by simp [Phase.push?] at hpush,
      fun outcome integration hrequesting => by simp at hrequesting, fun result hreturned => ?_⟩
    cases hreturned
    exact .inr ⟨rfl, rfl, ⟨hpublished.remote, hpublished.branch, hpublished.base,
      hpublished.integration⟩⟩

end

end

/-! ### Steps of the system -/

section

variable {g : CommitGraph String} [DecidableRel g.Contains] {service : PermitService}
  {s : System} {a : Action} {i : ℕ} {call call' : Call}

/-- Where a call comes from. -/
theorem step_call (h : (step g service s a).calls[i]? = some call') :
    s.calls[i]? = some call' ∨
      (∃ input device, a = .publish input device ∧ call' = ⟨input, device, .resolving, []⟩) ∨
      ∃ call action, a = .act i action ∧ s.calls[i]? = some call ∧
        Advanced g service s.world call (step g service s a).world call' := by
  cases a with
  | move ref tip => exact .inl h
  | request request => exact .inl h
  | publish input device =>
    change (s.calls ++ [_])[i]? = _ at h
    rcases lt_trichotomy i s.calls.length with hlt | heq | hgt
    · rw [List.getElem?_append_left hlt] at h
      exact .inl h
    · subst heq
      rw [List.getElem?_concat_length] at h
      cases h
      exact .inr (.inl ⟨input, device, rfl, rfl⟩)
    · rw [List.getElem?_eq_none (by simp; omega)] at h
      cases h
  | act j action =>
    unfold step at h ⊢
    cases hj : s.calls[j]? with
    | none =>
      simp only [hj] at h
      exact .inl h
    | some call =>
      simp only [hj] at h ⊢
      rw [List.getElem?_set] at h
      by_cases hij : j = i
      · subst hij
        have hlt : j < s.calls.length := (List.getElem?_eq_some_iff.mp hj).1
        rw [if_pos rfl, if_pos hlt] at h
        cases h
        exact .inr (.inr ⟨call, action, rfl, hj, advance_advanced g service s.world call action⟩)
      · rw [if_neg hij] at h
        exact .inl h

/-- How the refs change. -/
theorem step_refs (g : CommitGraph String) [DecidableRel g.Contains] (service : PermitService)
    (s : System) (a : Action) :
    (step g service s a).world.refs = s.world.refs ∨
      (∃ ref tip, a = .move ref tip ∧
        (step g service s a).world.refs = Function.update s.world.refs ref tip) ∨
      ∃ i action call push, a = .act i action ∧ s.calls[i]? = some call ∧
        call.phase = .pushing push ∧ s.world.Accepts g call push ∧
        (step g service s a).world.refs =
          Function.update s.world.refs (push.ref call.input) (some call.input.commit) := by
  cases a with
  | move ref tip => exact .inr (.inl ⟨ref, tip, rfl, rfl⟩)
  | request request => exact .inl rfl
  | publish input device => exact .inl rfl
  | act i action =>
    cases hi : s.calls[i]? with
    | none =>
      left
      simp [step, hi]
    | some call =>
      have hadvanced := advance_advanced g service s.world call action
      have hrefs : (step g service s (.act i action)).world =
          (advance g service s.world call action).1 := by simp [step, hi]
      rw [hrefs]
      generalize (advance g service s.world call action).1 = world' at hadvanced ⊢
      generalize (advance g service s.world call action).2 = call' at hadvanced
      cases hadvanced with
      | pushed push delivery hphase =>
        rcases push_cases g s.world call push delivery with ⟨haccepts, hupdate⟩ | hfailed
        · exact .inr (.inr ⟨i, action, call, push, rfl, hi, hphase, haccepts, hupdate⟩)
        · left
          change (s.world.push g call push delivery).1 = _
          rw [hfailed]
      | _ => exact .inl rfl

/-- The input of a call does not change. -/
theorem advanced_input {world world' : World} (h : Advanced g service world call world' call') :
    call'.input = call.input ∧ call'.device = call.device := by
  cases h <;> exact ⟨rfl, rfl⟩

end

/-- A commit on top of another. -/
def sampleGraph : CommitGraph String where
  parents c := if c = "c1" then ["c0"] else []

theorem sampleGraph_contains (tip c : String) :
    sampleGraph.Contains tip c ↔ tip = c ∨ (tip = "c1" ∧ c = "c0") := by
  constructor
  · intro h
    induction h with
    | refl => exact .inl rfl
    | tail hcontains hparent ih =>
      simp only [sampleGraph] at hparent
      split at hparent
      case isTrue hone =>
        rw [List.mem_singleton] at hparent
        rcases ih with rfl | ⟨-, hzero⟩
        · exact .inr ⟨hone, hparent⟩
        · rw [hone] at hzero
          exact absurd hzero (by decide)
      case isFalse => cases hparent
  · rintro (rfl | ⟨rfl, rfl⟩)
    · exact Relation.ReflTransGen.refl
    · exact Relation.ReflTransGen.single (by simp [sampleGraph])

instance : DecidableRel sampleGraph.Contains :=
  fun tip c => decidable_of_iff' _ (sampleGraph_contains tip c)

def sampleRefs : Refs String := fun ref => if ref = "main" then some "c0" else none

def sampleInput : RunnerPublicationInput := ⟨"run", "task", "c1", some "main"⟩

/-- A publication without a device. -/
def samplePublication : List Action :=
  [.publish sampleInput none, .act 0 (.resolve (some true)), .act 0 (.push .done),
    .act 0 (.push .done), .act 0 .request]

def sampleResult : PublicationResult :=
  ⟨.pushed, "task", "c1", some ⟨.integrated, "main", some "c1"⟩⟩

/-- The first push of a call that is backed by a device. -/
def samplePermitted : List Action :=
  [.publish sampleInput (some Devices.PublicationPermits.sampleIdentity),
    .act 0 (.resolve (some true)),
    .act 0 (.issue Devices.PublicationPermits.sampleScope ⟨true, true⟩ "permit" 0 0 true),
    .act 0 (.consume ⟨true, true⟩ 1000 true), .act 0 (.push .done)]

/-! ### Truthful results -/

section

variable (g : CommitGraph String) [DecidableRel g.Contains] (service : PermitService)
  (refs : Refs String)

/-- In some state of the run in which the call was running, the ref was at the tip. -/
def Seen (ops : List Action) (i : ℕ) (ref : String) (tip : Option String) : Prop :=
  ∃ pre call, pre <+: ops ∧ (run (step g service) (initial refs) pre).calls[i]? = some call ∧
    call.phase.InFlight ∧ (run (step g service) (initial refs) pre).world.refs ref = tip

theorem Seen.mono {ops : List Action} {i : ℕ} {ref : String} {tip : Option String}
    (h : Seen g service refs ops i ref tip) (a : Action) :
    Seen g service refs (ops ++ [a]) i ref tip := by
  obtain ⟨pre, call, hpre, hcall, hflight, htip⟩ := h
  exact ⟨pre, call, hpre.trans (List.prefix_append ..), hcall, hflight, htip⟩

/-- The run lemma of `callOk_advanced`. -/
theorem run_callOk (ops : List Action) (i : ℕ) (call : Call)
    (hcall : (run (step g service) (initial refs) ops).calls[i]? = some call) :
    CallOk (Seen g service refs ops i) call := by
  induction ops using List.reverseRecOn generalizing call with
  | nil => simp [initial] at hcall
  | append_singleton ops a ih =>
    have hstate := run_concat (step g service) (initial refs) ops a
    have hafter : call.phase.InFlight → ∀ ref, Seen g service refs (ops ++ [a]) i ref
        ((run (step g service) (initial refs) (ops ++ [a])).world.refs ref) :=
      fun hflight ref => ⟨ops ++ [a], call, List.prefix_rfl, hcall, hflight, rfl⟩
    rw [hstate] at hcall hafter
    rcases step_call hcall with hold | ⟨input, device, rfl, rfl⟩ | ⟨old, action, rfl, hold, hadvanced⟩
    · exact (ih call hold).mono fun ref tip hseen => hseen.mono g service refs a
    · refine ⟨fun _ => rfl, fun push hpush => ?_, fun outcome integration hrequesting => ?_,
        fun result hreturned => ?_⟩
      · cases hpush
      · cases hrequesting
      · cases hreturned
    · have hbefore : old.phase.InFlight → ∀ ref, Seen g service refs (ops ++ [.act i action]) i ref
          ((run (step g service) (initial refs) ops).world.refs ref) :=
        fun hflight ref => ⟨ops, old, List.prefix_append .., hold, hflight, rfl⟩
      have hok := (ih old hold).mono fun ref tip hseen => hseen.mono g service refs (.act i action)
      exact callOk_advanced hok hadvanced hbefore hafter

/-- **Truthful results.** A call that returns was run without a remote and pushed nothing, or its
branch was at its commit while it ran; a base that is reported integrated was at the commit then, and
one in conflict was not, but at the tip that is reported, unless none could be read. -/
theorem publish_truthful (ops : List Action) (i : ℕ) (call : Call) (result : PublicationResult)
    (hcall : (run (step g service) (initial refs) ops).calls[i]? = some call)
    (hreturned : call.phase = .returned result) :
    (result = ⟨.local_only, call.input.branch, call.input.commit, none⟩ ∧ call.trace = []) ∨
      (result.outcome ≠ .local_only ∧ result.branch = call.input.branch ∧
        result.commit = call.input.commit ∧
        Seen g service refs ops i call.input.branch (some call.input.commit) ∧
        result.integration.map IntegrationResult.base_branch = call.input.base ∧
        ∀ integration ∈ result.integration,
          (integration.outcome ≠ .conflict ∧ integration.base_commit = some call.input.commit ∧
            Seen g service refs ops i integration.base_branch (some call.input.commit)) ∨
          (integration.outcome = .conflict ∧ integration.base_commit ≠ some call.input.commit ∧
            (integration.base_commit ≠ none →
              Seen g service refs ops i integration.base_branch integration.base_commit))) := by
  have hok := run_callOk g service refs ops i call hcall
  rcases hok.returned result hreturned with hlocal | ⟨hbranch, hcommit, hpublished⟩
  · exact .inl hlocal
  · refine .inr ⟨hpublished.remote, hbranch, hcommit, hpublished.branch, hpublished.base, ?_⟩
    intro integration hmem
    have hintegration := hpublished.integration integration hmem
    by_cases hconflict : integration.outcome = .conflict
    · exact .inr ⟨hconflict, hintegration.conflict hconflict⟩
    · exact .inl ⟨hconflict, hintegration.advanced hconflict⟩

theorem publish_truthful_sample :
    Seen sampleGraph Devices.PublicationPermits.sampleService sampleRefs samplePublication 0 "task"
      (some "c1") := by
  have htruthful := publish_truthful sampleGraph Devices.PublicationPermits.sampleService sampleRefs
    samplePublication 0
    ⟨sampleInput, none, .returned sampleResult, [.push "task", .push "main"]⟩ sampleResult
    (by decide +kernel) rfl
  rcases htruthful with ⟨hlocal, -⟩ | ⟨-, -, -, hseen, -, -⟩
  · exact absurd hlocal (by decide)
  · exact hseen

/-- **How the refs move.** A ref changes only where others move it, or where a call pushes its commit:
to its base by a fast-forward, to its branch by a fast-forward or away from a tip that this call has
read. -/
theorem refs_moved (ops : List Action) (a : Action) (ref : String)
    (hmoved : (step g service (run (step g service) (initial refs) ops) a).world.refs ref ≠
      (run (step g service) (initial refs) ops).world.refs ref) :
    (∃ tip, a = .move ref tip) ∨
      ∃ i action call, a = .act i action ∧
        (run (step g service) (initial refs) ops).calls[i]? = some call ∧
        (step g service (run (step g service) (initial refs) ops) a).world.refs ref =
          some call.input.commit ∧
        ((g.FastForward ((run (step g service) (initial refs) ops).world.refs ref)
            call.input.commit ∧ (ref = call.input.branch ∨ call.input.base = some ref)) ∨
          (ref = call.input.branch ∧
            .read ref ((run (step g service) (initial refs) ops).world.refs ref) ∈ call.trace)) := by
  rcases step_refs g service (run (step g service) (initial refs) ops) a with hsame |
    ⟨ref', tip, rfl, hrefs⟩ | ⟨i, action, call, push, rfl, hcall, hphase, haccepts, hrefs⟩
  · rw [hsame] at hmoved
    exact absurd rfl hmoved
  · by_cases href : ref = ref'
    · subst href
      exact .inl ⟨tip, rfl⟩
    · rw [hrefs, Function.update_of_ne href] at hmoved
      exact absurd rfl hmoved
  · have hok := run_callOk g service refs ops i call hcall
    have hpush := hok.push push (by rw [hphase]; rfl)
    by_cases href : ref = push.ref call.input
    · subst href
      refine .inr ⟨i, action, call, rfl, hcall, ?_, ?_⟩
      · rw [hrefs]
        exact Function.update_self ..
      · cases push with
        | plain => exact .inl ⟨haccepts, .inl rfl⟩
        | lease tip =>
          right
          refine ⟨rfl, ?_⟩
          change Event.read call.input.branch (World.refs _ call.input.branch) ∈ _
          rw [show World.refs _ call.input.branch = some tip from haccepts]
          exact hpush
        | base outcome base => exact .inl ⟨haccepts, .inr hpush.1⟩
    · rw [hrefs, Function.update_of_ne href] at hmoved
      exact absurd rfl hmoved

theorem refs_moved_sample : ∃ i action call,
    Action.act 0 (.push .done) = .act i action ∧
      (run (step sampleGraph Devices.PublicationPermits.sampleService) (initial sampleRefs)
        (samplePublication.take 2)).calls[i]? = some call := by
  rcases refs_moved sampleGraph Devices.PublicationPermits.sampleService sampleRefs
    (samplePublication.take 2) (.act 0 (.push .done)) "task" (by decide +kernel) with
    ⟨tip, htip⟩ | ⟨i, action, call, hact, hcall, -⟩
  · cases htip
  · exact ⟨i, action, call, hact, hcall⟩

end

/-! ### Permits -/

section

variable {g : CommitGraph String} [DecidableRel g.Contains] {service : PermitService}

/-- **The permits of a call** that is backed by a device: each push follows its own. -/
structure TraceOk (call : Call) : Prop where
  push : call.device ≠ none → ∀ k ref, call.trace[k]? = some (.push ref) →
    ∃ k' permit, k = k' + 1 ∧ call.trace[k']? = some (.permit permit) ∧ Permits call permit
  pushing : call.device ≠ none → ∀ push, call.phase = .pushing push →
    ∃ k permit, call.trace.length = k + 1 ∧ call.trace[k]? = some (.permit permit) ∧
      Permits call permit
  consuming : ∀ push signed, call.phase = .consuming push signed → Permits call signed.permit

/-- A step that leaves the trace as it is. -/
theorem TraceOk.phase {call : Call} {phase : Phase} (h : TraceOk call)
    (hpushing : call.device ≠ none → ∀ push, phase ≠ .pushing push)
    (hconsuming : ∀ push signed, phase = .consuming push signed → Permits call signed.permit) :
    TraceOk { call with phase } where
  push hdevice k ref hk := by
    obtain ⟨k', permit, hk', hpermit, hpermits⟩ := h.push hdevice k ref hk
    exact ⟨k', permit, hk', hpermit, ⟨hpermits.scope, hpermits.identity⟩⟩
  pushing hdevice push hphase := absurd hphase (hpushing hdevice push)
  consuming push signed hphase :=
    ⟨(hconsuming push signed hphase).scope, (hconsuming push signed hphase).identity⟩

/-- A step that notes what it has done, if that is no push. -/
theorem TraceOk.note {call : Call} {phase : Phase} {event : Event} (h : TraceOk call)
    (hevent : call.device ≠ none → ∀ ref, event = .push ref → ∃ k permit,
      call.trace.length = k + 1 ∧ call.trace[k]? = some (.permit permit) ∧ Permits call permit)
    (hpushing : call.device ≠ none → ∀ push, phase = .pushing push →
      ∃ permit, event = .permit permit ∧ Permits call permit)
    (hconsuming : ∀ push signed, phase ≠ .consuming push signed) :
    TraceOk { call with phase, trace := call.trace ++ [event] } where
  push hdevice k ref hk := by
    have hold : ∀ {k' : ℕ} {permit : PermitClaims}, call.trace[k']? = some (Event.permit permit) →
        (call.trace ++ [event])[k']? = some (Event.permit permit) := by
      intro k' permit hget
      have hlt : k' < call.trace.length := (List.getElem?_eq_some_iff.mp hget).1
      rwa [List.getElem?_append_left hlt]
    rcases lt_trichotomy k call.trace.length with hlt | rfl | hgt
    · change (call.trace ++ [event])[k]? = _ at hk
      rw [List.getElem?_append_left hlt] at hk
      obtain ⟨k', permit, hk', hpermit, hpermits⟩ := h.push hdevice k ref hk
      exact ⟨k', permit, hk', hold hpermit, ⟨hpermits.scope, hpermits.identity⟩⟩
    · change (call.trace ++ [event])[call.trace.length]? = _ at hk
      rw [List.getElem?_concat_length] at hk
      obtain ⟨k', permit, hk', hpermit, hpermits⟩ := hevent hdevice ref (Option.some.inj hk)
      exact ⟨k', permit, hk', hold hpermit, ⟨hpermits.scope, hpermits.identity⟩⟩
    · change (call.trace ++ [event])[k]? = _ at hk
      rw [List.getElem?_eq_none (by simp; omega)] at hk
      cases hk
  pushing hdevice push hphase := by
    obtain ⟨permit, rfl, hpermits⟩ := hpushing hdevice push hphase
    refine ⟨call.trace.length, permit, by simp, ?_, ⟨hpermits.scope, hpermits.identity⟩⟩
    exact List.getElem?_concat_length
  consuming push signed hphase := absurd hphase (hconsuming push signed)

theorem enter_pushing {call : Call} {push push' : Push} (hdevice : call.device ≠ none) :
    call.enter push ≠ .pushing push' := by
  unfold Call.enter
  obtain ⟨identity, hsome⟩ := Option.ne_none_iff_exists'.mp hdevice
  simp [hsome]

theorem enter_consuming {call : Call} {push push' : Push}
    {signed : Devices.PublicationPermits.SignedPermit} :
    call.enter push ≠ .consuming push' signed := by
  unfold Call.enter
  split <;> simp

theorem published_pushing {call : Call} {outcome : PublicationOutcome} {push : Push}
    (hdevice : call.device ≠ none) : call.published outcome ≠ .pushing push := by
  unfold Call.published
  split
  · simp
  · exact enter_pushing hdevice

theorem published_consuming {call : Call} {outcome : PublicationOutcome} {push : Push}
    {signed : Devices.PublicationPermits.SignedPermit} :
    call.published outcome ≠ .consuming push signed := by
  unfold Call.published
  split
  · simp
  · exact enter_consuming

theorem afterRead_pushing {call : Call} {tip : Option String} {push push' : Push}
    (hdevice : call.device ≠ none) : call.afterRead tip push ≠ .pushing push' := by
  unfold Call.afterRead
  split
  · split <;> simp
  · split
    · simp
    · split
      · exact published_pushing hdevice
      · exact enter_pushing hdevice

theorem afterRead_consuming {call : Call} {tip : Option String} {push push' : Push}
    {signed : Devices.PublicationPermits.SignedPermit} :
    call.afterRead tip push ≠ .consuming push' signed := by
  unfold Call.afterRead
  split
  · split <;> simp
  · split
    · simp
    · split
      · exact published_consuming
      · exact enter_consuming

theorem succeeded_pushing {call : Call} {push push' : Push} (hdevice : call.device ≠ none) :
    call.succeeded push ≠ .pushing push' := by
  cases push with
  | base outcome base => simp [Call.succeeded]
  | _ => exact published_pushing hdevice

theorem succeeded_consuming {call : Call} {push push' : Push}
    {signed : Devices.PublicationPermits.SignedPermit} :
    call.succeeded push ≠ .consuming push' signed := by
  cases push with
  | base outcome base => simp [Call.succeeded]
  | _ => exact published_consuming

theorem traceOk_advanced {world world' : World} {call call' : Call} (h : TraceOk call)
    (hstep : Advanced g service world call world' call') : TraceOk call' := by
  cases hstep with
  | same => exact h
  | threw permits served => exact h.phase (by simp) (by simp)
  | localOnly hphase => exact h.phase (by simp) (by simp)
  | entered hphase =>
    exact h.phase (fun hdevice push => enter_pushing hdevice) fun push signed heq =>
      absurd heq enter_consuming
  | issued push signed request permits hphase served accepted =>
    refine h.phase (by simp) fun push' signed' heq => ?_
    cases heq
    exact accepted
  | consumed push signed identity found now hphase consumable =>
    refine h.note (by simp) (fun _ push' _ => ?_) (by simp)
    exact ⟨signed.permit, rfl, h.consuming push signed hphase⟩
  | pushed push delivery hphase =>
    refine h.note (fun hdevice _ _ => h.pushing hdevice push hphase) (fun hdevice push' heq => ?_)
      (fun push' signed heq => ?_)
    · split at heq
      · exact absurd heq (succeeded_pushing hdevice)
      · cases push <;> simp [Call.failed] at heq
    · split at heq
      · exact absurd heq succeeded_consuming
      · cases push <;> simp [Call.failed] at heq
  | read push tip hphase htip =>
    exact h.note (by simp) (fun hdevice push' heq => absurd heq (afterRead_pushing hdevice))
      fun push' signed => afterRead_consuming
  | requested outcome integration hphase => exact h.phase (by simp) (by simp)

/-- The event at the place `k` of the trace of call `i` is a permit. -/
def PermitAt (s : System) (i k : ℕ) (permit : PermitClaims) : Prop :=
  ∃ call, s.calls[i]? = some call ∧ call.trace[k]? = some (.permit permit)

variable {s : System} {a : Action}

theorem step_permits (g : CommitGraph String) [DecidableRel g.Contains] (service : PermitService)
    (s : System) (a : Action) : (step g service s a).world.permits = s.world.permits ∨
      ∃ request, Served service s.world.permits request (step g service s a).world.permits := by
  cases a with
  | move ref tip => exact .inl rfl
  | request request =>
    exact .inr ⟨request, Devices.PublicationPermits.step_served service s.world.permits request⟩
  | publish input device => exact .inl rfl
  | act i action =>
    cases hi : s.calls[i]? with
    | none =>
      left
      simp [step, hi]
    | some call =>
      have hadvanced := advance_advanced g service s.world call action
      have hworld : (step g service s (.act i action)).world =
          (advance g service s.world call action).1 := by simp [step, hi]
      rw [hworld]
      generalize (advance g service s.world call action).1 = world' at hadvanced ⊢
      generalize (advance g service s.world call action).2 = call' at hadvanced
      cases hadvanced with
      | threw permits served => exact served
      | issued push signed request permits hphase served accepted => exact .inr ⟨request, served⟩
      | consumed push signed identity found now hphase consumable =>
        exact .inr ⟨_, .consumed identity signed found now consumable⟩
      | _ => exact .inl rfl

/-- A permit that a step notes was not consumed before. -/
theorem step_permitAt {i k : ℕ} {permit : PermitClaims}
    (h : PermitAt (step g service s a) i k permit) :
    PermitAt s i k permit ∨
      (∃ call action, a = .act i action ∧ s.calls[i]? = some call ∧ k = call.trace.length) ∧
        s.world.permits.get? permit.permit_id = some ⟨permit, service.key_id, none⟩ ∧
        ∃ now, (step g service s a).world.permits.get? permit.permit_id =
          some ⟨permit, service.key_id, some now⟩ := by
  obtain ⟨call', hcall', hk⟩ := h
  rcases step_call hcall' with hold | ⟨input, device, rfl, rfl⟩ | ⟨call, action, rfl, hcall, hadvanced⟩
  · exact .inl ⟨call', hold, hk⟩
  · simp at hk
  · have hsame : call.trace = call'.trace → PermitAt s i k permit :=
      fun htrace => ⟨call, hcall, htrace ▸ hk⟩
    have happended : ∀ event, call'.trace = call.trace ++ [event] → event ≠ .permit permit →
        PermitAt s i k permit := by
      intro event htrace hne
      rw [htrace, List.getElem?_append] at hk
      split at hk
      · exact ⟨call, hcall, hk⟩
      · rw [List.getElem?_singleton] at hk
        split at hk
        · exact absurd (Option.some.inj hk) hne
        · cases hk
    generalize hworld : (step g service s (.act i action)).world = world' at hadvanced ⊢
    cases hadvanced with
    | consumed push signed identity found now hphase consumable =>
      by_cases hlast : k = call.trace.length
      · subst hlast
        change (call.trace ++ [Event.permit signed.permit])[call.trace.length]? = _ at hk
        rw [List.getElem?_concat_length] at hk
        obtain rfl : signed.permit = permit := by simpa using hk
        exact .inr ⟨⟨call, action, rfl, hcall, rfl⟩, consumable.row, now, OrdMap.get?_set_self ..⟩
      · change (call.trace ++ [Event.permit signed.permit])[k]? = _ at hk
        have hlt : k < (call.trace ++ [Event.permit signed.permit]).length :=
          (List.getElem?_eq_some_iff.mp hk).1
        have hlt : k < call.trace.length := by simp at hlt; omega
        rw [List.getElem?_append_left hlt] at hk
        exact .inl ⟨call, hcall, hk⟩
    | pushed push delivery hphase => exact .inl (happended _ rfl (by simp))
    | read push tip hphase htip => exact .inl (happended _ rfl (by simp))
    | _ => exact .inl (hsame rfl)

/-- What was permitted is consumed, and was permitted once. -/
structure PermitsOk (service : PermitService) (s : System) : Prop where
  consumed : ∀ i k permit, PermitAt s i k permit → ∃ now,
    s.world.permits.get? permit.permit_id = some ⟨permit, service.key_id, some now⟩
  once : ∀ i k permit j l permit', PermitAt s i k permit → PermitAt s j l permit' →
    permit.permit_id = permit'.permit_id → i = j ∧ k = l

theorem permitsOk_step (h : PermitsOk service s) : PermitsOk service (step g service s a) := by
  have hkeeps : ∀ id row, s.world.permits.get? id = some row → row.consumed_at ≠ none →
      (step g service s a).world.permits.get? id = some row := by
    intro id row hrow hconsumed
    rcases step_permits g service s a with hsame | ⟨request, hserved⟩
    · rwa [hsame]
    · exact hserved.keeps_consumed hrow hconsumed
  -- a permit noted before is consumed, and the one that is noted now was not
  have hfresh : ∀ i k permit permit', PermitAt s i k permit →
      s.world.permits.get? permit'.permit_id = some ⟨permit', service.key_id, none⟩ →
      permit.permit_id ≠ permit'.permit_id := by
    intro i k permit permit' hold hnone heq
    obtain ⟨now, hrow⟩ := h.consumed i k permit hold
    rw [heq, hnone] at hrow
    simp at hrow
  refine ⟨fun i k permit hat => ?_, fun i k permit j l permit' hat hat' heq => ?_⟩
  · rcases step_permitAt hat with hold | ⟨-, -, hrow⟩
    · obtain ⟨now, hrow⟩ := h.consumed i k permit hold
      exact ⟨now, hkeeps _ _ hrow (by simp)⟩
    · exact hrow
  · rcases step_permitAt hat with hold | ⟨⟨call, action, hact, hcall, hk⟩, hnone, -⟩
    · rcases step_permitAt hat' with hold' | ⟨-, hnone', -⟩
      · exact h.once i k permit j l permit' hold hold' heq
      · exact absurd heq (hfresh i k permit permit' hold hnone')
    · rcases step_permitAt hat' with hold' | ⟨⟨call', action', hact', hcall', hl⟩, -, -⟩
      · exact absurd heq.symm (hfresh j l permit' permit hold' hnone)
      · rw [hact] at hact'
        cases hact'
        rw [hcall] at hcall'
        cases hcall'
        exact ⟨rfl, hk.trans hl.symm⟩

end

section

variable (g : CommitGraph String) [DecidableRel g.Contains] (service : PermitService)
  (refs : Refs String)

theorem run_traceOk (ops : List Action) (i : ℕ) (call : Call)
    (hcall : (run (step g service) (initial refs) ops).calls[i]? = some call) : TraceOk call := by
  induction ops using List.reverseRecOn generalizing call with
  | nil => simp [initial] at hcall
  | append_singleton ops a ih =>
    rw [run_concat] at hcall
    rcases step_call hcall with hold | ⟨input, device, rfl, rfl⟩ | ⟨old, action, rfl, hold, hadvanced⟩
    · exact ih call hold
    · refine ⟨fun _ k ref hk => ?_, fun _ push hpushing => ?_, fun push signed hconsuming => ?_⟩
      · simp at hk
      · cases hpushing
      · cases hconsuming
    · exact traceOk_advanced (ih old hold) hadvanced

theorem run_permitsOk (ops : List Action) :
    PermitsOk service (run (step g service) (initial refs) ops) := by
  refine run_induct' (fun s a h => permitsOk_step h) ⟨?_, ?_⟩ ops
  · rintro i k permit ⟨call, hcall, -⟩
    simp [initial] at hcall
  · rintro i k permit j l permit' ⟨call, hcall, -⟩
    simp [initial] at hcall

/-- **Every push has its own permit.** Right before each push of a call that is backed by a device
stands a permit for its run, branch and commit that the server let the device consume, and no permit
stands before two pushes, of one call or of two, whoever else asks for permits. -/
theorem pushes_permitted (ops : List Action) (i k : ℕ) (call : Call) (identity : DeviceIdentity)
    (ref : String) (hcall : (run (step g service) (initial refs) ops).calls[i]? = some call)
    (hdevice : call.device = some identity) (hpush : call.trace[k]? = some (.push ref)) :
    ∃ k' permit now, k = k' + 1 ∧ call.trace[k']? = some (.permit permit) ∧
      permit.run_id = call.input.run_id ∧ permit.branch = call.input.branch ∧
      permit.commit_sha = call.input.commit ∧ permit.toDeviceIdentity = identity ∧
      (run (step g service) (initial refs) ops).world.permits.get? permit.permit_id =
        some ⟨permit, service.key_id, some now⟩ ∧
      ∀ j l other permit', (run (step g service) (initial refs) ops).calls[j]? = some other →
        other.trace[l]? = some (.permit permit') → permit'.permit_id = permit.permit_id →
        j = i ∧ l = k' := by
  have hok := run_permitsOk g service refs ops
  obtain ⟨k', permit, hk, hpermit, hpermits⟩ :=
    (run_traceOk g service refs ops i call hcall).push (by simp [hdevice]) k ref hpush
  obtain ⟨now, hrow⟩ := hok.consumed i k' permit ⟨call, hcall, hpermit⟩
  obtain ⟨hrun, hbranch, hcommit⟩ := hpermits.scope
  have hidentity : permit.toDeviceIdentity = identity :=
    Option.some.inj (hpermits.identity.symm.trans hdevice)
  refine ⟨k', permit, now, hk, hpermit, hrun.symm ▸ rfl, hbranch, hcommit, hidentity, hrow, ?_⟩
  intro j l other permit' hother hpermit' hid
  exact hok.once j l permit' i k' permit ⟨other, hother, hpermit'⟩ ⟨call, hcall, hpermit⟩ hid

theorem pushes_permitted_sample : ∃ permit now,
    permit.run_id = "run" ∧ (run (step sampleGraph Devices.PublicationPermits.sampleService)
      (initial sampleRefs) samplePermitted).world.permits.get? permit.permit_id =
        some ⟨permit, "key", some now⟩ := by
  obtain ⟨k', permit, now, -, -, hrun, -, -, -, hrow, -⟩ :=
    pushes_permitted sampleGraph Devices.PublicationPermits.sampleService sampleRefs samplePermitted 0 1
      ⟨sampleInput, some Devices.PublicationPermits.sampleIdentity, .guarded (.base .pushed "main"),
        [.permit (Devices.PublicationPermits.newClaims Devices.PublicationPermits.sampleService
          Devices.PublicationPermits.sampleIdentity Devices.PublicationPermits.sampleScope "permit" 0),
          .push "task"]⟩
      Devices.PublicationPermits.sampleIdentity "task" (by decide +kernel) rfl rfl
  exact ⟨permit, now, hrun, hrow⟩

end

/-! ### Integrated work stays -/

section

variable {g : CommitGraph String} [DecidableRel g.Contains] {service : PermitService}
  {s : System} {a : Action} {base commit : String}

/-- The base is no call's branch, and others move it by fast-forwards. -/
def KeepsBase (g : CommitGraph String) (base : String) (s : System) : Action → Prop
  | .move ref tip => ref = base → ∃ new ∈ tip, g.FastForward (s.world.refs base) new
  | .publish input _ => input.branch ≠ base
  | _ => True

instance (g : CommitGraph String) [DecidableRel g.Contains] (base : String) (s : System) :
    (a : Action) → Decidable (KeepsBase g base s a)
  | .move ref tip => inferInstanceAs (Decidable (ref = base → ∃ new ∈ tip, _))
  | .publish input _ => inferInstanceAs (Decidable (input.branch ≠ base))
  | .request _ | .act .. => isTrue trivial

/-- No call publishes its branch as the base. -/
def Apart (base : String) (s : System) : Prop :=
  ∀ (i : ℕ) (call : Call), s.calls[i]? = some call → call.input.branch ≠ base

/-- The base contains the commit. -/
structure Settled (g : CommitGraph String) (base commit : String) (s : System) : Prop where
  apart : Apart base s
  holds : g.Holds (s.world.refs base) commit

theorem apart_step (h : Apart base s) (hguard : KeepsBase g base s a) :
    Apart base (step g service s a) := by
  intro i call hcall
  rcases step_call hcall with hold | ⟨input, device, rfl, rfl⟩ | ⟨old, action, -, hold, hadvanced⟩
  · exact h i call hold
  · exact hguard
  · rw [(advanced_input hadvanced).1]
    exact h i old hold

/-- What a base contains, it contains after the next step. -/
theorem settled_step (h : Settled g base commit s) (hguard : KeepsBase g base s a) :
    Settled g base commit (step g service s a) := by
  refine ⟨apart_step h.apart hguard, ?_⟩
  rcases step_refs g service s a with hsame | ⟨ref, tip, rfl, hrefs⟩ |
    ⟨i, action, call, push, rfl, hcall, hphase, haccepts, hrefs⟩
  · rw [hsame]
    exact h.holds
  · by_cases href : ref = base
    · subst href
      obtain ⟨new, hnew, hforward⟩ := hguard rfl
      obtain rfl : tip = some new := hnew
      rw [hrefs, Function.update_self]
      exact h.holds.fastForward hforward
    · rw [hrefs, Function.update_of_ne (Ne.symm href)]
      exact h.holds
  · have hbranch : call.input.branch ≠ base := h.apart i call hcall
    by_cases href : push.ref call.input = base
    · cases push with
      | base outcome name =>
        obtain rfl : name = base := href
        rw [hrefs]
        change g.Holds (Function.update s.world.refs name _ name) commit
        rw [Function.update_self]
        exact h.holds.fastForward haccepts
      | _ => exact absurd href hbranch
    · rw [hrefs, Function.update_of_ne (Ne.symm href)]
      exact h.holds

end

section

variable (g : CommitGraph String) [DecidableRel g.Contains] (service : PermitService)
  (refs : Refs String)

/-- **Integrated work stays.** Where the base is no task's branch and others only advance it, a commit
that a call has integrated is contained in the base from then on, whatever else is published. -/
theorem integrated_stays (ops : List Action) (base : String) (i : ℕ) (call : Call)
    (result : PublicationResult) (integration : IntegrationResult)
    (hguard : Along (step g service) (KeepsBase g base) (initial refs) ops)
    (hcall : (run (step g service) (initial refs) ops).calls[i]? = some call)
    (hreturned : call.phase = .returned result) (hresult : result.integration = some integration)
    (hbase : integration.base_branch = base) (hadvanced : integration.outcome ≠ .conflict) :
    g.Holds ((run (step g service) (initial refs) ops).world.refs base) call.input.commit := by
  have hok := run_callOk g service refs ops i call hcall
  rcases hok.returned result hreturned with ⟨rfl, -⟩ | ⟨-, -, hpublished⟩
  · cases hresult
  · obtain ⟨-, hseen⟩ := (hpublished.integration integration hresult).advanced hadvanced
    rw [hbase] at hseen
    obtain ⟨pre, old, ⟨rest, rfl⟩, hold, hflight, htip⟩ := hseen
    obtain ⟨hpre, hrest⟩ := along_append.mp hguard
    have hapart : Apart base (run (step g service) (initial refs) pre) :=
      run_induct (fun s a h hkeeps => apart_step h hkeeps)
        (fun j other hother => by simp [initial] at hother) hpre
    have hsettled : Settled g base call.input.commit (run (step g service) (initial refs) pre) :=
      ⟨hapart, by rw [htip]; exact g.holds_self call.input.commit⟩
    rw [run_append]
    exact (run_induct (fun s a h hkeeps => settled_step h hkeeps) hsettled hrest).holds

theorem integrated_stays_sample :
    sampleGraph.Holds ((run (step sampleGraph Devices.PublicationPermits.sampleService)
      (initial sampleRefs) samplePublication).world.refs "main") "c1" :=
  integrated_stays sampleGraph Devices.PublicationPermits.sampleService sampleRefs samplePublication
    "main" 0 ⟨sampleInput, none, .returned sampleResult, [.push "task", .push "main"]⟩ sampleResult
    ⟨.integrated, "main", some "c1"⟩ (by decide +kernel) (by decide +kernel) rfl rfl rfl (by decide)

end

end Norns.Runner.Publication
