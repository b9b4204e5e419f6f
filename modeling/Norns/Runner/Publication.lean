import Norns.Devices.PublicationPermits
import Norns.Lib.Remote

/-! # Publication

`GitPublisher.publish` (`publication.ts`) with `push`, `integrateIntoBase` and `remoteTip`, and
`DeviceBackedGitPublisher` (`publicationPermit.ts`), which has a permit issued and consumed before
each push. Any number of calls run at once on one remote and one permit service, others move the refs
and ask for permits between any two steps, and each step may fail. Of a pull request and of the texts
of the results nothing is kept.

* `advance`: one step of a call;
* `Advanced`, `advance_advanced`: what it can do;
* `step`: the system. -/

namespace Norns.Runner.Publication

open Norns.Lib Norns.Lib.Run Norns.Lib.Remote Norns.Lib.Transaction
open Norns.Devices.PublicationPermits (PermitScope DeviceIdentity PermitClaims SignedPermit
  PermitTable PermitService Authority Request Served Consumable maxLifetimeMs issue consume serve
  consume_ok step_served)

/-! ### The permit client -/

/-- `claimsMatch` -/
def claimsMatch (signed : SignedPermit) (requested : PermitScope) (identity : DeviceIdentity) : Bool :=
  decide (signed.permit.toPermitScope = requested ∧ signed.permit.toDeviceIdentity = identity)

def isRoutedChar (c : Char) : Bool := c.isAlphanum || [':', '.', '_', '-'].contains c

/-- `/^[A-Za-z0-9][A-Za-z0-9:._-]{0,499}$/` -/
def isRoutedId (value : String) : Bool :=
  match value.toList with
  | [] => false
  | first :: rest => first.isAlphanum && decide (rest.length ≤ 499) && rest.all isRoutedChar

/-- What `issueAndConsume` checks of an answer before it has the permit consumed. -/
def Accepts (signed : SignedPermit) (requested : PermitScope) (identity : DeviceIdentity)
    (clock : ℤ) : Prop :=
  claimsMatch signed requested identity = true ∧
    ¬ (signed.permit.expires_at ≤ clock ∨ signed.permit.expires_at ≤ signed.permit.issued_at ∨
      signed.permit.issued_at + maxLifetimeMs < signed.permit.expires_at) ∧
    isRoutedId signed.permit.permit_id = true

instance (signed : SignedPermit) (requested : PermitScope) (identity : DeviceIdentity) (clock : ℤ) :
    Decidable (Accepts signed requested identity clock) :=
  inferInstanceAs (Decidable (_ ∧ ¬ _ ∧ _))

/-! ### Calls -/

structure RunnerPublicationInput where
  run_id : String
  branch : String
  commit : String
  integrate_base_branch : Option String
  deriving DecidableEq, Repr

/-- The base branch, if the input names one. -/
def RunnerPublicationInput.base (input : RunnerPublicationInput) : Option String :=
  input.integrate_base_branch.filter fun base => decide (base ≠ "")

/-- The scope is that of the produced work. -/
def RunnerPublicationInput.InScope (input : RunnerPublicationInput) (scope : PermitScope) : Prop :=
  scope.run_id = input.run_id ∧ scope.branch = input.branch ∧ scope.commit_sha = input.commit

instance (input : RunnerPublicationInput) (scope : PermitScope) : Decidable (input.InScope scope) :=
  inferInstanceAs (Decidable (_ ∧ _ ∧ _))

inductive PublicationOutcome
  | pushed | already_published | republished | local_only
  deriving DecidableEq, Repr

inductive IntegrationOutcome
  | integrated | already_integrated | conflict
  deriving DecidableEq, Repr

structure IntegrationResult where
  outcome : IntegrationOutcome
  base_branch : String
  base_commit : Option String
  deriving DecidableEq, Repr

structure PublicationResult where
  outcome : PublicationOutcome
  branch : String
  commit : String
  integration : Option IntegrationResult
  deriving DecidableEq, Repr

/-- The pushes of a call. -/
inductive Push
  | plain
  /-- `--force-with-lease` -/
  | lease (tip : String)
  | base (outcome : PublicationOutcome) (base : String)
  deriving DecidableEq, Repr

def Push.ref (input : RunnerPublicationInput) : Push → String
  | .plain | .lease _ => input.branch
  | .base _ name => name

/-- Where a call stands. -/
inductive Phase
  | resolving
  /-- `beforePush` is called next. -/
  | guarded (push : Push)
  /-- A permit was issued, and is to be consumed. -/
  | consuming (push : Push) (signed : SignedPermit)
  | pushing (push : Push)
  /-- The push failed, and the tip of its ref is read next. -/
  | reading (push : Push)
  /-- `ensurePullRequest` is called next. -/
  | requesting (outcome : PublicationOutcome) (integration : Option IntegrationResult)
  | returned (result : PublicationResult)
  | thrown
  deriving DecidableEq

/-- What a call has done. -/
inductive Event
  | permit (permit : PermitClaims)
  | push (ref : String)
  | read (ref : String) (tip : Option String)
  deriving DecidableEq, Repr

structure Call where
  input : RunnerPublicationInput
  /-- The publisher is backed by a device. -/
  device : Option DeviceIdentity
  phase : Phase
  trace : List Event
  deriving DecidableEq

structure World where
  refs : Refs String
  permits : PermitTable

/-- A push, behind the guard where there is one. -/
def Call.enter (call : Call) (push : Push) : Phase :=
  if call.device.isSome then .guarded push else .pushing push

/-- The branch is published. -/
def Call.published (call : Call) (outcome : PublicationOutcome) : Phase :=
  match call.input.base with
  | none => .requesting outcome none
  | some base => call.enter (.base outcome base)

/-- The phase after a push that succeeded. -/
def Call.succeeded (call : Call) : Push → Phase
  | .plain => call.published .pushed
  | .lease _ => call.published .republished
  | .base outcome base => .requesting outcome (some ⟨.integrated, base, some call.input.commit⟩)

/-- The phase after a push that failed. -/
def Call.failed : Push → Phase
  | .lease _ => .thrown
  | push => .reading push

/-- The phase after the tip was read. -/
def Call.afterRead (call : Call) (tip : Option String) : Push → Phase
  | .base outcome base =>
    if tip = some call.input.commit then .requesting outcome (some ⟨.already_integrated, base, tip⟩)
    else .requesting outcome (some ⟨.conflict, base, tip⟩)
  | _ =>
    match tip with
    | none => .thrown
    | some tip =>
      if tip = call.input.commit then call.published .already_published
      else call.enter (.lease tip)

inductive CallAction
  /-- `resolveRemote`: it fails, there is none, or there is one. -/
  | resolve (remote : Option Bool)
  /-- The request for a permit, and the check of its answer at `clock`. -/
  | issue (scope : PermitScope) (found : Authority) (permit_id : String) (now clock : ℤ)
      (answered : Bool)
  | consume (found : Authority) (now : ℤ) (answered : Bool)
  | push (delivery : Delivery)
  /-- `git ls-remote` -/
  | read (answered : Bool)
  | request
  /-- The signal is aborted, or the step fails. -/
  | abort
  deriving DecidableEq

section

variable (g : CommitGraph String) [DecidableRel g.Contains] (service : PermitService)

/-- The remote would accept the push. -/
def World.Accepts (world : World) (call : Call) : Push → Prop
  | .lease tip => world.refs call.input.branch = some tip
  | push => g.FastForward (world.refs (push.ref call.input)) call.input.commit

instance (world : World) (call : Call) : (push : Push) → Decidable (world.Accepts g call push)
  | .lease _ => inferInstanceAs (Decidable (_ = _))
  | .plain | .base .. => inferInstanceAs (Decidable (g.FastForward _ _))

/-- The remote carries out a push. -/
def World.push (world : World) (call : Call) (push : Push) (delivery : Delivery) :
    Refs String × Bool :=
  Remote.push (world.Accepts g call push) world.refs (push.ref call.input) call.input.commit delivery

/-- One step of a call; a step that is not due does nothing. -/
def advance (world : World) (call : Call) (action : CallAction) : World × Call :=
  match action, call.phase with
  | .resolve none, .resolving => (world, { call with phase := .thrown })
  | .resolve (some false), .resolving =>
    (world, { call with
      phase := .returned ⟨.local_only, call.input.branch, call.input.commit, none⟩ })
  | .resolve (some true), .resolving => (world, { call with phase := call.enter .plain })
  | .issue scope found permit_id now clock answered, .guarded push =>
    match call.device with
    | none => (world, call)
    | some identity =>
      if ¬ call.input.InScope scope then (world, { call with phase := .thrown })
      else
        match issue service world.permits identity scope found permit_id now with
        | .error _ => (world, { call with phase := .thrown })
        | .ok (signed, permits) =>
          ({ world with permits }, { call with
            phase := if answered = true ∧ Accepts signed scope identity clock then
                .consuming push signed
              else .thrown })
  | .consume found now answered, .consuming push signed =>
    match call.device with
    | none => (world, call)
    | some identity =>
      match consume service world.permits identity signed found now with
      | .error _ => (world, { call with phase := .thrown })
      | .ok permits =>
        ({ world with permits },
          if answered then
            { call with phase := .pushing push, trace := call.trace ++ [.permit signed.permit] }
          else { call with phase := .thrown })
  | .push delivery, .pushing push =>
    let pushed := world.push g call push delivery
    ({ world with refs := pushed.1 }, { call with
      phase := if pushed.2 then call.succeeded push else Call.failed push
      trace := call.trace ++ [.push (push.ref call.input)] })
  | .read answered, .reading push =>
    let tip := if answered then world.refs (push.ref call.input) else none
    (world, { call with
      phase := call.afterRead tip push
      trace := call.trace ++ [.read (push.ref call.input) tip] })
  | .request, .requesting outcome integration =>
    (world, { call with
      phase := .returned ⟨outcome, call.input.branch, call.input.commit, integration⟩ })
  | .abort, .returned _ => (world, call)
  | .abort, _ => (world, { call with phase := .thrown })
  | _, _ => (world, call)

/-! ### The system -/

structure System where
  world : World
  calls : List Call

inductive Action
  /-- Others move, create or delete a ref. -/
  | move (ref : String) (tip : Option String)
  /-- Others ask for a permit, or have one consumed. -/
  | request (request : Request)
  /-- A command is delivered, or delivered again. -/
  | publish (input : RunnerPublicationInput) (device : Option DeviceIdentity)
  | act (i : ℕ) (action : CallAction)
  deriving DecidableEq

def step (s : System) : Action → System
  | .move ref tip => { s with world := { s.world with
      refs := Function.update s.world.refs ref tip } }
  | .request request => { s with world := { s.world with
      permits := Devices.PublicationPermits.step service s.world.permits request } }
  | .publish input device => { s with calls := s.calls ++ [⟨input, device, .resolving, []⟩] }
  | .act i action =>
    match s.calls[i]? with
    | none => s
    | some call =>
      { world := (advance g service s.world call action).1
        calls := s.calls.set i (advance g service s.world call action).2 }

/-- A remote, and no calls and no permits. -/
def initial (refs : Refs String) : System := ⟨⟨refs, .empty⟩, []⟩

end

/-! ### What a step of a call can do -/

section

variable {g : CommitGraph String} [DecidableRel g.Contains] {service : PermitService}
  {world world' : World} {call call' : Call}

/-- The permit is one for the work of the call, issued to its device. -/
structure Permits (call : Call) (permit : PermitClaims) : Prop where
  scope : call.input.InScope permit.toPermitScope
  identity : call.device = some permit.toDeviceIdentity

/-- **What a step of a call can do.** -/
inductive Advanced (g : CommitGraph String) [DecidableRel g.Contains] (service : PermitService)
    (world : World) (call : Call) : World → Call → Prop
  | same : Advanced g service world call world call
  | threw (permits : PermitTable)
      (served : permits = world.permits ∨ ∃ request, Served service world.permits request permits) :
      Advanced g service world call { world with permits } { call with phase := .thrown }
  | localOnly (phase : call.phase = .resolving) :
      Advanced g service world call world { call with
        phase := .returned ⟨.local_only, call.input.branch, call.input.commit, none⟩ }
  | entered (phase : call.phase = .resolving) :
      Advanced g service world call world { call with phase := call.enter .plain }
  | issued (push : Push) (signed : SignedPermit) (request : Request) (permits : PermitTable)
      (phase : call.phase = .guarded push) (served : Served service world.permits request permits)
      (accepted : Permits call signed.permit) :
      Advanced g service world call { world with permits }
        { call with phase := .consuming push signed }
  | consumed (push : Push) (signed : SignedPermit) (identity : DeviceIdentity) (found : Authority)
      (now : ℤ) (phase : call.phase = .consuming push signed)
      (consumable : Consumable service world.permits identity signed found now) :
      Advanced g service world call
        { world with
          permits := world.permits.set signed.permit.permit_id
            ⟨signed.permit, service.key_id, some now⟩ }
        { call with phase := .pushing push, trace := call.trace ++ [.permit signed.permit] }
  | pushed (push : Push) (delivery : Delivery) (phase : call.phase = .pushing push) :
      Advanced g service world call { world with refs := (world.push g call push delivery).1 }
        { call with
          phase := if (world.push g call push delivery).2 then call.succeeded push
            else Call.failed push
          trace := call.trace ++ [.push (push.ref call.input)] }
  | read (push : Push) (tip : Option String) (phase : call.phase = .reading push)
      (tip_eq : tip = world.refs (push.ref call.input) ∨ tip = none) :
      Advanced g service world call world { call with
        phase := call.afterRead tip push
        trace := call.trace ++ [.read (push.ref call.input) tip] }
  | requested (outcome : PublicationOutcome) (integration : Option IntegrationResult)
      (phase : call.phase = .requesting outcome integration) :
      Advanced g service world call world { call with
        phase := .returned ⟨outcome, call.input.branch, call.input.commit, integration⟩ }

/-- A step that throws without a request. -/
theorem Advanced.aborted : Advanced g service world call world { call with phase := .thrown } :=
  .threw world.permits (.inl rfl)

theorem advance_issue {push : Push} {scope : PermitScope} {found : Authority} {permit_id : String}
    {now clock : ℤ} {answered : Bool} (hphase : call.phase = .guarded push) :
    Advanced g service world call
      (advance g service world call (.issue scope found permit_id now clock answered)).1
      (advance g service world call (.issue scope found permit_id now clock answered)).2 := by
  unfold advance
  rw [hphase]
  dsimp only
  split
  case h_1 => exact .same
  case h_2 identity hdevice =>
    split
    case isTrue => exact .aborted
    case isFalse hscope =>
      split
      case h_1 => exact .aborted
      case h_2 signed permits hok =>
        have hserved : Served service world.permits (.issue identity scope found permit_id now)
            permits := by
          have hstep := step_served service world.permits (.issue identity scope found permit_id now)
          unfold Devices.PublicationPermits.step serve at hstep
          simpa [hok] using hstep
        dsimp only
        split
        case isTrue haccepts =>
          obtain ⟨-, hmatch, -, -⟩ := haccepts
          obtain ⟨hclaims, hidentity⟩ := of_decide_eq_true hmatch
          have hinScope : call.input.InScope scope := not_not.mp hscope
          refine .issued push signed _ permits hphase hserved ⟨?_, ?_⟩
          · rw [hclaims]
            exact hinScope
          · rw [hidentity]
            exact hdevice
        case isFalse => exact .threw permits (.inr ⟨_, hserved⟩)

theorem advance_consume {push : Push} {signed : SignedPermit} {found : Authority} {now : ℤ}
    {answered : Bool} (hphase : call.phase = .consuming push signed) :
    Advanced g service world call (advance g service world call (.consume found now answered)).1
      (advance g service world call (.consume found now answered)).2 := by
  unfold advance
  rw [hphase]
  dsimp only
  split
  case h_1 => exact .same
  case h_2 identity hdevice =>
    split
    case h_1 => exact .aborted
    case h_2 permits hok =>
      obtain ⟨hconsumable, rfl⟩ := consume_ok hok
      dsimp only
      split
      case isTrue => exact .consumed push signed identity found now hphase hconsumable
      case isFalse =>
        exact .threw _ (.inr ⟨_, .consumed identity signed found now hconsumable⟩)

theorem advance_advanced (g : CommitGraph String) [DecidableRel g.Contains]
    (service : PermitService) (world : World) (call : Call) (action : CallAction) :
    Advanced g service world call (advance g service world call action).1
      (advance g service world call action).2 := by
  cases hphase : call.phase with
  | resolving =>
    cases action with
    | resolve remote =>
      rcases remote with _ | _ | _
      · simpa [advance, hphase] using Advanced.aborted
      · simpa [advance, hphase] using Advanced.localOnly hphase
      · simpa [advance, hphase] using Advanced.entered hphase
    | abort => simpa [advance, hphase] using Advanced.aborted
    | _ => simpa [advance, hphase] using Advanced.same
  | guarded push =>
    cases action with
    | issue scope found permit_id now clock answered => exact advance_issue hphase
    | abort => simpa [advance, hphase] using Advanced.aborted
    | _ => simpa [advance, hphase] using Advanced.same
  | consuming push signed =>
    cases action with
    | consume found now answered => exact advance_consume hphase
    | abort => simpa [advance, hphase] using Advanced.aborted
    | _ => simpa [advance, hphase] using Advanced.same
  | pushing push =>
    cases action with
    | push delivery => simpa [advance, hphase] using Advanced.pushed push delivery hphase
    | abort => simpa [advance, hphase] using Advanced.aborted
    | _ => simpa [advance, hphase] using Advanced.same
  | reading push =>
    cases action with
    | read answered =>
      have htip : (if answered then world.refs (push.ref call.input) else none) =
          world.refs (push.ref call.input) ∨
          (if answered then world.refs (push.ref call.input) else none) = none := by
        cases answered
        · exact .inr rfl
        · exact .inl rfl
      simpa [advance, hphase] using Advanced.read push _ hphase htip
    | abort => simpa [advance, hphase] using Advanced.aborted
    | _ => simpa [advance, hphase] using Advanced.same
  | requesting outcome integration =>
    cases action with
    | request => simpa [advance, hphase] using Advanced.requested outcome integration hphase
    | abort => simpa [advance, hphase] using Advanced.aborted
    | _ => simpa [advance, hphase] using Advanced.same
  | returned result =>
    cases action <;> simpa [advance, hphase] using Advanced.same
  | thrown =>
    cases action with
    | abort => simpa [advance, hphase] using Advanced.aborted
    | _ => simpa [advance, hphase] using Advanced.same

end

end Norns.Runner.Publication
