import Norns.Lib.Cycle

/-! # Plans and their validation

`plan.ts`: a parsed plan is a list of modules with dependencies; `validatePlan` rejects duplicate
module ids, unknown dependencies and dependency cycles. The schema that turns an unknown input into a
`PlanContract` is the parameter `safeParse`.

* `Valid`: ids pairwise different, dependencies resolvable, no cycle;
* `validatePlan_valid`: an accepted plan is valid. -/

namespace Norns.Contracts.Plan

open Norns.Lib

inductive Complexity
  | S | M | L | XL
  deriving DecidableEq, Repr

inductive RiskLevel
  | low | medium | high | critical
  deriving DecidableEq, Repr

structure PlanModule where
  id : String
  title : String
  dependencies : List String
  estimated_complexity : Complexity
  risk : RiskLevel
  /-- `parallelization.safe` -/
  parallelSafe : Bool
  deriving DecidableEq, Repr

structure PlanContract where
  modules : List PlanModule
  deriving DecidableEq, Repr

inductive PlanValidationErrorCode
  | schema | duplicate_module_id | unknown_dependency | dependency_cycle
  deriving DecidableEq, Repr

structure PlanValidationError where
  code : PlanValidationErrorCode
  message : String
  module_id : Option String := none
  deriving DecidableEq, Repr

/-- What the schema reports. -/
structure SchemaIssue where
  path : List String
  message : String

/-- One module of the loop over ids: the set of ids so far and the errors so far. -/
def noteId : List String × List PlanValidationError → PlanModule →
    List String × List PlanValidationError
  | (ids, errors), mod =>
    if mod.id ∈ ids then
      (ids, errors ++ [{
        code := .duplicate_module_id
        message := "module id \"" ++ mod.id ++ "\" appears more than once"
        module_id := some mod.id }])
    else (ids ++ [mod.id], errors)

def unknownErrors (ids : List String) (modules : List PlanModule) : List PlanValidationError :=
  modules.flatMap fun mod => (mod.dependencies.filter fun dep => dep ∉ ids).map fun dep => {
    code := .unknown_dependency
    message := "module \"" ++ mod.id ++ "\" depends on unknown module \"" ++ dep ++ "\""
    module_id := some mod.id }

/-- The dependencies of an id. -/
def depsOf (modules : List PlanModule) (id : String) : List String :=
  ((OrdMap.ofList (modules.map fun mod => (mod.id, mod.dependencies))).get? id).getD []

/-- Every id that the modules mention. -/
def mentioned (modules : List PlanModule) : List String :=
  modules.map PlanModule.id ++ modules.flatMap PlanModule.dependencies

/-- The module `a` has `b` among its dependencies. -/
def Depends (modules : List PlanModule) (a b : String) : Prop :=
  ∃ mod ∈ modules, mod.id = a ∧ b ∈ mod.dependencies

/-- The offending path when the dependency graph has a cycle. -/
def findCycle (modules : List PlanModule) : Option (List String) :=
  Cycle.findCycle (depsOf modules) ((mentioned modules).length + 1) (modules.map PlanModule.id)

section

variable {Input : Type} (safeParse : Input → Except (List SchemaIssue) PlanContract)

def validatePlan (input : Input) : Except (List PlanValidationError) PlanContract :=
  match safeParse input with
  | .error issues => .error (issues.map fun issue => {
      code := .schema
      message := String.intercalate "." issue.path ++ ": " ++ issue.message })
  | .ok plan =>
    let (ids, duplicates) := plan.modules.foldl noteId ([], [])
    let errors := duplicates ++ unknownErrors ids plan.modules
    let errors := if errors = [] then
        match findCycle plan.modules with
        | some cycle => [{
            code := .dependency_cycle
            message := "dependency cycle: " ++ String.intercalate " -> " cycle }]
        | none => []
      else errors
    if errors = [] then .ok plan else .error errors

end

/-- What the checks establish. -/
structure Valid (plan : PlanContract) : Prop where
  distinct : (plan.modules.map PlanModule.id).Nodup
  known : ∀ mod ∈ plan.modules, ∀ dep ∈ mod.dependencies, dep ∈ plan.modules.map PlanModule.id
  acyclic : Cycle.Acyclic (depsOf plan.modules)

/-! ### The checks -/

/-- No duplicate was reported: the set of ids is the list of ids, without repetition. -/
theorem foldl_noteId {modules : List PlanModule} : ∀ {ids : List String}
    {errors : List PlanValidationError}, ids.Nodup →
    (modules.foldl noteId (ids, errors)).2 = [] →
      errors = [] ∧ (ids ++ modules.map PlanModule.id).Nodup ∧
        (modules.foldl noteId (ids, errors)).1 = ids ++ modules.map PlanModule.id := by
  induction modules with
  | nil => intro ids errors hids h; simpa using ⟨h, hids⟩
  | cons mod modules ih =>
    intro ids errors hids h
    rw [List.foldl_cons] at h ⊢
    by_cases hm : mod.id ∈ ids
    · simp only [noteId, if_pos hm] at h
      obtain ⟨herr, -⟩ := ih hids h
      simp at herr
    · simp only [noteId, if_neg hm] at h ⊢
      have hids' : (ids ++ [mod.id]).Nodup :=
        List.Nodup.append hids (List.nodup_singleton _) (by simpa using hm)
      obtain ⟨herr, hnd, heq⟩ := ih hids' h
      rw [List.append_assoc] at hnd heq
      exact ⟨herr, hnd, heq⟩

/-- Without a repetition no duplicate is reported. -/
theorem foldl_noteId_of_nodup {modules : List PlanModule} : ∀ {ids : List String}
    {errors : List PlanValidationError}, (ids ++ modules.map PlanModule.id).Nodup →
      modules.foldl noteId (ids, errors) = (ids ++ modules.map PlanModule.id, errors) := by
  induction modules with
  | nil => intro ids errors _; simp
  | cons mod modules ih =>
    intro ids errors h
    have hnew : mod.id ∉ ids := fun hm => List.disjoint_of_nodup_append h hm (by simp)
    rw [List.map_cons, List.append_cons] at h
    rw [List.foldl_cons, noteId, if_neg hnew, ih h, List.map_cons, ← List.append_cons]

theorem unknownErrors_eq_nil {ids : List String} {modules : List PlanModule} :
    unknownErrors ids modules = [] ↔ ∀ mod ∈ modules, ∀ dep ∈ mod.dependencies, dep ∈ ids := by
  simp [unknownErrors, List.flatMap_eq_nil_iff, List.filter_eq_nil_iff]

section

variable {modules : List PlanModule} (hd : (modules.map PlanModule.id).Nodup)

include hd

theorem nodup_depEntries :
    ((modules.map fun mod => (mod.id, mod.dependencies)).map Prod.fst).Nodup := by
  rw [List.map_map]; exact hd

theorem depsOf_of_mem {mod : PlanModule} (hm : mod ∈ modules) :
    depsOf modules mod.id = mod.dependencies := by
  have := (OrdMap.get?_ofList (nodup_depEntries hd)).mpr (List.mem_map.mpr ⟨mod, hm, rfl⟩)
  rw [depsOf, this]; rfl

omit hd in
/-- A dependency in the map is one of the modules. -/
theorem mem_depsOf {id dep : String} (h : dep ∈ depsOf modules id) :
    Depends modules id dep := by
  unfold depsOf at h
  rcases hg : (OrdMap.ofList (modules.map fun mod => (mod.id, mod.dependencies))).get? id with _ | ds
  · rw [hg] at h; cases h
  · rw [hg] at h
    obtain ⟨mod, hm, he⟩ := List.mem_map.mp (OrdMap.mem_of_get?_ofList hg)
    cases he
    exact ⟨mod, hm, rfl, h⟩

theorem mem_depsOf_iff {id dep : String} : dep ∈ depsOf modules id ↔ Depends modules id dep := by
  constructor
  · exact mem_depsOf
  · rintro ⟨mod, hm, rfl, hdep⟩
    rw [depsOf_of_mem hd hm]
    exact hdep

omit hd in
/-- The search of `findCycle` never runs out of depth, so a miss means that there is no cycle. -/
theorem acyclic_of_findCycle (h : findCycle modules = none) :
    Cycle.Acyclic (depsOf modules) := by
  refine Cycle.acyclic_of_findCycle (U := mentioned modules) (fun x hx => ?_) (fun x _ d hd' => ?_)
    (Nat.lt_succ_self _) (fun x hx => ?_) h
  · exact List.mem_append_left _ hx
  · obtain ⟨mod, hm, -, hdep⟩ := mem_depsOf hd'
    exact List.mem_append_right _ (List.mem_flatMap.mpr ⟨mod, hm, hdep⟩)
  · obtain ⟨d, hd'⟩ := List.exists_mem_of_ne_nil _ hx
    obtain ⟨mod, hm, rfl, -⟩ := mem_depsOf hd'
    exact List.mem_map.mpr ⟨mod, hm, rfl⟩

end

/-- **An accepted plan is valid.** -/
theorem validatePlan_valid {Input : Type}
    {safeParse : Input → Except (List SchemaIssue) PlanContract} {input : Input}
    {plan : PlanContract} (h : validatePlan safeParse input = .ok plan) : Valid plan := by
  unfold validatePlan at h
  rcases hp : safeParse input with issues | parsed
  · rw [hp] at h; cases h
  rw [hp] at h
  simp only at h
  by_cases he : (parsed.modules.foldl noteId ([], [])).2 ++
      unknownErrors (parsed.modules.foldl noteId ([], [])).1 parsed.modules = []
  · rw [if_pos he] at h
    obtain ⟨hdup, hunk⟩ := List.append_eq_nil_iff.mp he
    obtain ⟨-, hnd, hids⟩ := foldl_noteId List.nodup_nil hdup
    rcases hc : findCycle parsed.modules with _ | cycle
    · rw [hc] at h
      simp only [if_true, Except.ok.injEq] at h
      subst h
      rw [hids, unknownErrors_eq_nil] at hunk
      exact ⟨hnd, hunk, acyclic_of_findCycle hc⟩
    · rw [hc] at h; simp at h
  · rw [if_neg he, if_neg he] at h; cases h

/-- A path that is found is a cycle. -/
theorem isCycle_of_findCycle {modules : List PlanModule} {path : List String}
    (h : findCycle modules = some path) : Cycle.IsCycle (Depends modules) path := by
  obtain ⟨a, l, rfl, hchain⟩ := Cycle.isCycle_of_findCycle h
  exact ⟨a, l, rfl, hchain.imp fun _ _ => mem_depsOf⟩

theorem ok_of_ite {ε α : Type} {c : Prop} [Decidable c] {a b : α} {error : ε}
    (h : (if c then Except.ok a else .error error) = .ok b) : a = b := by
  split at h
  · exact Except.ok.inj h
  · cases h

/-- What is accepted is the parsed plan. -/
theorem validatePlan_same {Input : Type} {safeParse : Input → Except (List SchemaIssue) PlanContract}
    {input : Input} {plan accepted : PlanContract} (hp : safeParse input = .ok plan)
    (h : validatePlan safeParse input = .ok accepted) : accepted = plan := by
  unfold validatePlan at h
  rw [hp] at h
  exact (ok_of_ite h).symm

/-- **Precisely the valid plans are accepted.** -/
theorem validatePlan_iff {Input : Type} {safeParse : Input → Except (List SchemaIssue) PlanContract}
    {input : Input} {plan : PlanContract} (hp : safeParse input = .ok plan) :
    validatePlan safeParse input = .ok plan ↔ Valid plan := by
  refine ⟨validatePlan_valid, fun hv => ?_⟩
  have hnone : findCycle plan.modules = none := by
    rcases hc : findCycle plan.modules with _ | path
    · rfl
    · obtain ⟨x, hx⟩ := (Cycle.isCycle_of_findCycle hc).transGen
      exact absurd hx (hv.acyclic x)
  have hids : plan.modules.foldl noteId ([], []) = ([] ++ plan.modules.map PlanModule.id, []) :=
    foldl_noteId_of_nodup hv.distinct
  have hunknown := unknownErrors_eq_nil.mpr hv.known
  unfold validatePlan
  rw [hp]
  simp only [hids, List.nil_append, hunknown, hnone, if_true]

end Norns.Contracts.Plan
