import Norns.Lib.OrdMap
import Norns.Lib.Run

/-! # The registry of live runs

`LiveRunRegistry` (`liveRuns.ts`), and what a registration of `v2Execution.ts` does when it is cancelled. Each
registration is an object of its own, here an index: a run may be registered again before an earlier
registration of it has been released. What the session of a runtime offers is given with each control.

* `Exact`, `run_exact`: which registration a run has;
* `fence_stays`, `control_exact`, `finished_recent`: what the registry keeps and reaches in every run of its calls. -/

namespace Norns.Runner.LiveRuns

open Norns.Lib Norns.Lib.Run

/-! ### The registry -/

/-- `options.publication` -/
inductive Publication
  | allow_committed | fenced
  deriving DecidableEq, Repr

/-- What the registry reads of `RuntimeCapabilities`. -/
structure RuntimeCapabilities where
  interrupt : Bool
  send_message : Bool
  stop_after_current : Bool
  deriving DecidableEq, Repr

structure LiveRunRegistration where
  runId : String
  runtimeName : String
  capabilities : RuntimeCapabilities
  deriving DecidableEq, Repr

structure LiveRunTerminalFacts where
  outcome : String
  process_tree_reaped : Bool
  deriving DecidableEq, Repr

structure FinishedRun extends LiveRunTerminalFacts where
  at_ : ℤ
  deriving DecidableEq, Repr

/-- A registration: what its `cancel` has done, and its promise. -/
structure LiveEntry extends LiveRunRegistration where
  /-- `controller.signal.aborted`, with the reason. -/
  cancelReason : Option String := none
  cancellationPublication : Publication := .allow_committed
  terminal : Option LiveRunTerminalFacts := none
  deriving DecidableEq, Repr

/-- `registration.cancel`: the first reason stays, and so does a fence. -/
def LiveEntry.cancel (entry : LiveEntry) (reason : String) (publication : Publication) : LiveEntry :=
  { entry with
    cancelReason := entry.cancelReason <|> some reason
    cancellationPublication := if publication = .fenced then .fenced else entry.cancellationPublication }

/-- The promise is resolved once. -/
def LiveEntry.resolve (entry : LiveEntry) (facts : LiveRunTerminalFacts) : LiveEntry :=
  { entry with terminal := entry.terminal <|> some facts }

structure LiveRunRegistry where
  /-- Every registration so far. -/
  entries : List LiveEntry
  live : OrdMap String ℕ
  finished : OrdMap String FinishedRun

def FINISHED_RUN_MEMORY : ℕ := 200

/-- The oldest keys go until the size is in the bound. -/
def forget (finished : OrdMap String FinishedRun) : OrdMap String FinishedRun where
  entries := finished.entries.drop (finished.entries.length - FINISHED_RUN_MEMORY)
  nodup := finished.nodup.sublist ((List.drop_sublist _ _).map _)

def register (s : LiveRunRegistry) (registration : LiveRunRegistration) : LiveRunRegistry :=
  { s with
    entries := s.entries ++ [{ registration with }]
    live := s.live.set registration.runId s.entries.length }

/-- The function that `register` returned is called. -/
def release (s : LiveRunRegistry) (i : ℕ) (facts : LiveRunTerminalFacts) (now : ℤ) : LiveRunRegistry :=
  match s.entries[i]? with
  | none => s
  | some entry =>
    { entries := s.entries.set i (entry.resolve facts)
      live := if s.live.get? entry.runId = some i then s.live.delete entry.runId else s.live
      finished := forget (s.finished.set entry.runId ⟨facts, now⟩) }

/-- A registration is cancelled. -/
def cancelEntry (s : LiveRunRegistry) (i : ℕ) (reason : String) (publication : Publication) : LiveRunRegistry :=
  match s.entries[i]? with
  | none => s
  | some entry => { s with entries := s.entries.set i (entry.cancel reason publication) }

/-- `cancelAll`, and the start of `cancelAllAndWait`. -/
def cancelAll (s : LiveRunRegistry) (reason : String) : LiveRunRegistry :=
  s.live.values.foldl (fun s i => cancelEntry s i reason .fenced) s

/-- What `cancelAndWait` has to wait for. -/
inductive Stop
  | live (i : ℕ)
  | finished (facts : LiveRunTerminalFacts)
  | unknown
  deriving DecidableEq, Repr

/-- `cancelAndWait`, up to its first `await`. -/
def cancelAndWait (s : LiveRunRegistry) (runId reason : String) (publication : Publication) :
    Stop × LiveRunRegistry :=
  match s.live.get? runId with
  | some i => (.live i, cancelEntry s i reason publication)
  | none =>
    match s.finished.get? runId with
    | some facts => (.finished facts.toLiveRunTerminalFacts, s)
    | none => (.unknown, s)

/-! ### Controls -/

inductive LiveControlKind
  | cancel | interrupt | suspend | resume_session | stop_after_current | send_message
  deriving DecidableEq, Repr

def LiveControlKind.text : LiveControlKind → String
  | .cancel => "cancel"
  | .interrupt => "interrupt"
  | .suspend => "suspend"
  | .resume_session => "resume_session"
  | .stop_after_current => "stop_after_current"
  | .send_message => "send_message"

inductive ControlState
  | succeeded | rejected
  deriving DecidableEq, Repr

structure LiveControlOutcome where
  applied : Bool
  state : ControlState
  detail : String
  deriving DecidableEq, Repr

def LiveControlOutcome.refused (detail : String) : LiveControlOutcome := ⟨false, .rejected, detail⟩

def LiveControlOutcome.done (detail : String) : LiveControlOutcome := ⟨true, .succeeded, detail⟩

/-- The operations that the session of a run offers. -/
structure LiveRunSession where
  sendMessage : Bool
  interrupt : Bool
  deriving DecidableEq, Repr

/-- What reaches a running agent. -/
inductive Effect
  | interrupted
  | message (text : String)
  deriving DecidableEq, Repr

/-- A control of a live run, but for `cancel`; `none` is for no effect. -/
def controlLive (runId : String) (registration : LiveRunRegistration) (kind : LiveControlKind) (message : String)
    (session : Option LiveRunSession) : LiveControlOutcome × Option Effect :=
  let runtime := registration.runtimeName
  match kind with
  | .cancel => (.done s!"run {runId} cancelled; work already committed will still be published", none)
  | .interrupt =>
    if (session.map LiveRunSession.interrupt).getD false then
      (.done s!"run {runId} interrupted", some .interrupted)
    else if registration.capabilities.interrupt then
      (.refused s!"runtime {runtime} supports interrupt but this run has no live session yet", none)
    else
      (.refused s!"runtime {runtime} cannot interrupt a turn in flight; use cancel to stop the run", none)
  | .send_message =>
    if message = "" then (.refused "send_message carried no message", none)
    else if (session.map LiveRunSession.sendMessage).getD false then
      (.done s!"message delivered to run {runId}", some (.message message))
    else if registration.capabilities.send_message then
      (.refused s!"runtime {runtime} accepts mid-session input but this run has no live session yet", none)
    else
      (.refused s!"runtime {runtime} cannot accept input while a turn is running; the message was not delivered",
        none)
  | .suspend =>
    (.refused s!"runtime {runtime} cannot suspend a run in place; cancel the run and start a follow-up run instead",
      none)
  | .resume_session =>
    (.refused (s!"run {runId} is already executing; " ++
      "resume_session applies to a run that ended with a resumable session"), none)
  | .stop_after_current =>
    if registration.capabilities.stop_after_current then
      (.refused s!"runtime {runtime} declares stop_after_current but exposes no control for it", none)
    else
      (.refused s!"runtime {runtime} cannot stop after the current step; use cancel to stop the run", none)

/-- `control`; no outcome is for a run that the registry does not know. -/
def control (s : LiveRunRegistry) (runId : String) (kind : LiveControlKind) (message : String)
    (session : Option LiveRunSession) : Option LiveControlOutcome × Option Effect × LiveRunRegistry :=
  match s.live.get? runId with
  | none =>
    match s.finished.get? runId with
    | none => (none, none, s)
    | some ended =>
      (some (.refused s!"run {runId} has already ended ({ended.outcome}); the {kind.text} was not delivered"),
        none, s)
  | some i =>
    match s.entries[i]? with
    | none => (none, none, s)
    | some entry =>
      let (outcome, effect) := controlLive runId entry.toLiveRunRegistration kind message session
      (some outcome, effect,
        if kind = .cancel then cancelEntry s i "cancelled by operator" .allow_committed else s)

/-! ### Calls -/

inductive Call
  | register (registration : LiveRunRegistration)
  | release (i : ℕ) (facts : LiveRunTerminalFacts) (now : ℤ)
  | cancelAll (reason : String)
  | cancelAndWait (runId reason : String) (publication : Publication)
  | control (runId : String) (kind : LiveControlKind) (message : String) (session : Option LiveRunSession)

def step (s : LiveRunRegistry) : Call → LiveRunRegistry
  | .register registration => register s registration
  | .release i facts now => release s i facts now
  | .cancelAll reason => cancelAll s reason
  | .cancelAndWait runId reason publication => (cancelAndWait s runId reason publication).2
  | .control runId kind message session => (control s runId kind message session).2.2

def initial : LiveRunRegistry := ⟨[], .empty, .empty⟩

/-! ### What a call does -/

variable {s : LiveRunRegistry} {i j : ℕ} {runId reason : String} {publication : Publication}

/-- The run of each registration, and how it ended. -/
def LiveRunRegistry.runs (s : LiveRunRegistry) : List (String × Option LiveRunTerminalFacts) :=
  s.entries.map fun entry => (entry.runId, entry.terminal)

theorem runs_get? {entry : LiveEntry} (h : s.entries[i]? = some entry) :
    s.runs[i]? = some (entry.runId, entry.terminal) := by
  unfold LiveRunRegistry.runs
  rw [List.getElem?_map, h]
  rfl

/-- Registrations are cancelled, and nothing else changes. -/
structure Cancels (s s' : LiveRunRegistry) : Prop where
  live : s'.live = s.live
  finished : s'.finished = s.finished
  runs : s'.runs = s.runs

theorem Cancels.refl (s : LiveRunRegistry) : Cancels s s := ⟨rfl, rfl, rfl⟩

theorem Cancels.trans {a b c : LiveRunRegistry} (h : Cancels a b) (h' : Cancels b c) : Cancels a c :=
  ⟨h'.live.trans h.live, h'.finished.trans h.finished, h'.runs.trans h.runs⟩

theorem cancelEntry_cancels (s : LiveRunRegistry) (i : ℕ) (reason : String) (publication : Publication) :
    Cancels s (cancelEntry s i reason publication) := by
  unfold cancelEntry
  cases hget : s.entries[i]? with
  | none => exact .refl s
  | some entry =>
    refine ⟨rfl, rfl, ?_⟩
    show (s.entries.set i _).map _ = _
    rw [List.map_set]
    obtain ⟨hlt, hsame⟩ := List.getElem?_eq_some_iff.mp (runs_get? hget)
    have hentry : ((entry.cancel reason publication).runId, (entry.cancel reason publication).terminal) =
        s.runs[i] := hsame.symm
    rw [hentry]
    exact List.set_getElem_self hlt

theorem cancelAll_cancels (s : LiveRunRegistry) (reason : String) : Cancels s (cancelAll s reason) := by
  unfold cancelAll
  generalize s.live.values = is
  induction is generalizing s with
  | nil => exact .refl s
  | cons i is ih => exact (cancelEntry_cancels s i reason .fenced).trans (ih _)

theorem cancelAndWait_cancels (s : LiveRunRegistry) (runId reason : String) (publication : Publication) :
    Cancels s (cancelAndWait s runId reason publication).2 := by
  unfold cancelAndWait
  split
  · exact cancelEntry_cancels s _ reason publication
  · split <;> exact .refl s

theorem control_cancels (s : LiveRunRegistry) (runId : String) (kind : LiveControlKind) (message : String)
    (session : Option LiveRunSession) : Cancels s (control s runId kind message session).2.2 := by
  unfold control
  split
  · split <;> exact .refl s
  · split
    · exact .refl s
    · dsimp only
      split_ifs
      · exact cancelEntry_cancels s _ _ _
      · exact .refl s

theorem entries_forget (finished : OrdMap String FinishedRun) :
    (forget finished).entries = finished.entries.drop (finished.entries.length - FINISHED_RUN_MEMORY) := by
  unfold forget
  dsimp only

theorem get?_forget {finished : OrdMap String FinishedRun} {ended : FinishedRun}
    (h : (forget finished).get? runId = some ended) : finished.get? runId = some ended := by
  rw [← OrdMap.mem_entries, entries_forget] at h
  exact OrdMap.mem_entries.mp (List.mem_of_mem_drop h)

/-- What a release does to a registration. -/
theorem release_eq {entry : LiveEntry} (h : s.entries[i]? = some entry) (facts : LiveRunTerminalFacts) (now : ℤ) :
    release s i facts now =
      { entries := s.entries.set i (entry.resolve facts)
        live := if s.live.get? entry.runId = some i then s.live.delete entry.runId else s.live
        finished := forget (s.finished.set entry.runId ⟨facts, now⟩) } := by
  unfold release
  rw [h]

theorem release_runs {entry : LiveEntry} (h : s.entries[i]? = some entry) (facts : LiveRunTerminalFacts)
    (now : ℤ) : (release s i facts now).runs = s.runs.set i (entry.runId, entry.terminal <|> some facts) := by
  rw [release_eq h]
  unfold LiveRunRegistry.runs
  rw [List.map_set]
  rfl

theorem register_runs (s : LiveRunRegistry) (registration : LiveRunRegistration) :
    (register s registration).runs = s.runs ++ [(registration.runId, none)] := by
  unfold LiveRunRegistry.runs register
  rw [List.map_append]
  rfl

theorem length_runs (s : LiveRunRegistry) : s.runs.length = s.entries.length := List.length_map _

/-! ### Which registration a run has -/

/-- The last registration of a run, while it is not released. -/
def Unreleased (runs : List (String × Option LiveRunTerminalFacts)) (runId : String) (i : ℕ) : Prop :=
  runs[i]? = some (runId, none) ∧ ∀ j facts, runs[j]? = some (runId, facts) → j ≤ i

/-- The live runs are those whose last registration is not released. -/
def Exact (s : LiveRunRegistry) : Prop := ∀ runId i, s.live.get? runId = some i ↔ Unreleased s.runs runId i

theorem Exact.cancels {s' : LiveRunRegistry} (h : Exact s) (hcancels : Cancels s s') : Exact s' := by
  intro runId i
  rw [hcancels.live, hcancels.runs]
  exact h runId i

theorem exact_initial : Exact initial := by
  intro runId i
  constructor
  · intro hlive
    cases hlive
  · rintro ⟨hget, -⟩
    cases hget

theorem unreleased_concat {runs : List (String × Option LiveRunTerminalFacts)} {newId : String} :
    Unreleased (runs ++ [(newId, none)]) runId i ↔
      if newId = runId then i = runs.length else Unreleased runs runId i := by
  have hlast : (runs ++ [(newId, none)])[runs.length]? = some (newId, none) := by simp
  have hbefore : ∀ j, j < runs.length → (runs ++ [(newId, none)])[j]? = runs[j]? := fun j hj =>
    List.getElem?_append_left hj
  have hbound : ∀ j facts, (runs ++ [(newId, none)])[j]? = some (runId, facts) → j ≤ runs.length := by
    intro j facts hj
    have hlt := (List.getElem?_eq_some_iff.mp hj).1
    simp only [List.length_append, List.length_singleton] at hlt
    omega
  split_ifs with hid
  · subst hid
    constructor
    · rintro ⟨hget, hmax⟩
      exact le_antisymm (hbound i none hget) (hmax _ _ hlast)
    · rintro rfl
      exact ⟨hlast, hbound⟩
  · have hne : ∀ j facts, (runs ++ [(newId, none)])[j]? = some (runId, facts) → j < runs.length := by
      intro j facts hj
      refine lt_of_le_of_ne (hbound j facts hj) ?_
      rintro rfl
      rw [hlast] at hj
      cases hj
      exact hid rfl
    constructor
    · rintro ⟨hget, hmax⟩
      have hi := hne i none hget
      rw [hbefore i hi] at hget
      refine ⟨hget, fun j facts hj => hmax j facts ?_⟩
      rw [hbefore j (List.getElem?_eq_some_iff.mp hj).1]
      exact hj
    · rintro ⟨hget, hmax⟩
      refine ⟨(hbefore i (List.getElem?_eq_some_iff.mp hget).1).trans hget, fun j facts hj => ?_⟩
      exact hmax j facts ((hbefore j (hne j facts hj)).symm.trans hj)

theorem Exact.register (h : Exact s) (registration : LiveRunRegistration) : Exact (register s registration) := by
  intro runId i
  rw [register_runs, unreleased_concat, length_runs]
  show (s.live.set registration.runId s.entries.length).get? runId = some i ↔ _
  rw [OrdMap.get?_set]
  split_ifs
  · exact ⟨fun heq => (Option.some.inj heq).symm, fun heq => congrArg some heq.symm⟩
  · exact h runId i

/-- A registration is released: it is no longer the one of its run. -/
theorem unreleased_set {runs : List (String × Option LiveRunTerminalFacts)} {released : String}
    {before : Option LiveRunTerminalFacts} (hi : runs[i]? = some (released, before)) (facts : LiveRunTerminalFacts) :
    Unreleased (runs.set i (released, before <|> some facts)) runId j ↔ Unreleased runs runId j ∧ j ≠ i := by
  have hlt := (List.getElem?_eq_some_iff.mp hi).1
  have hself : (runs.set i (released, before <|> some facts))[i]? = some (released, before <|> some facts) :=
    List.getElem?_set_self hlt
  have hother : ∀ k, i ≠ k → (runs.set i (released, before <|> some facts))[k]? = runs[k]? := fun k hk =>
    List.getElem?_set_ne hk
  constructor
  · rintro ⟨hget, hmax⟩
    have hne : i ≠ j := by
      rintro rfl
      rw [hself] at hget
      cases before <;> cases hget
    rw [hother j hne] at hget
    refine ⟨⟨hget, fun k facts' hk => ?_⟩, hne.symm⟩
    by_cases hik : i = k
    · subst hik
      cases hi.symm.trans hk
      exact hmax i _ hself
    · exact hmax k facts' ((hother k hik).trans hk)
  · rintro ⟨⟨hget, hmax⟩, hne⟩
    refine ⟨(hother j hne.symm).trans hget, fun k facts' hk => ?_⟩
    by_cases hik : i = k
    · subst hik
      rw [hself] at hk
      cases hk
      exact hmax i _ hi
    · exact hmax k facts' ((hother k hik).symm.trans hk)

theorem Exact.release (h : Exact s) (i : ℕ) (facts : LiveRunTerminalFacts) (now : ℤ) :
    Exact (release s i facts now) := by
  cases hentry : s.entries[i]? with
  | none =>
    unfold LiveRuns.release
    rw [hentry]
    exact h
  | some entry =>
    intro runId j
    rw [release_runs hentry, unreleased_set (runs_get? hentry), ← h runId j, release_eq hentry]
    dsimp only
    have hown : ∀ id k, s.live.get? id = some k → k = i → id = entry.runId := by
      rintro id k hlive rfl
      have hget := ((h id k).mp hlive).1
      rw [runs_get? hentry] at hget
      exact (congrArg Prod.fst (Option.some.inj hget)).symm
    by_cases hlive : s.live.get? entry.runId = some i
    · rw [if_pos hlive, OrdMap.get?_delete]
      by_cases hid : entry.runId = runId
      · subst hid
        rw [if_pos rfl, hlive]
        simp [eq_comm]
      · rw [if_neg hid]
        exact ⟨fun hget => ⟨hget, fun hij => hid (hown runId j hget hij).symm⟩, fun hget => hget.1⟩
    · rw [if_neg hlive]
      refine ⟨fun hget => ⟨hget, fun hij => ?_⟩, fun hget => hget.1⟩
      have hid := hown runId j hget hij
      subst hid hij
      exact hlive hget

theorem exact_step (h : Exact s) (call : Call) : Exact (step s call) := by
  cases call with
  | register registration => exact h.register registration
  | release i facts now => exact h.release i facts now
  | cancelAll reason => exact h.cancels (cancelAll_cancels s reason)
  | cancelAndWait runId reason publication =>
    exact h.cancels (cancelAndWait_cancels s runId reason publication)
  | control runId kind message session => exact h.cancels (control_cancels s runId kind message session)

theorem run_exact (calls : List Call) : Exact (run step initial calls) :=
  run_induct' (I := Exact) (fun _ call h => exact_step h call) exact_initial calls

/-! ### What a registration keeps -/

/-- A later state of a registration. -/
structure LiveEntry.Later (entry later : LiveEntry) : Prop where
  registration : later.toLiveRunRegistration = entry.toLiveRunRegistration
  reason : ∀ r, entry.cancelReason = some r → later.cancelReason = some r
  fenced : entry.cancellationPublication = .fenced → later.cancellationPublication = .fenced
  terminal : ∀ facts, entry.terminal = some facts → later.terminal = some facts

theorem LiveEntry.Later.refl (entry : LiveEntry) : entry.Later entry := ⟨rfl, fun _ h => h, id, fun _ h => h⟩

theorem LiveEntry.Later.trans {a b c : LiveEntry} (h : a.Later b) (h' : b.Later c) : a.Later c :=
  ⟨h'.registration.trans h.registration, fun r hr => h'.reason r (h.reason r hr), fun hf => h'.fenced (h.fenced hf),
    fun facts hf => h'.terminal facts (h.terminal facts hf)⟩

theorem later_cancel (entry : LiveEntry) (reason : String) (publication : Publication) :
    entry.Later (entry.cancel reason publication) := by
  refine ⟨rfl, fun r hr => ?_, fun hf => ?_, fun _ hf => hf⟩
  · show (entry.cancelReason <|> some reason) = some r
    rw [hr]
    rfl
  · show (if publication = .fenced then _ else _) = _
    split_ifs
    · rfl
    · exact hf

theorem later_resolve (entry : LiveEntry) (facts : LiveRunTerminalFacts) : entry.Later (entry.resolve facts) := by
  refine ⟨rfl, fun _ hr => hr, id, fun facts' hf => ?_⟩
  show (entry.terminal <|> some facts) = some facts'
  rw [hf]
  rfl

/-- Every registration is still there, in a later state. -/
def Grows (s s' : LiveRunRegistry) : Prop :=
  ∀ (i : ℕ) (entry : LiveEntry), s.entries[i]? = some entry → ∃ later, s'.entries[i]? = some later ∧ entry.Later later

theorem Grows.refl (s : LiveRunRegistry) : Grows s s := fun _ entry h => ⟨entry, h, .refl entry⟩

theorem Grows.trans {a b c : LiveRunRegistry} (h : Grows a b) (h' : Grows b c) : Grows a c := by
  intro i entry hentry
  obtain ⟨later, hlater, hle⟩ := h i entry hentry
  obtain ⟨last, hlast, hle'⟩ := h' i later hlater
  exact ⟨last, hlast, hle.trans hle'⟩

theorem grows_set {s' : LiveRunRegistry} {entry later : LiveEntry} (hget : s.entries[i]? = some entry)
    (hset : s'.entries = s.entries.set i later) (hle : entry.Later later) : Grows s s' := by
  intro j other hother
  rw [hset]
  by_cases hij : i = j
  · subst hij
    cases hget.symm.trans hother
    exact ⟨later, List.getElem?_set_self (List.getElem?_eq_some_iff.mp hget).1, hle⟩
  · exact ⟨other, by rw [List.getElem?_set_ne hij]; exact hother, .refl other⟩

theorem cancelEntry_grows (s : LiveRunRegistry) (i : ℕ) (reason : String) (publication : Publication) :
    Grows s (cancelEntry s i reason publication) := by
  unfold cancelEntry
  cases hget : s.entries[i]? with
  | none => exact .refl s
  | some entry => exact grows_set hget rfl (later_cancel entry reason publication)

theorem cancelEntries_grows (reason : String) : ∀ (is : List ℕ) (s : LiveRunRegistry),
    Grows s (is.foldl (fun s i => cancelEntry s i reason .fenced) s)
  | [], s => .refl s
  | i :: is, s => (cancelEntry_grows s i reason .fenced).trans (cancelEntries_grows reason is _)

theorem grows_step (s : LiveRunRegistry) (call : Call) : Grows s (step s call) := by
  cases call with
  | register registration =>
    intro i entry hentry
    refine ⟨entry, ?_, .refl entry⟩
    show (s.entries ++ [_])[i]? = some entry
    rw [List.getElem?_append_left (List.getElem?_eq_some_iff.mp hentry).1]
    exact hentry
  | release i facts now =>
    show Grows s (release s i facts now)
    cases hget : s.entries[i]? with
    | none =>
      unfold release
      rw [hget]
      exact .refl s
    | some entry =>
      rw [release_eq hget]
      exact grows_set hget rfl (later_resolve entry facts)
  | cancelAll reason => exact cancelEntries_grows reason _ s
  | cancelAndWait runId reason publication =>
    show Grows s (cancelAndWait s runId reason publication).2
    unfold cancelAndWait
    split
    · exact cancelEntry_grows s _ reason publication
    · split <;> exact .refl s
  | control runId kind message session =>
    show Grows s (control s runId kind message session).2.2
    unfold control
    split
    · split <;> exact .refl s
    · split
      · exact .refl s
      · dsimp only
        split_ifs
        · exact cancelEntry_grows s _ _ _
        · exact .refl s

theorem grows_run (calls : List Call) (s : LiveRunRegistry) : Grows s (run step s calls) :=
  run_induct' (I := Grows s) (fun _ call h => h.trans (grows_step _ call)) (.refl s) calls

/-- A registration that was cancelled with a fence. -/
theorem cancelEntry_fenced {entry : LiveEntry} (h : s.entries[i]? = some entry) (reason : String) :
    (cancelEntry s i reason .fenced).entries[i]? = some (entry.cancel reason .fenced) := by
  unfold cancelEntry
  rw [h]
  exact List.getElem?_set_self (List.getElem?_eq_some_iff.mp h).1

/-- Each of the registrations is fenced. -/
theorem cancelEntries_fenced (reason : String) : ∀ (is : List ℕ) (s : LiveRunRegistry), ∀ i ∈ is,
    ∀ entry, s.entries[i]? = some entry → ∃ later,
      (is.foldl (fun s i => cancelEntry s i reason .fenced) s).entries[i]? = some later ∧
        later.cancellationPublication = .fenced ∧ later.cancelReason.isSome
  | [], _, _, hmem, _, _ => by cases hmem
  | i :: is, s, k, hmem, entry, hentry => by
    by_cases hik : k = i
    · subst hik
      obtain ⟨later, hlater, hle⟩ := cancelEntries_grows reason is (cancelEntry s k reason .fenced) k
        (entry.cancel reason .fenced) (cancelEntry_fenced hentry reason)
      refine ⟨later, hlater, hle.fenced rfl, ?_⟩
      cases hreason : entry.cancelReason with
      | none => rw [hle.reason reason (by unfold LiveEntry.cancel; rw [hreason]; rfl)]; rfl
      | some r => rw [hle.reason r (by unfold LiveEntry.cancel; rw [hreason]; rfl)]; rfl
    · have hrest : k ∈ is := (List.mem_cons.mp hmem).resolve_left hik
      obtain ⟨later, hlater, -⟩ := cancelEntry_grows s i reason .fenced k entry hentry
      exact cancelEntries_fenced reason is _ k hrest later hlater

/-- **A fence stays.** Once every run has been cancelled, each registration that was live stays cancelled and
cannot publish, whatever is called later. A run that is registered again has a new one, without the fence. -/
theorem fence_stays (calls later : List Call) (reason : String) {runId : String} {i : ℕ}
    (hlive : (run step initial calls).live.get? runId = some i) :
    ∃ entry, (run step initial (calls ++ .cancelAll reason :: later)).entries[i]? = some entry ∧
      entry.runId = runId ∧ entry.cancellationPublication = .fenced ∧ entry.cancelReason.isSome := by
  obtain ⟨hget, -⟩ := (run_exact calls runId i).mp hlive
  unfold LiveRunRegistry.runs at hget
  rw [List.getElem?_map] at hget
  obtain ⟨entry, hentry, hrun⟩ := Option.map_eq_some_iff.mp hget
  rw [run_append]
  generalize run step initial calls = s at hlive hentry ⊢
  have hmem : i ∈ s.live.values := OrdMap.mem_values.mpr ⟨runId, hlive⟩
  obtain ⟨fenced, hfenced, hpublication, hreason⟩ := cancelEntries_fenced reason s.live.values s i hmem entry hentry
  obtain ⟨first, hfirst, hle⟩ := grows_step s (.cancelAll reason) i entry hentry
  cases hfenced.symm.trans hfirst
  obtain ⟨last, hlast, hle'⟩ := grows_run later (step s (.cancelAll reason)) i fenced hfirst
  refine ⟨last, hlast, ?_, hle'.fenced hpublication, ?_⟩
  · rw [congrArg LiveRunRegistration.runId (hle.trans hle').registration]
    exact congrArg Prod.fst hrun
  · obtain ⟨r, hr⟩ := Option.isSome_iff_exists.mp hreason
    rw [hle'.reason r hr]
    rfl

def sampleRegistration (runId : String) : LiveRunRegistration := ⟨runId, "claude", ⟨true, false, false⟩⟩

/-- A run that is registered again before its first registration is released. -/
def sampleCalls : List Call :=
  [.register (sampleRegistration "run-1"), .register (sampleRegistration "run-1"), .release 0 ⟨"failed", true⟩ 10,
    .control "run-1" .cancel "" none]

theorem fence_stays_sample : ∃ entry,
    (run step initial (sampleCalls ++ .cancelAll "runner stopped" :: [.release 1 ⟨"cancelled", true⟩ 20])).entries[1]? =
      some entry ∧ entry.runId = "run-1" ∧ entry.cancellationPublication = .fenced ∧ entry.cancelReason.isSome :=
  fence_stays sampleCalls [.release 1 ⟨"cancelled", true⟩ 20] "runner stopped" (by decide +kernel)

/-- **What a control reaches.** Where the last registration of a run is not released, a cancellation is applied
to it and to no other; otherwise a control is refused, or not answered for a run that is not remembered, and
nothing changes. -/
theorem control_exact (calls : List Call) (runId message : String) (session : Option LiveRunSession) :
    (∀ i, Unreleased (run step initial calls).runs runId i →
      ∃ entry outcome, (run step initial calls).entries[i]? = some entry ∧ entry.runId = runId ∧
        control (run step initial calls) runId .cancel message session = (some outcome, none,
          { run step initial calls with
            entries := (run step initial calls).entries.set i
              (entry.cancel "cancelled by operator" .allow_committed) }) ∧
        outcome.applied = true ∧ outcome.state = .succeeded) ∧
    ((∀ i, ¬ Unreleased (run step initial calls).runs runId i) → ∀ kind,
      (control (run step initial calls) runId kind message session).2 = (none, run step initial calls) ∧
      ∀ outcome, (control (run step initial calls) runId kind message session).1 = some outcome ↔
        ∃ ended, (run step initial calls).finished.get? runId = some ended ∧ outcome = .refused
          s!"run {runId} has already ended ({ended.outcome}); the {kind.text} was not delivered") := by
  have hexact := run_exact calls runId
  generalize run step initial calls = s at hexact ⊢
  constructor
  · intro i hi
    have hlive := (hexact i).mpr hi
    obtain ⟨hget, -⟩ := hi
    unfold LiveRunRegistry.runs at hget
    rw [List.getElem?_map] at hget
    obtain ⟨entry, hentry, hrun⟩ := Option.map_eq_some_iff.mp hget
    refine ⟨entry, .done s!"run {runId} cancelled; work already committed will still be published", hentry,
      congrArg Prod.fst hrun, ?_, rfl, rfl⟩
    unfold control
    rw [hlive]
    dsimp only
    rw [hentry]
    dsimp only [controlLive]
    rw [if_pos rfl]
    unfold cancelEntry
    rw [hentry]
  · intro hnone kind
    have hlive : s.live.get? runId = none := by
      cases hlive : s.live.get? runId with
      | none => rfl
      | some i => exact absurd ((hexact i).mp hlive) (hnone i)
    unfold control
    rw [hlive]
    dsimp only
    cases hfinished : s.finished.get? runId with
    | none => simp
    | some ended => simp [eq_comm]

/-! ### The runs that are remembered -/

/-- The run that a call releases. -/
def releasedBy (s : LiveRunRegistry) : Call → List (String × FinishedRun)
  | .release i facts now =>
    match s.entries[i]? with
    | none => []
    | some entry => [(entry.runId, ⟨facts, now⟩)]
  | .register _ | .cancelAll _ | .cancelAndWait _ _ _ | .control _ _ _ _ => []

theorem releasedBy_some {entry : LiveEntry} (h : s.entries[i]? = some entry) (facts : LiveRunTerminalFacts)
    (now : ℤ) : releasedBy s (.release i facts now) = [(entry.runId, ⟨facts, now⟩)] := by
  unfold releasedBy
  simp only [h]

/-- The runs that are released, in their order. -/
def releases : LiveRunRegistry → List Call → List (String × FinishedRun)
  | _, [] => []
  | s, call :: calls => releasedBy s call ++ releases (step s call) calls

/-- No registration of the run was released before. -/
def FirstRelease (s : LiveRunRegistry) : Call → Prop
  | .release i _ _ => ∀ entry ∈ s.entries[i]?, ∀ other ∈ s.entries, other.runId = entry.runId → other.terminal = none
  | .register _ | .cancelAll _ | .cancelAndWait _ _ _ | .control _ _ _ _ => True

instance (s : LiveRunRegistry) (call : Call) : Decidable (FirstRelease s call) := by
  cases call <;> unfold FirstRelease <;> infer_instance

/-- A registration of the run was released. -/
def Ended (s : LiveRunRegistry) (runId : String) : Prop :=
  ∃ entry ∈ s.entries, entry.runId = runId ∧ entry.terminal ≠ none

theorem Ended.grows {s' : LiveRunRegistry} (h : Ended s runId) (hgrows : Grows s s') : Ended s' runId := by
  obtain ⟨entry, hentry, hrun, hended⟩ := h
  obtain ⟨i, hi⟩ := List.mem_iff_getElem?.mp hentry
  obtain ⟨later, hlater, hle⟩ := hgrows i entry hi
  obtain ⟨facts, hfacts⟩ := Option.ne_none_iff_exists'.mp hended
  refine ⟨later, List.mem_of_getElem? hlater, ?_, ?_⟩
  · rw [congrArg LiveRunRegistration.runId hle.registration]
    exact hrun
  · rw [hle.terminal facts hfacts]
    exact Option.some_ne_none facts

theorem ended_release {entry : LiveEntry} (hentry : s.entries[i]? = some entry) (facts : LiveRunTerminalFacts)
    (now : ℤ) : Ended (release s i facts now) entry.runId := by
  rw [release_eq hentry]
  refine ⟨entry.resolve facts, List.mem_set (List.getElem?_eq_some_iff.mp hentry).1 _, rfl, ?_⟩
  unfold LiveEntry.resolve
  cases entry.terminal <;> simp

/-- The last of the runs that were released are remembered. -/
structure Recent (past : List (String × FinishedRun)) (s : LiveRunRegistry) : Prop where
  finished : s.finished.entries = past.drop (past.length - FINISHED_RUN_MEMORY)
  distinct : (past.map Prod.fst).Nodup
  released : ∀ runId ∈ past.map Prod.fst, Ended s runId

variable {past : List (String × FinishedRun)}

/-- Of the last ones and one more, the last ones. -/
theorem drop_concat {α : Type*} (l : List α) (x : α) (n : ℕ) :
    (l.drop (l.length - n) ++ [x]).drop ((l.drop (l.length - n) ++ [x]).length - n) =
      (l ++ [x]).drop ((l ++ [x]).length - n) := by
  have hle : l.length - n ≤ l.length := Nat.sub_le _ _
  rw [← List.drop_append_of_le_length hle, List.drop_drop]
  congr 1
  simp only [List.length_drop, List.length_append, List.length_singleton]
  omega

theorem Recent.grows {s' : LiveRunRegistry} (h : Recent past s) (hgrows : Grows s s')
    (hfinished : s'.finished = s.finished) : Recent past s' :=
  ⟨by rw [hfinished]; exact h.finished, h.distinct, fun runId hmem => (h.released runId hmem).grows hgrows⟩

/-- A run that was not released before is not remembered. -/
theorem Recent.not_finished (h : Recent past s) (hnew : runId ∉ past.map Prod.fst) :
    s.finished.get? runId = none := by
  rw [OrdMap.get?_eq_none]
  intro hmem
  have hkeys : s.finished.keys = (past.map Prod.fst).drop (past.length - FINISHED_RUN_MEMORY) := by
    rw [← List.map_drop, ← h.finished]
    rfl
  rw [hkeys] at hmem
  exact hnew (List.mem_of_mem_drop hmem)

theorem Recent.release (h : Recent past s) {entry : LiveEntry} (hentry : s.entries[i]? = some entry)
    {facts : LiveRunTerminalFacts} {now : ℤ} (hfirst : ¬ Ended s entry.runId) :
    Recent (past ++ [(entry.runId, ⟨facts, now⟩)]) (release s i facts now) := by
  have hnew : entry.runId ∉ past.map Prod.fst := fun hmem => hfirst (h.released _ hmem)
  have hset : (s.finished.set entry.runId ⟨facts, now⟩).entries =
      past.drop (past.length - FINISHED_RUN_MEMORY) ++ [(entry.runId, ⟨facts, now⟩)] := by
    rw [OrdMap.entries_set_of_none _ (h.not_finished hnew), h.finished]
  refine ⟨?_, ?_, ?_⟩
  · rw [release_eq hentry]
    dsimp only
    rw [entries_forget, hset]
    exact drop_concat past _ _
  · rw [List.map_append, List.nodup_append]
    refine ⟨h.distinct, List.nodup_singleton _, fun a ha b hb => ?_⟩
    rw [List.map_singleton, List.mem_singleton] at hb
    rintro rfl
    rw [hb] at ha
    exact hnew ha
  · intro runId hmem
    rw [List.map_append, List.mem_append] at hmem
    rcases hmem with hmem | hmem
    · exact (h.released runId hmem).grows (grows_step s (.release i facts now))
    · rw [List.map_singleton, List.mem_singleton] at hmem
      rw [hmem]
      exact ended_release hentry facts now

theorem recent_step (h : Recent past s) (call : Call) (hfirst : FirstRelease s call) :
    Recent (past ++ releasedBy s call) (step s call) := by
  have hgrows := grows_step s call
  cases call with
  | register registration =>
    rw [releasedBy, List.append_nil]
    exact h.grows hgrows rfl
  | release i facts now =>
    show Recent _ (release s i facts now)
    cases hentry : s.entries[i]? with
    | none =>
      have hsame : release s i facts now = s := by
        unfold release
        rw [hentry]
      have hby : releasedBy s (.release i facts now) = [] := by
        unfold releasedBy
        simp only [hentry]
      rw [hby, List.append_nil, hsame]
      exact h
    | some entry =>
      rw [releasedBy_some hentry]
      refine h.release hentry ?_
      rintro ⟨other, hother, hrun, hended⟩
      exact hended (hfirst entry hentry other hother hrun)
  | cancelAll reason =>
    rw [releasedBy, List.append_nil]
    exact h.grows hgrows (cancelAll_cancels s reason).finished
  | cancelAndWait runId reason publication =>
    rw [releasedBy, List.append_nil]
    exact h.grows hgrows (cancelAndWait_cancels s runId reason publication).finished
  | control runId kind message session =>
    rw [releasedBy, List.append_nil]
    exact h.grows hgrows (control_cancels s runId kind message session).finished

theorem recent_run : ∀ (calls : List Call) {s : LiveRunRegistry} {past : List (String × FinishedRun)},
    Recent past s → Along step FirstRelease s calls → Recent (past ++ releases s calls) (run step s calls)
  | [], _, _, h, _ => by
    rw [releases, List.append_nil]
    exact h
  | call :: calls, _, _, h, hfirst => by
    rw [releases, ← List.append_assoc, run_cons]
    exact recent_run calls (recent_step h call hfirst.1) hfirst.2

/-- **What is remembered.** Where no run is released twice, the registry remembers the last two hundred runs
that were released, in their order, with what they ended with; of no other run it says that it has ended. -/
theorem finished_recent (calls : List Call) (h : Along step FirstRelease initial calls) :
    (run step initial calls).finished.entries =
      (releases initial calls).drop ((releases initial calls).length - FINISHED_RUN_MEMORY) := by
  have hstart : Recent [] initial := ⟨rfl, List.nodup_nil, fun _ hmem => by cases hmem⟩
  have hrecent := recent_run calls hstart h
  rw [List.nil_append] at hrecent
  exact hrecent.finished

/-! Runs that start and end one after the other, as many as two hundred and one. -/

def sampleFacts : LiveRunTerminalFacts := ⟨"completed", true⟩

def inTurn : ℕ → List String → List Call
  | _, [] => []
  | i, runId :: rest => .register (sampleRegistration runId) :: .release i sampleFacts i :: inTurn (i + 1) rest

theorem registered_last (s : LiveRunRegistry) (runId : String) :
    (register s (sampleRegistration runId)).entries[s.entries.length]? =
      some { sampleRegistration runId with } := List.getElem?_concat_length

theorem entries_turn (s : LiveRunRegistry) (runId : String) :
    (release (register s (sampleRegistration runId)) s.entries.length sampleFacts s.entries.length).entries =
      s.entries ++ [LiveEntry.resolve { sampleRegistration runId with } sampleFacts] := by
  rw [release_eq (registered_last s runId)]
  dsimp only [register]
  rw [List.set_append_right _ _ le_rfl, Nat.sub_self]
  rfl

theorem length_turn (s : LiveRunRegistry) (runId : String) :
    (release (register s (sampleRegistration runId)) s.entries.length sampleFacts s.entries.length).entries.length =
      s.entries.length + 1 := by
  rw [entries_turn, List.length_append, List.length_singleton]

theorem inTurn_first : ∀ (runIds : List String) {s : LiveRunRegistry},
    (∀ entry ∈ s.entries, entry.runId ∉ runIds) → runIds.Nodup →
      Along step FirstRelease s (inTurn s.entries.length runIds)
  | [], _, _, _ => trivial
  | runId :: rest, s, hfresh, hnodup => by
    obtain ⟨hout, hrest⟩ := List.nodup_cons.mp hnodup
    refine ⟨trivial, ?_, ?_⟩
    · rintro entry hentry other hother hrun
      cases (registered_last s runId).symm.trans hentry
      rcases List.mem_append.mp hother with hold | hnew
      · exact absurd (hrun ▸ List.mem_cons_self) (hfresh other hold)
      · rw [List.mem_singleton.mp hnew]
    · have hrec := inTurn_first rest
        (s := release (register s (sampleRegistration runId)) s.entries.length sampleFacts s.entries.length) ?_ hrest
      · rw [length_turn] at hrec
        exact hrec
      · rw [entries_turn]
        intro entry hentry hmem
        rcases List.mem_append.mp hentry with hold | hnew
        · exact hfresh entry hold (List.mem_cons_of_mem _ hmem)
        · rw [List.mem_singleton.mp hnew] at hmem
          exact hout hmem

theorem releases_inTurn : ∀ (runIds : List String) (s : LiveRunRegistry),
    (releases s (inTurn s.entries.length runIds)).map Prod.fst = runIds
  | [], _ => rfl
  | runId :: rest, s => by
    have hrec := releases_inTurn rest
      (release (register s (sampleRegistration runId)) s.entries.length sampleFacts s.entries.length)
    rw [length_turn] at hrec
    show List.map Prod.fst (releasedBy (register s (sampleRegistration runId))
      (.release s.entries.length sampleFacts s.entries.length) ++ releases _ _) = _
    rw [releasedBy_some (registered_last s runId)]
    exact congrArg (runId :: ·) hrec

def manyRuns : List String := (List.range 201).map fun n => String.ofList (List.replicate n 'r')

theorem manyRuns_nodup : manyRuns.Nodup := by
  refine List.Nodup.map ?_ List.nodup_range
  intro n k h
  have hlist : List.replicate n 'r' = List.replicate k 'r' := String.ofList_injective h
  simpa using congrArg List.length hlist

/-- The first of the runs is forgotten. -/
theorem releases_manyRuns : (releases initial (inTurn 0 manyRuns)).length = FINISHED_RUN_MEMORY + 1 := by
  have hlength := congrArg List.length (releases_inTurn manyRuns initial)
  rw [List.length_map] at hlength
  rw [show (0 : ℕ) = initial.entries.length from rfl, hlength, manyRuns, List.length_map, List.length_range]
  rfl

theorem finished_recent_manyRuns : (run step initial (inTurn 0 manyRuns)).finished.entries =
    (releases initial (inTurn 0 manyRuns)).drop
      ((releases initial (inTurn 0 manyRuns)).length - FINISHED_RUN_MEMORY) :=
  finished_recent (inTurn 0 manyRuns) (inTurn_first manyRuns (fun _ hmem => by cases hmem) manyRuns_nodup)

end Norns.Runner.LiveRuns
