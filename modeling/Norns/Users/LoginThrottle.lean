import Norns.Lib.OrdMap
import Norns.Lib.Run
import Mathlib.Data.List.Induction

/-! # The login throttle

`LoginAttemptThrottle` (`loginThrottle.ts`): the failed logins of a key are kept as long as they are in the window,
and a key with too many of them is refused. Times are milliseconds; a key stands for the hash that `key` computes.

* `recent`, `check`, `recordFailure`, `recordSuccess`: the operations, `step` one call;
* `failuresOf`: the failures of a key since its last success;
* `kept_run`: what is kept agrees with `failuresOf` in every window from now on;
* `check_run`: hence what a check answers;
* `throttle_exact`: the counts of the checks, and when the promised retry is kept. -/

namespace Norns.Users.LoginThrottle

open Norns.Lib Norns.Lib.Run

variable {κ : Type} [DecidableEq κ]

/-- The arguments that the constructor accepts. -/
structure Options where
  maximumFailures : ℕ
  windowMs : ℤ
  maximum_pos : 1 ≤ maximumFailures
  window_pos : 1 ≤ windowMs

def defaults : Options := ⟨5, 15 * 60 * 1000, by decide, by decide⟩

structure LoginThrottleResult where
  allowed : Bool
  retry_after_seconds : ℤ
  deriving DecidableEq, Repr

abbrev Failures (κ : Type) [DecidableEq κ] := OrdMap κ (List ℤ)

/-- The failures that are kept for a key. -/
def stored (failures : Failures κ) (key : κ) : List ℤ := (failures.get? key).getD []

/-- The times in the window that ends at `at`. -/
def window (o : Options) (now : ℤ) (times : List ℤ) : List ℤ := times.filter fun value => now - o.windowMs < value

def recent (o : Options) (failures : Failures κ) (key : κ) (now : ℤ) : Failures κ × List ℤ :=
  let kept := window o now (stored failures key)
  (if 0 < kept.length then failures.set key kept else failures.delete key, kept)

/-- `Math.ceil(ms / 1_000)` -/
def ceilSeconds (ms : ℤ) : ℤ := -(-ms / 1000)

/-- The answer to a check with these failures in the window. -/
def verdict (o : Options) (now : ℤ) (kept : List ℤ) : LoginThrottleResult :=
  if kept.length < o.maximumFailures then ⟨true, 0⟩
  else ⟨false, max 1 (ceilSeconds (kept.head?.getD now + o.windowMs - now))⟩

def check (o : Options) (failures : Failures κ) (key : κ) (now : ℤ) : Failures κ × LoginThrottleResult :=
  let r := recent o failures key now
  (r.1, verdict o now r.2)

def recordFailure (o : Options) (failures : Failures κ) (key : κ) (now : ℤ) : Failures κ :=
  let r := recent o failures key now
  r.1.set key (r.2 ++ [now])

def recordSuccess (failures : Failures κ) (key : κ) : Failures κ := failures.delete key

inductive Call (κ : Type)
  | recordFailure (key : κ) (now : ℤ)
  | recordSuccess (key : κ)
  | check (key : κ) (now : ℤ)

def step (o : Options) (failures : Failures κ) : Call κ → Failures κ
  | .recordFailure key now => recordFailure o failures key now
  | .recordSuccess key => recordSuccess failures key
  | .check key now => (check o failures key now).1

def initial : Failures κ := OrdMap.empty

/-! ### What is counted -/

def Call.time : Call κ → Option ℤ
  | .recordFailure _ now => some now
  | .recordSuccess _ => none
  | .check _ now => some now

def Call.key : Call κ → κ
  | .recordFailure key _ => key
  | .recordSuccess key => key
  | .check key _ => key

/-- The times of the calls do not decrease. -/
def Ordered (calls : List (Call κ)) : Prop := (calls.filterMap Call.time).Pairwise (· ≤ ·)

/-- What a call does to the failures of a key since its last success. -/
def note (key : κ) (times : List ℤ) : Call κ → List ℤ
  | .recordFailure k now => if k = key then times ++ [now] else times
  | .recordSuccess k => if k = key then [] else times
  | .check _ _ => times

/-- The failures of a key since its last success. -/
def failuresOf (key : κ) (calls : List (Call κ)) : List ℤ := calls.foldl (note key) []

/-- The number of failures of a key since its last success in `(now - w, now]`. -/
def failureCount (o : Options) (key : κ) (calls : List (Call κ)) (now : ℤ) : ℕ :=
  (failuresOf key calls).countP fun value => now - o.windowMs < value ∧ value ≤ now

section

variable (o : Options)

@[simp] theorem stored_set (failures : Failures κ) (key k : κ) (times : List ℤ) :
    stored (failures.set key times) k = if key = k then times else stored failures k := by
  unfold stored
  rw [OrdMap.get?_set]
  split_ifs <;> rfl

@[simp] theorem stored_delete (failures : Failures κ) (key k : κ) :
    stored (failures.delete key) k = if key = k then [] else stored failures k := by
  unfold stored
  rw [OrdMap.get?_delete]
  split_ifs <;> rfl

/-- Reading prunes the failures of the key and no others. -/
theorem stored_recent (failures : Failures κ) (key k : κ) (now : ℤ) :
    stored (recent o failures key now).1 k =
      if key = k then window o now (stored failures key) else stored failures k := by
  unfold recent
  dsimp only
  by_cases hkept : 0 < (window o now (stored failures key)).length
  · rw [if_pos hkept, stored_set]
  · have hnil : window o now (stored failures key) = [] := List.eq_nil_of_length_eq_zero (by omega)
    rw [if_neg hkept, stored_delete, hnil]

/-- A window lies in every earlier one. -/
theorem window_window {now later : ℤ} (h : now ≤ later) (times : List ℤ) :
    window o later (window o now times) = window o later times := by
  unfold window
  rw [List.filter_filter]
  refine List.filter_congr fun value _ => ?_
  have hiff : (now - o.windowMs < value ∧ later - o.windowMs < value) ↔ later - o.windowMs < value := by omega
  simp only [Bool.and_eq_decide, decide_eq_true_eq, hiff, and_comm]

theorem window_append (now : ℤ) (times more : List ℤ) :
    window o now (times ++ more) = window o now times ++ window o now more := List.filter_append ..

/-- **What is kept** agrees with the failures of every key in each window from `now` on. -/
def Kept (failures : Failures κ) (calls : List (Call κ)) (now : ℤ) : Prop :=
  ∀ k later, now ≤ later → window o later (stored failures k) = window o later (failuresOf k calls)

variable {o}

theorem Kept.mono {failures : Failures κ} {calls : List (Call κ)} {now later : ℤ} (h : Kept o failures calls now)
    (hle : now ≤ later) : Kept o failures calls later :=
  fun k t ht => h k t (hle.trans ht)

theorem failuresOf_concat (k : κ) (calls : List (Call κ)) (call : Call κ) :
    failuresOf k (calls ++ [call]) = note k (failuresOf k calls) call := by
  unfold failuresOf
  rw [List.foldl_append]
  rfl

/-- Reading keeps what is kept. -/
theorem Kept.recent {failures : Failures κ} {calls : List (Call κ)} {now : ℤ} (h : Kept o failures calls now)
    (key : κ) : Kept o (recent o failures key now).1 calls now := by
  intro k later hlater
  rw [stored_recent]
  by_cases hk : key = k
  · rw [if_pos hk, window_window o hlater, hk]
    exact h k later hlater
  · rw [if_neg hk]
    exact h k later hlater

/-- One call, at the time `now` where it has one. -/
theorem Kept.step {failures : Failures κ} {calls : List (Call κ)} {now : ℤ} (h : Kept o failures calls now)
    {call : Call κ} (htime : ∀ t ∈ call.time, t = now) :
    Kept o (step o failures call) (calls ++ [call]) now := by
  intro k later hlater
  rw [failuresOf_concat]
  cases call with
  | recordFailure key now' =>
    obtain rfl : now' = now := htime now' rfl
    show window o later (stored ((LoginThrottle.recent o failures key now').1.set key
        ((LoginThrottle.recent o failures key now').2 ++ [now'])) k) =
      window o later (if key = k then failuresOf k calls ++ [now'] else failuresOf k calls)
    rw [stored_set]
    by_cases hk : key = k
    · have hrecent := h.recent key k later hlater
      rw [stored_recent, if_pos hk] at hrecent
      rw [if_pos hk, if_pos hk, window_append, window_append, ← hrecent]
      rfl
    · rw [if_neg hk, if_neg hk]
      exact h.recent key k later hlater
  | recordSuccess key =>
    show window o later (stored (failures.delete key) k) =
      window o later (if key = k then [] else failuresOf k calls)
    rw [stored_delete]
    by_cases hk : key = k
    · rw [if_pos hk, if_pos hk]
    · rw [if_neg hk, if_neg hk]
      exact h k later hlater
  | check key now' =>
    obtain rfl : now' = now := htime now' rfl
    exact h.recent key k later hlater

omit [DecidableEq κ] in
/-- What holds of the calls up to `now`. -/
theorem ordered_concat {calls : List (Call κ)} {key : κ} {now : ℤ} :
    Ordered (calls ++ [.check key now]) ↔ Ordered calls ∧ ∀ t ∈ calls.filterMap Call.time, t ≤ now := by
  unfold Ordered
  rw [List.filterMap_append, List.pairwise_append]
  simp [Call.time]

variable (o)

/-- **The run.** After calls up to `now`, what is kept agrees with the failures. -/
theorem kept_run {calls : List (Call κ)} : ∀ {now : ℤ}, Ordered calls →
    (∀ t ∈ calls.filterMap Call.time, t ≤ now) → Kept o (run (step o) initial calls) calls now := by
  induction calls using List.reverseRecOn with
  | nil => intro now _ _ k later _; rfl
  | append_singleton calls call ih =>
    intro now hordered htimes
    unfold Ordered at hordered
    rw [List.filterMap_append] at hordered htimes
    obtain ⟨hcalls, -, hbefore⟩ := List.pairwise_append.mp hordered
    rw [run_concat]
    -- a call with a time is made no later than `now`, and no earlier than the calls before it
    rcases htime : call.time with _ | t
    · refine (ih hcalls fun t ht => htimes t (List.mem_append_left _ ht)).step fun t ht => ?_
      rw [htime] at ht
      cases ht
    · have ht : t ∈ [call].filterMap Call.time := by simp [htime]
      have hkept : Kept o (LoginThrottle.step o (run (LoginThrottle.step o) initial calls) call) (calls ++ [call]) t :=
        (ih hcalls fun t' ht' => hbefore t' ht' t ht).step
          fun t' ht' => by rw [htime] at ht'; exact (Option.some.inj ht').symm
      exact hkept.mono (htimes t (List.mem_append_right _ ht))

/-- **The answer to a check**, from the failures of its key since the last success. -/
theorem check_run {calls : List (Call κ)} {key : κ} {now : ℤ} (h : Ordered (calls ++ [.check key now])) :
    (check o (run (step o) initial calls) key now).2 = verdict o now (window o now (failuresOf key calls)) := by
  obtain ⟨hordered, htimes⟩ := ordered_concat.mp h
  rw [← kept_run o hordered htimes key now le_rfl]
  rfl

/-! ### The failures of a key -/

theorem failuresOf_sublist (key : κ) (calls : List (Call κ)) :
    (failuresOf key calls).Sublist (calls.filterMap Call.time) := by
  induction calls using List.reverseRecOn with
  | nil => exact List.Sublist.refl _
  | append_singleton calls call ih =>
    rw [failuresOf_concat, List.filterMap_append]
    have hsame := ih.trans (List.sublist_append_left _ ([call].filterMap Call.time))
    cases call with
    | recordFailure k now =>
      show (if k = key then failuresOf key calls ++ [now] else failuresOf key calls).Sublist _
      split_ifs
      · exact ih.append (List.Sublist.refl [now])
      · exact hsame
    | recordSuccess k =>
      show (if k = key then [] else failuresOf key calls).Sublist _
      split_ifs
      · exact List.nil_sublist _
      · exact hsame
    | check k now => exact hsame

/-- Other keys are not counted. -/
theorem failuresOf_filter (key : κ) (calls : List (Call κ)) :
    failuresOf key (calls.filter fun call => call.key = key) = failuresOf key calls := by
  induction calls using List.reverseRecOn with
  | nil => rfl
  | append_singleton calls call ih =>
    rw [List.filter_append, failuresOf_concat, ← ih]
    by_cases hkey : call.key = key
    · rw [List.filter_cons_of_pos (by simpa using hkey), List.filter_nil, failuresOf_concat]
    · rw [List.filter_cons_of_neg (by simpa using hkey), List.filter_nil, List.append_nil]
      cases call with
      | recordFailure k now => exact (if_neg hkey).symm
      | recordSuccess k => exact (if_neg hkey).symm
      | check k now => rfl

def Call.isFailureOf (key : κ) : Call κ → Bool
  | .recordFailure k _ => k = key
  | _ => false

/-- Without a further failure none is added. -/
theorem failuresOf_later {key : κ} {calls later : List (Call κ)} (h : ∀ call ∈ later, call.isFailureOf key = false) :
    (failuresOf key (calls ++ later)).Sublist (failuresOf key calls) := by
  induction later using List.reverseRecOn with
  | nil => rw [List.append_nil]
  | append_singleton later call ih =>
    have hlater := ih fun c hc => h c (List.mem_append_left _ hc)
    have hcall := h call (by simp)
    rw [← List.append_assoc, failuresOf_concat]
    cases call with
    | recordFailure k now =>
      have hk : ¬ k = key := by simpa [Call.isFailureOf] using hcall
      show (if k = key then failuresOf key (calls ++ later) ++ [now] else failuresOf key (calls ++ later)).Sublist _
      rw [if_neg hk]
      exact hlater
    | recordSuccess k =>
      show (if k = key then [] else failuresOf key (calls ++ later)).Sublist _
      split_ifs
      · exact List.nil_sublist _
      · exact hlater
    | check k now => exact hlater

/-! ### The retry -/

/-- Of a sorted list, fewer than `length - k` values are above `θ` exactly when the `k`-th is not. -/
theorem length_filter_lt_iff {xs : List ℤ} (hxs : xs.Pairwise (· ≤ ·)) {k : ℕ} (hk : k < xs.length) (θ : ℤ) :
    (xs.filter fun value => θ < value).length < xs.length - k ↔ xs[k] ≤ θ := by
  have hsplit : xs = xs.take k ++ xs[k] :: xs.drop (k + 1) := by
    rw [List.getElem_cons_drop, List.take_append_drop]
  have hdrop : (xs.drop (k + 1)).length = xs.length - k - 1 := by
    rw [List.length_drop]
    omega
  rw [hsplit, List.pairwise_append, List.pairwise_cons] at hxs
  obtain ⟨-, ⟨hafter, -⟩, hbefore⟩ := hxs
  constructor
  · intro hlt
    by_contra hle
    have hall : ∀ value ∈ xs[k] :: xs.drop (k + 1), decide (θ < value) = true := by
      intro value hvalue
      rcases List.mem_cons.mp hvalue with rfl | hvalue
      · exact decide_eq_true (by omega)
      · have := hafter value hvalue
        exact decide_eq_true (by omega)
    rw [hsplit, List.filter_append, List.filter_eq_self.mpr hall] at hlt
    simp only [List.length_append, List.length_cons, hdrop] at hlt
    rw [List.length_take] at hlt
    omega
  · intro hle
    have hnone : ∀ value ∈ xs.take k, ¬ decide (θ < value) = true := by
      intro value hvalue
      have := hbefore value hvalue xs[k] List.mem_cons_self
      rw [decide_eq_true_eq]
      omega
    have hnth : ¬ decide (θ < xs[k]) = true := by simpa using hle
    have hrest := List.length_filter_le (fun value => decide (θ < value)) (xs.drop (k + 1))
    have hfilter : xs.filter (fun value => decide (θ < value)) =
        (xs.drop (k + 1)).filter fun value => decide (θ < value) := by
      conv_lhs => rw [hsplit]
      rw [List.filter_append, List.filter_eq_nil_iff.mpr hnone, List.nil_append]
      exact List.filter_cons_of_neg hnth
    rw [hfilter]
    omega

theorem ceilSeconds_le_iff (ms seconds : ℤ) : ceilSeconds ms ≤ seconds ↔ ms ≤ seconds * 1000 := by
  unfold ceilSeconds
  omega

/-- The oldest failure in the window and the `m`-th newest, where there are `m`, leave it in the same second, counted
from the check. -/
def RetryExact (now : ℤ) (kept : List ℤ) : Prop :=
  o.maximumFailures ≤ kept.length → ∀ oldest ∈ kept.head?, ∀ newest ∈ kept[kept.length - o.maximumFailures]?,
    ceilSeconds (newest + o.windowMs - now) = ceilSeconds (oldest + o.windowMs - now)

/-- What a check is to answer after these calls. -/
structure Right (calls : List (Call κ)) (key : κ) (now : ℤ) : Prop where
  allowed : (check o (run (step o) initial calls) key now).2.allowed = true ↔
    failureCount o key calls now < o.maximumFailures
  /-- Other keys never matter. -/
  others : (check o (run (step o) initial (calls.filter fun call => call.key = key)) key now).2 =
    (check o (run (step o) initial calls) key now).2
  /-- Without a further failure, a check is allowed from the promised time on. -/
  retry : (check o (run (step o) initial calls) key now).2.allowed = false → ∀ later t,
    Ordered (calls ++ .check key now :: later ++ [.check key t]) →
    (∀ call ∈ later, call.isFailureOf key = false) →
    now + 1000 * (check o (run (step o) initial calls) key now).2.retry_after_seconds ≤ t →
    (check o (run (step o) initial (calls ++ .check key now :: later)) key t).2.allowed = true

theorem verdict_allowed (now : ℤ) (kept : List ℤ) :
    (verdict o now kept).allowed = true ↔ kept.length < o.maximumFailures := by
  unfold verdict
  split_ifs with h
  · exact iff_of_true rfl h
  · exact iff_of_false (by decide) h

theorem failureCount_eq {calls : List (Call κ)} {key : κ} {now : ℤ} (h : ∀ t ∈ calls.filterMap Call.time, t ≤ now) :
    failureCount o key calls now = (window o now (failuresOf key calls)).length := by
  unfold failureCount window
  rw [List.countP_eq_length_filter]
  congr 1
  refine List.filter_congr fun value hvalue => ?_
  have hle := h value ((failuresOf_sublist key calls).subset hvalue)
  simp [hle]

/-- A refused check names the second in which the oldest failure leaves the window. -/
theorem verdict_retry {now : ℤ} {kept : List ℤ} (hkept : ∀ value ∈ kept, now - o.windowMs < value)
    (h : o.maximumFailures ≤ kept.length) {oldest : ℤ} (hold : oldest ∈ kept.head?) :
    (verdict o now kept).retry_after_seconds = ceilSeconds (oldest + o.windowMs - now) := by
  have hmem := hkept oldest (List.mem_of_mem_head? hold)
  have hpos : ¬ ceilSeconds (oldest + o.windowMs - now) ≤ 0 := by
    rw [ceilSeconds_le_iff]
    omega
  unfold verdict
  rw [if_neg (by omega), Option.mem_def.mp hold]
  show max 1 (ceilSeconds (oldest + o.windowMs - now)) = _
  omega

theorem window_bound {now : ℤ} {times : List ℤ} : ∀ value ∈ window o now times, now - o.windowMs < value :=
  fun _ hvalue => of_decide_eq_true (List.mem_filter.mp hvalue).2

/-- A refused check has an oldest failure and an `m`-th newest. -/
theorem exists_oldest {kept : List ℤ} (h : o.maximumFailures ≤ kept.length) :
    ∃ oldest ∈ kept.head?, ∃ newest ∈ kept[kept.length - o.maximumFailures]?, kept.Pairwise (· ≤ ·) → oldest ≤ newest := by
  have hpos := o.maximum_pos
  obtain ⟨oldest, rest, rfl⟩ := List.exists_cons_of_length_pos (l := kept) (by omega)
  have hlt : (oldest :: rest).length - o.maximumFailures < (oldest :: rest).length := by omega
  refine ⟨oldest, rfl, (oldest :: rest)[(oldest :: rest).length - o.maximumFailures],
    List.getElem?_eq_getElem hlt, fun hsorted => ?_⟩
  rcases List.mem_cons.mp (List.getElem_mem hlt) with heq | hmem
  · exact heq.ge
  · exact (List.pairwise_cons.mp hsorted).1 _ hmem

/-- From `t` on, a check that counts no other failures than `kept` is allowed, exactly when the `m`-th newest of them has
left the window. -/
theorem allowed_iff {kept : List ℤ} (hsorted : kept.Pairwise (· ≤ ·)) (h : o.maximumFailures ≤ kept.length) {newest : ℤ}
    (hnewest : newest ∈ kept[kept.length - o.maximumFailures]?) (t : ℤ) :
    (window o t kept).length < o.maximumFailures ↔ newest + o.windowMs ≤ t := by
  have hpos := o.maximum_pos
  have hlt : kept.length - o.maximumFailures < kept.length := by omega
  rw [Option.mem_def, List.getElem?_eq_getElem hlt, Option.some.injEq] at hnewest
  have hiff := length_filter_lt_iff hsorted hlt (t - o.windowMs)
  rw [hnewest, Nat.sub_sub_self h] at hiff
  refine hiff.trans ?_
  omega

/-- **A check** allows exactly when fewer than `m` failures of its key are in the window, whatever other keys do. The
promised retry is allowed exactly when the oldest failure and the `m`-th newest leave the window in the same second. -/
theorem throttle_exact (calls : List (Call κ)) (key : κ) (now : ℤ) (h : Ordered (calls ++ [.check key now])) :
    Right o calls key now ↔ RetryExact o now (window o now (failuresOf key calls)) := by
  obtain ⟨hordered, htimes⟩ := ordered_concat.mp h
  have hsub := failuresOf_sublist key calls
  have hsorted : (window o now (failuresOf key calls)).Pairwise (· ≤ ·) :=
    (hordered.sublist hsub).sublist List.filter_sublist
  constructor
  · intro hright hrefused oldest hold newest hnewest
    have hanswer := check_run o h
    have hallowed : (check o (run (step o) initial calls) key now).2.allowed = false := by
      rw [hanswer, Bool.eq_false_iff]
      intro hallowed
      have := (verdict_allowed o now _).mp hallowed
      omega
    -- at the promised time itself, with no calls between
    have hretry := verdict_retry o (window_bound o) hrefused hold
    have hpos : 0 ≤ ceilSeconds (oldest + o.windowMs - now) := by
      have := window_bound o oldest (List.mem_of_mem_head? hold)
      by_contra hneg
      have := (ceilSeconds_le_iff (oldest + o.windowMs - now) (-1)).mp (by omega)
      omega
    have hlater : Ordered (calls ++ .check key now :: [] ++
        [.check key (now + 1000 * ceilSeconds (oldest + o.windowMs - now))]) := by
      refine ordered_concat.mpr ⟨h, fun t ht => ?_⟩
      rw [List.filterMap_append, List.mem_append] at ht
      rcases ht with ht | ht
      · have := htimes t ht
        omega
      · obtain rfl : t = now := by simpa [Call.time] using ht
        omega
    have hthen := hright.retry hallowed [] _ hlater (fun _ hcall => absurd hcall (List.not_mem_nil))
      (by rw [hanswer, hretry])
    rw [check_run o hlater, verdict_allowed, failuresOf_concat] at hthen
    rw [show note key (failuresOf key calls) (.check key now) = failuresOf key calls from rfl,
      ← window_window o (by omega : now ≤ now + 1000 * ceilSeconds (oldest + o.windowMs - now)),
      allowed_iff o hsorted hrefused hnewest] at hthen
    have hle : ceilSeconds (newest + o.windowMs - now) ≤ ceilSeconds (oldest + o.windowMs - now) := by
      rw [ceilSeconds_le_iff]
      omega
    obtain ⟨oldest', hold', newest', hnewest', hle'⟩ := exists_oldest o hrefused
    obtain rfl : oldest' = oldest := Option.mem_unique hold' hold
    obtain rfl : newest' = newest := Option.mem_unique hnewest' hnewest
    have := hle' hsorted
    have hge : ceilSeconds (oldest' + o.windowMs - now) ≤ ceilSeconds (newest' + o.windowMs - now) := by
      rw [ceilSeconds_le_iff]
      have := (ceilSeconds_le_iff (newest' + o.windowMs - now) _).mp le_rfl
      omega
    omega
  · intro hexact
    refine ⟨?_, ?_, ?_⟩
    · rw [check_run o h, verdict_allowed, failureCount_eq o htimes]
    · have hfilter : Ordered (calls.filter (fun call => decide (call.key = key)) ++ [.check key now]) :=
        List.Pairwise.sublist ((List.filter_sublist.append (List.Sublist.refl _)).filterMap _) h
      rw [check_run o h, check_run o hfilter, failuresOf_filter]
    · intro hrefused later t hlater hno ht
      rw [check_run o h] at hrefused ht
      have hcount : o.maximumFailures ≤ (window o now (failuresOf key calls)).length := by
        by_contra hlt
        rw [(verdict_allowed o now _).mpr (by omega)] at hrefused
        cases hrefused
      obtain ⟨oldest, hold, newest, hnewest, -⟩ := exists_oldest o hcount
      have hsame := hexact hcount oldest hold newest hnewest
      rw [verdict_retry o (window_bound o) hcount hold, ← hsame] at ht
      have hleft := (ceilSeconds_le_iff (newest + o.windowMs - now) _).mp le_rfl
      have hnewest' : now - o.windowMs < newest := window_bound o newest (List.mem_of_getElem? hnewest)
      have hnow : now ≤ t := by omega
      have hfew := (allowed_iff o hsorted hcount hnewest t).mpr (by omega)
      rw [window_window o hnow] at hfew
      -- whatever comes later, no failure is added
      rw [check_run o hlater, verdict_allowed]
      have hadded : (failuresOf key (calls ++ .check key now :: later)).Sublist (failuresOf key calls) := by
        refine failuresOf_later fun call hcall => ?_
        rcases List.mem_cons.mp hcall with rfl | hcall
        · rfl
        · exact hno call hcall
      have hlen : (window o t (failuresOf key (calls ++ .check key now :: later))).length ≤
          (window o t (failuresOf key calls)).length := (hadded.filter _).length_le
      omega

/-- Six failures, one of an attempt in flight: at the promised time five of them are still counted. -/
def burst : List (Call String) :=
  [.recordFailure "a" 0, .recordFailure "a" 60000, .recordFailure "a" 60000, .recordFailure "a" 60000,
    .recordFailure "a" 60000, .recordFailure "a" 60000]

theorem retry_refused : ¬ ∀ (o : Options) (calls : List (Call String)) (key : String) (now : ℤ),
    Ordered (calls ++ [.check key now]) → Right o calls key now := by
  intro h
  have hright := h defaults burst "a" 60000 (by unfold Ordered; decide)
  have hretry := hright.retry (by decide) [] 900000 (by unfold Ordered; decide) (by decide) (by decide)
  revert hretry
  decide

theorem retry_kept : Ordered ([.recordFailure "a" 0, .check "a" 1500] : List (Call String)) ∧
    Right ⟨1, 2000, by decide, by decide⟩ [.recordFailure "a" 0] "a" 1500 :=
  have hordered : Ordered ([.recordFailure "a" 0, .check "a" 1500] : List (Call String)) := by unfold Ordered; decide
  ⟨hordered, (throttle_exact ⟨1, 2000, by decide, by decide⟩ [.recordFailure "a" 0] "a" 1500 hordered).mpr (by
    unfold RetryExact; decide)⟩

end

end Norns.Users.LoginThrottle
