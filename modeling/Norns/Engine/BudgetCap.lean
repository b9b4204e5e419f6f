import Mathlib
import Norns.Engine.Budget
import Norns.Lib.Run

/-! # The project money cap over whole runs

A run of a ledger is watched from outside: `Watched` keeps, beside the ledger, every reservation that
`reserve` returned and that was neither settled nor released, and what every settlement took of the
reservation it settled. Neither list is read by the ledger, so `WithinCap` speaks about the money and not about
the ledger's own books.

* `Books`: the ledger's books agree with what was watched; every call keeps it, an `approve` only
  if the node's entry is untouched (`Untouched`), because `approve` starts a fresh entry;
* `books_run`, `withinCap_of_books`: hence the cap over every run without such an `approve`. -/

namespace Norns.Engine.BudgetCap

open Norns.Lib Norns.Lib.Run Norns.Engine.Budget Norns.Engine.Budget.BudgetLedger

/-- A reservation in the hands of a caller. -/
structure Hold where
  nodeId : String
  id : String
  amount : ℚ
  deriving DecidableEq

structure Watched where
  ledger : BudgetLedger
  /-- Node and amount of every settlement so far. -/
  settlements : List (String × ℚ)
  /-- Returned by `reserve`, not settled, not released. -/
  holds : List Hold
  deriving DecidableEq

/-- The calls of a ledger's users. -/
inductive Call
  | approve (nodeId : String) (approvedUsd : ℚ)
  | reserve (nodeId : String) (maxChargeUsd : ℚ)
  | settle (nodeId reservationId : String) (actualUsd : ℚ)
  | release (nodeId reservationId : String)
  deriving DecidableEq

/-- The amount of the call is not negative. -/
def Call.Nonneg : Call → Prop
  | .approve _ a | .reserve _ a | .settle _ _ a => 0 ≤ a
  | .release _ _ => True

/-- The holds other than `id` of `nodeId`. -/
def dropHold (nodeId id : String) (hs : List Hold) : List Hold :=
  hs.filter fun h => !(decide (h.nodeId = nodeId) && decide (h.id = id))

/-- What a settlement takes: the actual cost, up to the amount of the caller's hold. -/
def charge (hs : List Hold) (nodeId id : String) (actualUsd : ℚ) : ℚ :=
  match hs.find? fun h => decide (h.nodeId = nodeId ∧ h.id = id) with
  | some h => min actualUsd h.amount
  | none => actualUsd

/-- One call; a call that throws changes nothing. -/
def step (w : Watched) : Call → Watched
  | .approve nodeId a => { w with ledger := w.ledger.approve nodeId a }
  | .reserve nodeId a =>
    match w.ledger.reserve nodeId a with
    | .ok (id, l) => { w with ledger := l, holds := w.holds ++ [⟨nodeId, id, a⟩] }
    | .error _ => w
  | .settle nodeId id a =>
    match w.ledger.settle nodeId id a with
    | .ok l =>
      { ledger := l
        settlements := w.settlements ++ [(nodeId, charge w.holds nodeId id a)]
        holds := dropHold nodeId id w.holds }
    | .error _ => w
  | .release nodeId id =>
    match w.ledger.release nodeId id with
    | .ok l => { w with ledger := l, holds := dropHold nodeId id w.holds }
    | .error _ => w

def start (projectCapUsd : ℚ) : Watched := ⟨BudgetLedger.new projectCapUsd, [], []⟩

def settledTotal (ss : List (String × ℚ)) : ℚ := (ss.map Prod.snd).sum

def heldTotal (hs : List Hold) : ℚ := (hs.map Hold.amount).sum

/-- The settlements of one node. -/
def settledFor (nodeId : String) (ss : List (String × ℚ)) : List (String × ℚ) :=
  ss.filter fun e => decide (e.1 = nodeId)

/-- The holds on one node. -/
def heldFor (nodeId : String) (hs : List Hold) : List Hold :=
  hs.filter fun h => decide (h.nodeId = nodeId)

/-- **What the cap promises.** -/
structure WithinCap (w : Watched) : Prop where
  project : settledTotal w.settlements + heldTotal w.holds ≤ w.ledger.projectCapUsd
  node : ∀ nodeId node, w.ledger.nodes.get? nodeId = some node →
    settledTotal (settledFor nodeId w.settlements) + heldTotal (heldFor nodeId w.holds) ≤
      node.approvedUsd
  settleable : ∀ h ∈ w.holds, ∀ actual, ∃ l, w.ledger.settle h.nodeId h.id actual = .ok l

/-- The node has no entry, or one without settled money and without reservations. -/
def Untouched (l : BudgetLedger) (nodeId : String) : Prop :=
  ∀ node, l.nodes.get? nodeId = some node → node.settledUsd = 0 ∧ node.reservations = OrdMap.empty

/-- An approval meets an untouched node. -/
def FreshApproval (w : Watched) : Call → Prop
  | .approve nodeId _ => Untouched w.ledger nodeId
  | _ => True

/-! ### The books -/

/-- What the books say was settled for the node. -/
def bookedUsd (l : BudgetLedger) (nodeId : String) : ℚ :=
  match l.nodes.get? nodeId with
  | some node => node.settledUsd
  | none => 0

/-- A hold as an entry of the node's reservations. -/
def Hold.entry (h : Hold) : String × ℚ := (h.id, h.amount)

/-- **The ledger's books agree with what was watched.** -/
structure Books (w : Watched) : Prop where
  settled : ∀ nodeId, bookedUsd w.ledger nodeId = settledTotal (settledFor nodeId w.settlements)
  held : ∀ nodeId node, w.ledger.nodes.get? nodeId = some node →
    node.reservations.entries = (heldFor nodeId w.holds).map Hold.entry
  noHold : ∀ nodeId, w.ledger.nodes.get? nodeId = none → heldFor nodeId w.holds = []
  sumSettled : w.ledger.projectSettledUsd = settledTotal w.settlements
  sumHeld : w.ledger.projectActiveUsd = heldTotal w.holds
  nodeCap : ∀ nodeId node, w.ledger.nodes.get? nodeId = some node →
    node.settledUsd + node.activeUsd ≤ node.approvedUsd
  cap : w.ledger.projectSettledUsd + w.ledger.projectActiveUsd ≤ w.ledger.projectCapUsd
  nonneg : ∀ h ∈ w.holds, 0 ≤ h.amount
  issued : ∀ h ∈ w.holds, ∃ n ≤ w.ledger.reservationCounter, h.id = reservationId n

theorem activeUsd_eq (node : NodeBudget) {hs : List Hold}
    (h : node.reservations.entries = hs.map Hold.entry) : node.activeUsd = heldTotal hs := by
  unfold NodeBudget.activeUsd OrdMap.sum heldTotal
  rw [h, List.map_map]; rfl

theorem heldTotal_append (hs hs' : List Hold) :
    heldTotal (hs ++ hs') = heldTotal hs + heldTotal hs' := by simp [heldTotal]

theorem settledTotal_append (ss ss' : List (String × ℚ)) :
    settledTotal (ss ++ ss') = settledTotal ss + settledTotal ss' := by simp [settledTotal]

theorem heldFor_dropHold_self (nodeId id : String) (hs : List Hold) :
    (heldFor nodeId (dropHold nodeId id hs)).map Hold.entry =
      ((heldFor nodeId hs).map Hold.entry).filter fun e => decide (e.1 ≠ id) := by
  unfold heldFor dropHold
  rw [List.filter_map, List.filter_filter, List.filter_filter]
  congr 1
  refine List.filter_congr fun h _ => ?_
  by_cases h1 : h.nodeId = nodeId
  · by_cases h2 : h.id = id <;> simp [h1, h2, Hold.entry]
  · simp [h1]

theorem heldFor_dropHold_ne {nodeId nodeId' : String} (h : nodeId' ≠ nodeId) (id : String)
    (hs : List Hold) : heldFor nodeId' (dropHold nodeId id hs) = heldFor nodeId' hs := by
  unfold heldFor dropHold
  rw [List.filter_filter]
  refine List.filter_congr fun x _ => ?_
  by_cases h1 : x.nodeId = nodeId' <;> simp [h1, h]

theorem mem_dropHold {nodeId id : String} {hs : List Hold} {h : Hold}
    (hm : h ∈ dropHold nodeId id hs) : h ∈ hs := (List.mem_filter.mp hm).1

/-- A hold is in the books of its node. -/
theorem Books.get?_of_mem {w : Watched} (hw : Books w) {h : Hold} (hm : h ∈ w.holds) :
    ∃ node, w.ledger.nodes.get? h.nodeId = some node ∧
      node.reservations.get? h.id = some h.amount := by
  have hf : h ∈ heldFor h.nodeId w.holds := List.mem_filter.mpr ⟨hm, by simp⟩
  rcases hn : w.ledger.nodes.get? h.nodeId with _ | node
  · rw [hw.noHold _ hn] at hf; cases hf
  · refine ⟨node, rfl, OrdMap.mem_entries.mp ?_⟩
    rw [hw.held _ _ hn]
    exact List.mem_map.mpr ⟨h, hf, rfl⟩

/-- Conversely, a reservation in the books is a hold. -/
theorem Books.mem_of_get? {w : Watched} (hw : Books w) {nodeId id : String} {node : NodeBudget}
    {held : ℚ} (hn : w.ledger.nodes.get? nodeId = some node)
    (hr : node.reservations.get? id = some held) : ⟨nodeId, id, held⟩ ∈ w.holds := by
  have hm := OrdMap.mem_entries.mpr hr
  rw [hw.held _ _ hn] at hm
  obtain ⟨h, hh, he⟩ := List.mem_map.mp hm
  obtain ⟨hh, hnode⟩ := List.mem_filter.mp hh
  cases h
  simp only [Hold.entry, Prod.mk.injEq] at he
  obtain ⟨rfl, rfl⟩ := he
  simp only [decide_eq_true_eq] at hnode
  exact hnode ▸ hh

/-- The hold of a reservation has the amount in the books. -/
theorem Books.charge_eq {w : Watched} (hw : Books w) {nodeId id : String} {node : NodeBudget}
    {held : ℚ} (hn : w.ledger.nodes.get? nodeId = some node)
    (hr : node.reservations.get? id = some held) (a : ℚ) : charge w.holds nodeId id a = min a held := by
  unfold charge
  rcases hfind : w.holds.find? fun h => decide (h.nodeId = nodeId ∧ h.id = id) with _ | h
  · have hnone := List.find?_eq_none.mp hfind _ (hw.mem_of_get? hn hr)
    simp at hnone
  · obtain ⟨rfl, rfl⟩ := of_decide_eq_true (List.find?_some hfind :)
    obtain ⟨node', hn', hr'⟩ := hw.get?_of_mem (List.mem_of_find?_eq_some hfind)
    rw [hn] at hn'
    cases hn'
    rw [hr] at hr'
    cases hr'
    rw [hfind]

/-- The project sum after dropping one reservation. -/
theorem heldTotal_dropHold {w : Watched} (hw : Books w) {nodeId id : String} {node : NodeBudget}
    {held : ℚ} (hn : w.ledger.nodes.get? nodeId = some node)
    (hr : node.reservations.get? id = some held) :
    heldTotal (dropHold nodeId id w.holds) = heldTotal w.holds - held := by
  -- split the holds into those of the node and the others
  have hsplit : ∀ hs : List Hold, heldTotal hs = heldTotal (heldFor nodeId hs) +
      heldTotal (hs.filter fun h => !decide (h.nodeId = nodeId)) := by
    intro hs
    induction hs with
    | nil => simp [heldTotal, heldFor]
    | cons h hs ih =>
      unfold heldTotal heldFor at ih ⊢
      by_cases h1 : h.nodeId = nodeId
      · rw [List.filter_cons_of_pos (by simpa using h1), List.filter_cons_of_neg (by simpa using h1)]
        simp only [List.map_cons, List.sum_cons, ih]; ring
      · rw [List.filter_cons_of_neg (by simpa using h1), List.filter_cons_of_pos (by simpa using h1)]
        simp only [List.map_cons, List.sum_cons, ih]; ring
  have hrest : (dropHold nodeId id w.holds).filter (fun h => !decide (h.nodeId = nodeId)) =
      w.holds.filter fun h => !decide (h.nodeId = nodeId) := by
    unfold dropHold
    rw [List.filter_filter]
    refine List.filter_congr fun h _ => ?_
    by_cases h1 : h.nodeId = nodeId <;> simp [h1]
  have hdel : (node.reservations.delete id).entries =
      (heldFor nodeId (dropHold nodeId id w.holds)).map Hold.entry := by
    rw [heldFor_dropHold_self, ← hw.held _ _ hn]; rfl
  have h1 := activeUsd_eq { node with reservations := node.reservations.delete id } hdel
  have h2 := activeUsd_eq _ (hw.held _ _ hn)
  have h3 : (node.reservations.delete id).sum Prod.snd = node.reservations.sum Prod.snd - held := by
    rw [OrdMap.sum_delete, hr]
  unfold NodeBudget.activeUsd at h1 h2
  rw [hsplit (dropHold nodeId id w.holds), hsplit w.holds, hrest, ← h1, ← h2, h3]
  ring

/-! ### Every call keeps the books -/

theorem books_start {cap : ℚ} (h : 0 ≤ cap) : Books (start cap) where
  settled _ := rfl
  held _ _ h := by cases h
  noHold _ _ := rfl
  sumSettled := rfl
  sumHeld := rfl
  nodeCap _ _ h := by cases h
  cap := by simpa [start, BudgetLedger.new, projectSettledUsd, projectActiveUsd, OrdMap.sum,
    OrdMap.empty] using h
  nonneg _ h := by cases h
  issued _ h := by cases h

theorem Books.approve {w : Watched} (hw : Books w) {nodeId : String} {a : ℚ} (ha : 0 ≤ a)
    (hfresh : Untouched w.ledger nodeId) : Books (step w (.approve nodeId a)) := by
  have hbooked : bookedUsd w.ledger nodeId = 0 := by
    unfold bookedUsd
    rcases hn : w.ledger.nodes.get? nodeId with _ | node
    · rfl
    · exact (hfresh node hn).1
  have hempty : heldFor nodeId w.holds = [] := by
    rcases hn : w.ledger.nodes.get? nodeId with _ | node
    · exact hw.noHold _ hn
    · have := hw.held _ _ hn
      rw [(hfresh node hn).2] at this
      exact List.map_eq_nil_iff.mp this.symm
  have hS : (w.ledger.approve nodeId a).projectSettledUsd = w.ledger.projectSettledUsd := by
    unfold projectSettledUsd BudgetLedger.approve
    rw [OrdMap.sum_set]
    rcases hn : w.ledger.nodes.get? nodeId with _ | node
    · simp
    · simp [(hfresh node hn).1]
  have hA : (w.ledger.approve nodeId a).projectActiveUsd = w.ledger.projectActiveUsd := by
    unfold projectActiveUsd BudgetLedger.approve
    rw [OrdMap.sum_set]
    have h0 : NodeBudget.activeUsd ⟨a, 0, OrdMap.empty⟩ = 0 := rfl
    rcases hn : w.ledger.nodes.get? nodeId with _ | node
    · simp [h0]
    · simp [NodeBudget.activeUsd, (hfresh node hn).2]
  refine ⟨fun n => ?_, fun n node hn => ?_, fun n hn => ?_, hS.trans hw.sumSettled,
    hA.trans hw.sumHeld, fun n node hn => ?_, ?_, hw.nonneg, hw.issued⟩
  · refine Eq.trans ?_ (hw.settled n)
    by_cases h : nodeId = n
    · subst h; rw [hbooked]; simp [step, bookedUsd, BudgetLedger.approve]
    · simp [step, bookedUsd, BudgetLedger.approve, OrdMap.get?_set_ne _ _ h]
  · by_cases h : nodeId = n
    · subst h
      rw [show node = ⟨a, 0, OrdMap.empty⟩ by simpa [step, BudgetLedger.approve] using hn.symm]
      exact (by rw [show (step w (.approve nodeId a)).holds = w.holds from rfl, hempty]; rfl)
    · exact hw.held n node (by simpa [step, BudgetLedger.approve, OrdMap.get?_set_ne _ _ h] using hn)
  · by_cases h : nodeId = n
    · subst h; exact hempty
    · exact hw.noHold n (by simpa [step, BudgetLedger.approve, OrdMap.get?_set_ne _ _ h] using hn)
  · by_cases h : nodeId = n
    · subst h
      rw [show node = ⟨a, 0, OrdMap.empty⟩ by simpa [step, BudgetLedger.approve] using hn.symm]
      simpa [NodeBudget.activeUsd, OrdMap.sum, OrdMap.empty] using ha
    · exact hw.nodeCap n node
        (by simpa [step, BudgetLedger.approve, OrdMap.get?_set_ne _ _ h] using hn)
  · show (w.ledger.approve nodeId a).projectSettledUsd +
      (w.ledger.approve nodeId a).projectActiveUsd ≤ w.ledger.projectCapUsd
    rw [hS, hA]; exact hw.cap

/-- Ids already issued are not issued again. -/
theorem reservationId_injective : Function.Injective reservationId := fun _ _ h =>
  Nat.repr_injective ((String.append_right_inj _).mp h)

theorem Books.fresh {w : Watched} (hw : Books w) {nodeId : String} {node : NodeBudget}
    (hn : w.ledger.nodes.get? nodeId = some node) :
    node.reservations.get? (reservationId (w.ledger.reservationCounter + 1)) = none := by
  rcases hr : node.reservations.get? (reservationId (w.ledger.reservationCounter + 1)) with _ | held
  · rfl
  · obtain ⟨n, hle, he⟩ := hw.issued _ (hw.mem_of_get? hn hr)
    have := reservationId_injective he
    omega

theorem Books.reserve {w : Watched} (hw : Books w) {nodeId : String} {a : ℚ} (ha : 0 ≤ a) :
    Books (step w (.reserve nodeId a)) := by
  simp only [step]
  rcases hres : w.ledger.reserve nodeId a with _ | ⟨id, l⟩
  · exact hw
  simp only
  obtain ⟨node, hn, hroom, hcap, rfl, hcount, hcapEq, hnodes⟩ := reserve_ok hres
  have hfresh := hw.fresh hn
  have hent := OrdMap.entries_set_of_none a hfresh
  have hactive : NodeBudget.activeUsd { node with
      reservations := node.reservations.set (reservationId (w.ledger.reservationCounter + 1)) a } =
      node.activeUsd + a := by
    unfold NodeBudget.activeUsd
    simp only [OrdMap.sum_set, hfresh, sub_zero]
  have hS : l.projectSettledUsd = w.ledger.projectSettledUsd := by
    unfold projectSettledUsd; rw [hnodes, OrdMap.sum_set, hn]; simp
  have hA : l.projectActiveUsd = w.ledger.projectActiveUsd + a := by
    unfold projectActiveUsd; rw [hnodes, OrdMap.sum_set, hn]; simp only [hactive]; ring
  have hget : ∀ n, nodeId ≠ n → l.nodes.get? n = w.ledger.nodes.get? n := fun n h => by
    rw [hnodes, OrdMap.get?_set_ne _ _ h]
  have hself : l.nodes.get? nodeId = some { node with
      reservations := node.reservations.set (reservationId (w.ledger.reservationCounter + 1)) a } := by
    rw [hnodes, OrdMap.get?_set_self]
  have hheld : ∀ n, nodeId ≠ n → heldFor n (w.holds ++
      [⟨nodeId, reservationId (w.ledger.reservationCounter + 1), a⟩]) = heldFor n w.holds := by
    intro n h; simp [heldFor, h]
  refine ⟨fun n => ?_, fun n m hm => ?_, fun n hm => ?_, hS.trans hw.sumSettled, ?_,
    fun n m hm => ?_, ?_, fun h hm => ?_, fun h hm => ?_⟩
  · refine Eq.trans ?_ (hw.settled n)
    unfold bookedUsd
    by_cases h : nodeId = n
    · subst h; simp [hself, hn]
    · simp [hget n h]
  · by_cases h : nodeId = n
    · subst h
      rw [hself, Option.some.injEq] at hm
      subst hm
      simp only [hent, hw.held _ _ hn, heldFor, List.filter_append, List.map_append]
      simp [Hold.entry]
    · simp only [hheld n h]; exact hw.held n m (hget n h ▸ hm)
  · by_cases h : nodeId = n
    · subst h; rw [hself] at hm; cases hm
    · simp only [hheld n h]; exact hw.noHold n (hget n h ▸ hm)
  · simp only [hA, heldTotal_append, hw.sumHeld]; simp [heldTotal]
  · by_cases h : nodeId = n
    · subst h
      rw [hself, Option.some.injEq] at hm
      subst hm
      rw [hactive]; simp only; linarith
    · exact hw.nodeCap n m (hget n h ▸ hm)
  · simp only [hS, hA, hcapEq]; linarith
  · rcases List.mem_append.mp hm with hm | hm
    · exact hw.nonneg h hm
    · rw [List.mem_singleton.mp hm]; exact ha
  · simp only [hcount]
    rcases List.mem_append.mp hm with hm | hm
    · obtain ⟨n, hle, he⟩ := hw.issued h hm
      exact ⟨n, by omega, he⟩
    · rw [List.mem_singleton.mp hm]; exact ⟨_, le_rfl, rfl⟩

/-- What `settle` and `release` have in common: the reservation goes, `paid` of it is settled. -/
theorem Books.drop {w : Watched} (hw : Books w) {nodeId : String} (id : String)
    {node : NodeBudget} (paid : ℚ) (hn : w.ledger.nodes.get? nodeId = some node)
    (hpaid : ∀ held, node.reservations.get? id = some held → paid ≤ held)
    (hnone : node.reservations.get? id = none → paid = 0) (ss : List (String × ℚ))
    (hss : settledTotal ss = settledTotal w.settlements + paid)
    (hfor : ∀ n, settledTotal (settledFor n ss) =
      settledTotal (settledFor n w.settlements) + if nodeId = n then paid else 0) :
    Books { ledger := { w.ledger with nodes := w.ledger.nodes.set nodeId { node with
              reservations := node.reservations.delete id, settledUsd := node.settledUsd + paid } }
            settlements := ss
            holds := dropHold nodeId id w.holds } := by
  -- the drop of the held amount, zero where nothing was held
  obtain ⟨held, hheld, hdel, hdrop⟩ : ∃ held : ℚ, paid ≤ held ∧
      (node.reservations.delete id).sum Prod.snd = node.activeUsd - held ∧
      heldTotal (dropHold nodeId id w.holds) = heldTotal w.holds - held := by
    rcases hr : node.reservations.get? id with _ | held
    · refine ⟨0, (hnone hr).le, ?_, ?_⟩
      · rw [OrdMap.sum_delete, hr]; rfl
      · rw [sub_zero]
        refine congrArg heldTotal (List.filter_eq_self.mpr fun h hm => ?_)
        simp only [Bool.not_eq_true', Bool.and_eq_false_iff, decide_eq_false_iff_not]
        by_contra hc
        push Not at hc
        obtain ⟨node', hn', hr'⟩ := hw.get?_of_mem hm
        rw [hc.1, hn] at hn'
        cases hn'
        rw [hc.2, hr] at hr'
        cases hr'
    · refine ⟨held, hpaid held hr, ?_, heldTotal_dropHold hw hn hr⟩
      rw [OrdMap.sum_delete, hr]; rfl
  have hget : ∀ n, nodeId ≠ n → (w.ledger.nodes.set nodeId { node with
      reservations := node.reservations.delete id
      settledUsd := node.settledUsd + paid }).get? n = w.ledger.nodes.get? n :=
    fun n h => OrdMap.get?_set_ne _ _ h
  have hS : (w.ledger.nodes.set nodeId { node with
      reservations := node.reservations.delete id
      settledUsd := node.settledUsd + paid }).sum (fun e => e.2.settledUsd) =
      w.ledger.projectSettledUsd + paid := by
    rw [OrdMap.sum_set, hn]; unfold projectSettledUsd; ring
  have hA : (w.ledger.nodes.set nodeId { node with
      reservations := node.reservations.delete id
      settledUsd := node.settledUsd + paid }).sum (fun e => e.2.activeUsd) =
      w.ledger.projectActiveUsd - held := by
    rw [OrdMap.sum_set, hn]
    unfold projectActiveUsd NodeBudget.activeUsd
    rw [hdel]; unfold NodeBudget.activeUsd; ring
  refine ⟨fun n => ?_, fun n m hm => ?_, fun n hm => ?_, hS.trans ?_, hA.trans ?_,
    fun n m hm => ?_, ?_, fun h hm => hw.nonneg h (mem_dropHold hm),
    fun h hm => hw.issued h (mem_dropHold hm)⟩
  · rw [hfor n, ← hw.settled n]
    unfold bookedUsd
    by_cases h : nodeId = n
    · subst h; simp [hn]
    · simp [hget n h, h]
  · by_cases h : nodeId = n
    · subst h
      simp only [OrdMap.get?_set_self, Option.some.injEq] at hm
      subst hm
      rw [heldFor_dropHold_self, ← hw.held _ _ hn]; rfl
    · rw [heldFor_dropHold_ne (Ne.symm h)]; exact hw.held n m (hget n h ▸ hm)
  · by_cases h : nodeId = n
    · subst h; simp at hm
    · rw [heldFor_dropHold_ne (Ne.symm h)]; exact hw.noHold n (hget n h ▸ hm)
  · rw [hss, hw.sumSettled]
  · simp only [hdrop, hw.sumHeld]
  · by_cases h : nodeId = n
    · subst h
      simp only [OrdMap.get?_set_self, Option.some.injEq] at hm
      subst hm
      have := hw.nodeCap _ _ hn
      unfold NodeBudget.activeUsd at this hdel ⊢
      simp only [hdel]; linarith
    · exact hw.nodeCap n m (hget n h ▸ hm)
  · have := hw.cap
    show (w.ledger.nodes.set nodeId _).sum _ + (w.ledger.nodes.set nodeId _).sum _ ≤ _
    rw [hS, hA]; simp only; linarith

theorem Books.settle {w : Watched} (hw : Books w) {nodeId id : String} {a : ℚ} :
    Books (step w (.settle nodeId id a)) := by
  simp only [step]
  rcases hset : w.ledger.settle nodeId id a with _ | l
  · exact hw
  obtain ⟨node, held, hn, hr, rfl⟩ := settle_ok hset
  simp only [hw.charge_eq hn hr]
  refine hw.drop id (min a held) hn (fun held' hr' => ?_) (fun h => ?_) _ ?_ fun n => ?_
  · rw [hr] at hr'; cases hr'; exact min_le_right _ _
  · rw [hr] at h; cases h
  · rw [settledTotal_append]; simp [settledTotal]
  · unfold settledFor
    by_cases h : nodeId = n <;> simp [settledTotal, h]

theorem Books.release {w : Watched} (hw : Books w) {nodeId id : String} :
    Books (step w (.release nodeId id)) := by
  simp only [step]
  rcases hrel : w.ledger.release nodeId id with _ | l
  · exact hw
  obtain ⟨node, hn, rfl⟩ := release_ok hrel
  have := hw.drop id 0 hn
    (fun held hr => hw.nonneg _ (hw.mem_of_get? hn hr)) (fun _ => rfl) w.settlements (by ring)
    (fun n => by split_ifs <;> ring)
  simpa using this

/-- **The run lemma**: the books agree after every run whose approvals meet untouched nodes. -/
theorem books_run {cap : ℚ} (hcap : 0 ≤ cap) {calls : List Call}
    (h : Along step (fun w c => c.Nonneg ∧ FreshApproval w c) (start cap) calls) :
    Books (run step (start cap) calls) := by
  refine run_induct (fun w c hw hc => ?_) (books_start hcap) h
  cases c with
  | approve nodeId a => exact hw.approve hc.1 hc.2
  | reserve nodeId a => exact hw.reserve hc.1
  | settle nodeId id a => exact hw.settle
  | release nodeId id => exact hw.release

theorem withinCap_of_books {w : Watched} (hw : Books w) : WithinCap w where
  project := by rw [← hw.sumSettled, ← hw.sumHeld]; exact hw.cap
  node nodeId node hn := by
    rw [← hw.settled, ← activeUsd_eq _ (hw.held _ _ hn)]
    unfold bookedUsd
    rw [hn]
    exact hw.nodeCap _ _ hn
  settleable h hm actual := by
    obtain ⟨node, hn, hr⟩ := hw.get?_of_mem hm
    exact settle_of_held hn hr actual

/-! ### The cap -/

/-- **The project cap** holds in every state of every run in which no approval replaces an entry
that has settled money or active reservations. -/
theorem moneyCap_of_freshApprovals (cap : ℚ) (hcap : 0 ≤ cap) (calls : List Call)
    (h : Along step (fun w c => c.Nonneg ∧ FreshApproval w c) (start cap) calls) :
    WithinCap (run step (start cap) calls) :=
  withinCap_of_books (books_run hcap h)

/-- A budget extension of an untouched node, then spending. -/
def extendEarly : List Call :=
  [.approve "n" 60, .approve "n" 100, .reserve "n" 70, .settle "n" "res_1" 50, .reserve "n" 40]

theorem moneyCap_of_freshApprovals_extendEarly : WithinCap (run step (start 100) extendEarly) := by
  refine moneyCap_of_freshApprovals 100 (by norm_num) extendEarly ?_
  refine ⟨⟨by norm_num [Call.Nonneg], fun node h => ?_⟩, ⟨by norm_num [Call.Nonneg],
    fun node h => ?_⟩, ⟨by norm_num [Call.Nonneg], trivial⟩, ⟨by norm_num [Call.Nonneg], trivial⟩,
    ⟨by norm_num [Call.Nonneg], trivial⟩, trivial⟩
  · cases h
  · cases h; exact ⟨rfl, rfl⟩

/-- An extension after the budget was spent: the settled money is forgotten, and the cap with it. -/
def extendLate : List Call :=
  [.approve "n" 100, .reserve "n" 100, .settle "n" "res_1" 100, .approve "n" 100, .reserve "n" 100]

theorem extendLate_exceeds_cap :
    ¬ ∀ (cap : ℚ) (calls : List Call), 0 ≤ cap → (∀ c ∈ calls, c.Nonneg) →
      WithinCap (run step (start cap) calls) := by
  intro hall
  have h := (hall 100 extendLate (by norm_num) (by simp [extendLate, Call.Nonneg])).project
  revert h
  decide +kernel

end Norns.Engine.BudgetCap
