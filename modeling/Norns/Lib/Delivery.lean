import Mathlib.Data.List.Basic
import Mathlib.Data.List.Sublists
import Mathlib.Logic.Relation

/-! # A delivery queue

Messages go to a store. A message is sent at once while the queue is empty, waits in the queue otherwise, and may be given
up. The store answers, but a message whose sending failed may still be stored, then or later. The messages of one channel
are handed over one after the other: the next one comes when the last one is not being sent directly any more.

* `Step`: what can happen;
* `Inv`: where each message is, and what has left before another one is sent;
* `inv_step`, `inv_steps`: steps keep it. -/

namespace Norns.Lib.Delivery

variable {μ κ : Type*}

/-- `x` comes before `y`. -/
def Before (l : List μ) (x y : μ) : Prop := [x, y].Sublist l

theorem Before.mem {l : List μ} {x y : μ} (h : Before l x y) : x ∈ l ∧ y ∈ l :=
  ⟨h.subset List.mem_cons_self, h.subset (List.mem_cons_of_mem _ (List.mem_singleton_self y))⟩

theorem Before.append {l : List μ} {x y : μ} (h : Before l x y) (m : List μ) : Before (l ++ m) x y :=
  h.trans (List.sublist_append_left l m)

theorem before_concat {l : List μ} {x : μ} (h : x ∈ l) (y : μ) : Before (l ++ [y]) x y :=
  (List.singleton_sublist.mpr h).append (List.Sublist.refl [y])

/-- What comes before something in a list with one more element. -/
theorem Before.of_concat {l : List μ} {x y z : μ} (h : Before (l ++ [z]) x y) : Before l x y ∨ (x ∈ l ∧ y = z) := by
  obtain ⟨a, b, hsplit, ha, hb⟩ := List.sublist_append_iff.mp h
  rcases a with _ | ⟨a, _ | ⟨a', a''⟩⟩
  · rw [List.nil_append] at hsplit
    rw [← hsplit] at hb
    have hlength := hb.length_le
    simp at hlength
  · obtain ⟨rfl, hrest⟩ := List.cons.inj hsplit
    change [y] = b at hrest
    rw [← hrest] at hb
    have hy := List.mem_singleton.mp (hb.subset (List.mem_singleton_self y))
    exact Or.inr ⟨List.singleton_sublist.mp ha, hy⟩
  · obtain ⟨rfl, hrest⟩ := List.cons.inj hsplit
    obtain ⟨rfl, hend⟩ := List.cons.inj hrest
    change [] = a'' ++ b at hend
    have hnil : a'' = [] := (List.append_eq_nil_iff.mp hend.symm).1
    subst hnil
    exact Or.inl ha

theorem before_total {l : List μ} {x y : μ} (hx : x ∈ l) (hy : y ∈ l) (hne : x ≠ y) : Before l x y ∨ Before l y x := by
  obtain ⟨a, b, rfl⟩ := List.append_of_mem hx
  rcases List.mem_append.mp hy with hy | hy
  · right
    exact (List.singleton_sublist.mpr hy).append (List.singleton_sublist.mpr List.mem_cons_self)
  · left
    rcases List.mem_cons.mp hy with rfl | hy
    · exact absurd rfl hne
    · exact ((List.singleton_sublist.mpr hy).cons_cons x).trans (List.sublist_append_right a _)

theorem Before.asymm {l : List μ} (hl : l.Nodup) {x y : μ} (h : Before l x y) : ¬ Before l y x := by
  induction l using List.reverseRecOn with
  | nil => exact absurd h.mem.1 List.not_mem_nil
  | append_singleton l z ih =>
    rw [List.nodup_append] at hl
    have hz : z ∉ l := fun hmem => hl.2.2 z hmem z (List.mem_singleton_self z) rfl
    intro h'
    rcases h.of_concat with hxy | ⟨hx, rfl⟩
    · rcases h'.of_concat with hyx | ⟨-, rfl⟩
      · exact ih hl.1 hxy hyx
      · exact hz hxy.mem.1
    · rcases h'.of_concat with hyx | ⟨hy, -⟩
      · exact hz hyx.mem.1
      · exact hz hy

/-! ### The system -/

/-- Where the messages are, and what has happened to them. -/
structure State (μ : Type*) where
  /-- All messages, in the order in which they came. -/
  handed : List μ
  /-- What is being sent without having been in the queue. -/
  direct : List μ
  queue : List μ
  /-- The first message of the queue is being sent. -/
  sending : Bool
  acked : List μ
  lost : List μ
  sent : List μ
  /-- What has been sent in vain, as far as the answers say. -/
  failed : List μ
  stored : List μ
  /-- What was stored after it had been given up. -/
  late : List μ

def State.initial : State μ := ⟨[], [], [], false, [], [], [], [], [], []⟩

variable (channel : μ → κ)

/-- A message may come: it is new, and no message of its channel is being sent directly. -/
structure Comes (s : State μ) (m : μ) : Prop where
  new : m ∉ s.handed
  alone : ∀ x ∈ s.direct, channel x ≠ channel m

inductive Step (s : State μ) : State μ → Prop
  | direct (m : μ) (comes : Comes channel s m) (empty : s.queue = []) :
    Step s { s with handed := s.handed ++ [m], direct := s.direct ++ [m], sent := s.sent ++ [m] }
  | queue (m : μ) (comes : Comes channel s m) :
    Step s { s with handed := s.handed ++ [m], queue := s.queue ++ [m] }
  | refuse (m : μ) (comes : Comes channel s m) :
    Step s { s with handed := s.handed ++ [m], lost := s.lost ++ [m] }
  | land (m : μ) (sent : m ∈ s.sent) (new : m ∉ s.stored) (kept : m ∉ s.lost) :
    Step s { s with stored := s.stored ++ [m] }
  | landLate (m : μ) (sent : m ∈ s.sent) (new : m ∉ s.stored) (lost : m ∈ s.lost) :
    Step s { s with stored := s.stored ++ [m], late := s.late ++ [m] }
  | ack (m : μ) (before after : List μ) (split : s.direct = before ++ m :: after) (stored : m ∈ s.stored) :
    Step s { s with direct := before ++ after, acked := s.acked ++ [m] }
  | requeue (m : μ) (before after : List μ) (split : s.direct = before ++ m :: after) :
    Step s { s with direct := before ++ after, queue := s.queue ++ [m], failed := s.failed ++ [m] }
  | abandon (m : μ) (before after : List μ) (split : s.direct = before ++ m :: after) :
    Step s { s with direct := before ++ after, lost := s.lost ++ [m], failed := s.failed ++ [m] }
  | send (m : μ) (rest : List μ) (split : s.queue = m :: rest) (idle : s.sending = false) :
    Step s { s with sending := true, sent := s.sent ++ [m] }
  | ackHead (m : μ) (rest : List μ) (split : s.queue = m :: rest) (busy : s.sending = true) (stored : m ∈ s.stored) :
    Step s { s with sending := false, queue := rest, acked := s.acked ++ [m] }
  | failHead (m : μ) (rest : List μ) (split : s.queue = m :: rest) (busy : s.sending = true) :
    Step s { s with sending := false, failed := s.failed ++ [m] }
  | loseHead (m : μ) (rest : List μ) (split : s.queue = m :: rest) (busy : s.sending = true) :
    Step s { s with sending := false, queue := rest, lost := s.lost ++ [m], failed := s.failed ++ [m] }

/-- What every run keeps. -/
structure Inv (s : State μ) : Prop where
  places : (s.direct ++ (s.acked ++ (s.queue ++ s.lost))).Perm s.handed
  nodup : s.handed.Nodup
  known : ∀ m ∈ s.sent, m ∈ s.handed
  stored : ∀ m ∈ s.stored, m ∈ s.sent
  once : s.stored.Nodup
  acked : ∀ m ∈ s.acked, m ∈ s.stored
  answered : ∀ m ∈ s.sent, m ∈ s.direct ∨ (s.sending = true ∧ s.queue.head? = some m) ∨ m ∈ s.acked ∨ m ∈ s.failed
  late : ∀ m ∈ s.late, m ∈ s.lost
  /-- An earlier message of a channel is not being sent directly. -/
  awaited : ∀ x y, Before s.handed x y → channel x = channel y → x ∉ s.direct
  /-- The messages of a channel wait in the order in which they came. -/
  queued : s.queue.Pairwise fun x y => channel x = channel y → Before s.handed x y
  /-- An earlier message of a channel has left when a later one is sent. -/
  left : ∀ x y, Before s.handed x y → channel x = channel y → y ∈ s.sent → x ∈ s.acked ∨ x ∈ s.lost
  order : s.stored.Pairwise fun x y => channel x = channel y → Before s.handed x y ∨ y ∈ s.late

theorem inv_initial : Inv channel (State.initial : State μ) := by
  refine ⟨List.Perm.refl _, List.nodup_nil, ?_, ?_, List.nodup_nil, ?_, ?_, ?_, ?_, List.Pairwise.nil, ?_, List.Pairwise.nil⟩
  all_goals simp [State.initial]

variable {channel} {s : State μ}

/-- Where a message is. -/
theorem Inv.place (h : Inv channel s) {m : μ} (hm : m ∈ s.handed) :
    m ∈ s.direct ∨ m ∈ s.acked ∨ m ∈ s.queue ∨ m ∈ s.lost := by
  have hmem := h.places.mem_iff.mpr hm
  simpa only [List.mem_append] using hmem

theorem Inv.direct_handed (h : Inv channel s) {m : μ} (hm : m ∈ s.direct) : m ∈ s.handed :=
  h.places.subset (List.mem_append_left _ hm)

theorem Inv.queue_handed (h : Inv channel s) {m : μ} (hm : m ∈ s.queue) : m ∈ s.handed :=
  h.places.subset (List.mem_append_right _ (List.mem_append_right _ (List.mem_append_left _ hm)))

theorem Inv.lost_handed (h : Inv channel s) {m : μ} (hm : m ∈ s.lost) : m ∈ s.handed :=
  h.places.subset (List.mem_append_right _ (List.mem_append_right _ (List.mem_append_right _ hm)))

/-- A message that is being sent directly waits nowhere. -/
theorem Inv.direct_not_queue (h : Inv channel s) {m : μ} (hm : m ∈ s.direct) : m ∉ s.queue := by
  intro hq
  have hnodup := h.places.nodup_iff.mpr h.nodup
  exact (List.nodup_append.mp hnodup).2.2 m hm m
    (List.mem_append_right _ (List.mem_append_left _ hq)) rfl

/-! ### The steps -/

/-- A new message comes after the others. -/
theorem Inv.awaited_concat (h : Inv channel s) {m : μ} (hcomes : Comes channel s m) :
    ∀ x y, Before (s.handed ++ [m]) x y → channel x = channel y → x ∉ s.direct := by
  intro x y hbefore hchannel hx
  rcases hbefore.of_concat with hbefore | ⟨-, rfl⟩
  · exact h.awaited x y hbefore hchannel hx
  · exact hcomes.alone x hx hchannel

theorem Inv.left_concat (h : Inv channel s) {m : μ} (hcomes : Comes channel s m) :
    ∀ x y, Before (s.handed ++ [m]) x y → channel x = channel y → y ∈ s.sent → x ∈ s.acked ∨ x ∈ s.lost := by
  intro x y hbefore hchannel hy
  rcases hbefore.of_concat with hbefore | ⟨-, rfl⟩
  · exact h.left x y hbefore hchannel hy
  · exact absurd (h.known y hy) hcomes.new

theorem Inv.nodup_concat (h : Inv channel s) {m : μ} (hcomes : Comes channel s m) : (s.handed ++ [m]).Nodup :=
  List.nodup_append.mpr ⟨h.nodup, List.nodup_singleton m, fun _ hx _ hy hxy =>
    hcomes.new (List.mem_singleton.mp hy ▸ hxy ▸ hx)⟩

theorem Inv.order_concat (h : Inv channel s) (m : μ) :
    s.stored.Pairwise fun x y => channel x = channel y → Before (s.handed ++ [m]) x y ∨ y ∈ s.late :=
  h.order.imp fun hxy hchannel => (hxy hchannel).imp_left fun hbefore => hbefore.append [m]

theorem Inv.step_direct (h : Inv channel s) {m : μ} (hcomes : Comes channel s m) (hempty : s.queue = []) :
    Inv channel { s with handed := s.handed ++ [m], direct := s.direct ++ [m], sent := s.sent ++ [m] } where
  places := by
    dsimp only
    have hmove : (s.direct ++ [m] ++ (s.acked ++ (s.queue ++ s.lost))).Perm
        (s.direct ++ (s.acked ++ (s.queue ++ s.lost)) ++ [m]) := by
      rw [List.append_assoc, List.append_assoc]
      exact List.perm_append_comm.append_left _
    exact hmove.trans (h.places.append_right [m])
  nodup := h.nodup_concat hcomes
  known := fun x hx => by
    rcases List.mem_append.mp hx with hx | hx
    · exact List.mem_append_left _ (h.known x hx)
    · exact List.mem_append_right _ hx
  stored := fun x hx => List.mem_append_left _ (h.stored x hx)
  once := h.once
  acked := h.acked
  answered := fun x hx => by
    rcases List.mem_append.mp hx with hx | hx
    · exact (h.answered x hx).imp_left (List.mem_append_left _)
    · exact Or.inl (List.mem_append_right _ hx)
  late := h.late
  awaited := by
    intro x y hbefore hchannel hx
    rcases List.mem_append.mp hx with hx | hx
    · exact h.awaited_concat hcomes x y hbefore hchannel hx
    · obtain rfl := List.mem_singleton.mp hx
      rcases hbefore.of_concat with hbefore | ⟨hmem, -⟩
      · exact hcomes.new hbefore.mem.1
      · exact hcomes.new hmem
  queued := by
    dsimp only
    rw [hempty]
    exact List.Pairwise.nil
  left := by
    intro x y hbefore hchannel hy
    rcases List.mem_append.mp hy with hy | hy
    · exact h.left_concat hcomes x y hbefore hchannel hy
    · obtain rfl := List.mem_singleton.mp hy
      have hx : x ∈ s.handed := by
        rcases hbefore.of_concat with hbefore | ⟨hmem, -⟩
        · exact hbefore.mem.1
        · exact hmem
      rcases h.place hx with hx | hx | hx | hx
      · exact absurd hchannel (hcomes.alone x hx)
      · exact Or.inl hx
      · rw [hempty] at hx
        exact absurd hx List.not_mem_nil
      · exact Or.inr hx
  order := h.order_concat m

theorem Inv.step_queue (h : Inv channel s) {m : μ} (hcomes : Comes channel s m) :
    Inv channel { s with handed := s.handed ++ [m], queue := s.queue ++ [m] } where
  places := by
    dsimp only
    have hmove : (s.queue ++ [m] ++ s.lost).Perm (s.queue ++ s.lost ++ [m]) := by
      rw [List.append_assoc, List.append_assoc]
      exact List.perm_append_comm.append_left _
    have hplaces := (hmove.append_left s.acked).append_left s.direct
    refine hplaces.trans ?_
    rw [← List.append_assoc s.acked, ← List.append_assoc s.direct]
    exact h.places.append_right [m]
  nodup := h.nodup_concat hcomes
  known := fun x hx => List.mem_append_left _ (h.known x hx)
  stored := h.stored
  once := h.once
  acked := h.acked
  answered := by
    intro x hx
    rcases h.answered x hx with hx | ⟨hbusy, hhead⟩ | hx
    · exact Or.inl hx
    · obtain ⟨rest, hrest⟩ := List.head?_eq_some_iff.mp hhead
      refine Or.inr (Or.inl ⟨hbusy, ?_⟩)
      dsimp only
      rw [hrest]
      rfl
    · exact Or.inr (Or.inr hx)
  late := h.late
  awaited := h.awaited_concat hcomes
  queued := by
    refine List.pairwise_append.mpr ⟨?_, List.pairwise_singleton _ _, fun x hx y hy _ => ?_⟩
    · exact h.queued.imp fun hxy hchannel => (hxy hchannel).append [m]
    · obtain rfl := List.mem_singleton.mp hy
      exact before_concat (h.queue_handed hx) y
  left := h.left_concat hcomes
  order := h.order_concat m

theorem Inv.step_refuse (h : Inv channel s) {m : μ} (hcomes : Comes channel s m) :
    Inv channel { s with handed := s.handed ++ [m], lost := s.lost ++ [m] } where
  places := by
    dsimp only
    rw [← List.append_assoc s.queue, ← List.append_assoc s.acked, ← List.append_assoc s.direct]
    exact h.places.append_right [m]
  nodup := h.nodup_concat hcomes
  known := fun x hx => List.mem_append_left _ (h.known x hx)
  stored := h.stored
  once := h.once
  acked := h.acked
  answered := h.answered
  late := fun x hx => List.mem_append_left _ (h.late x hx)
  awaited := h.awaited_concat hcomes
  queued := h.queued.imp fun hxy hchannel => (hxy hchannel).append [m]
  left := fun x y hbefore hchannel hy =>
    (h.left_concat hcomes x y hbefore hchannel hy).imp_right (List.mem_append_left _)
  order := h.order_concat m

/-- A message that is stored comes after those of its channel that are stored, or had been given up. -/
theorem Inv.lands_after (h : Inv channel s) {m : μ} (hsent : m ∈ s.sent) (hnew : m ∉ s.stored) :
    ∀ x ∈ s.stored, channel x = channel m → Before s.handed x m ∨ m ∈ s.lost := by
  intro x hx hchannel
  have hxs := h.stored x hx
  have hne : x ≠ m := fun heq => hnew (heq ▸ hx)
  rcases before_total (h.known x hxs) (h.known m hsent) hne with hbefore | hbefore
  · exact Or.inl hbefore
  · rcases h.left m x hbefore hchannel.symm hxs with hacked | hlost
    · exact absurd (h.acked m hacked) hnew
    · exact Or.inr hlost

theorem Inv.step_land (h : Inv channel s) {m : μ} (hsent : m ∈ s.sent) (hnew : m ∉ s.stored) (hkept : m ∉ s.lost) :
    Inv channel { s with stored := s.stored ++ [m] } :=
  { h with
    stored := fun x hx => by
      rcases List.mem_append.mp hx with hx | hx
      · exact h.stored x hx
      · exact List.mem_singleton.mp hx ▸ hsent
    once := List.nodup_append.mpr ⟨h.once, List.nodup_singleton m, fun _ hx _ hy hxy =>
      hnew (List.mem_singleton.mp hy ▸ hxy ▸ hx)⟩
    acked := fun x hx => List.mem_append_left _ (h.acked x hx)
    order := by
      refine List.pairwise_append.mpr ⟨h.order, List.pairwise_singleton _ _, fun x hx y hy hchannel => ?_⟩
      obtain rfl := List.mem_singleton.mp hy
      exact Or.inl ((h.lands_after hsent hnew x hx hchannel).resolve_right hkept) }

theorem Inv.step_landLate (h : Inv channel s) {m : μ} (hsent : m ∈ s.sent) (hnew : m ∉ s.stored) (hlost : m ∈ s.lost) :
    Inv channel { s with stored := s.stored ++ [m], late := s.late ++ [m] } :=
  { h with
    stored := fun x hx => by
      rcases List.mem_append.mp hx with hx | hx
      · exact h.stored x hx
      · exact List.mem_singleton.mp hx ▸ hsent
    once := List.nodup_append.mpr ⟨h.once, List.nodup_singleton m, fun _ hx _ hy hxy =>
      hnew (List.mem_singleton.mp hy ▸ hxy ▸ hx)⟩
    acked := fun x hx => List.mem_append_left _ (h.acked x hx)
    late := fun x hx => by
      rcases List.mem_append.mp hx with hx | hx
      · exact h.late x hx
      · exact List.mem_singleton.mp hx ▸ hlost
    order := by
      refine List.pairwise_append.mpr ⟨?_, List.pairwise_singleton _ _, fun x _ y hy _ => ?_⟩
      · exact h.order.imp fun hxy hchannel => (hxy hchannel).imp_right (List.mem_append_left _)
      · exact Or.inr (List.mem_append_right _ hy) }

/-- A message goes from one place to another. -/
theorem perm_move {before after r r' : List μ} {m : μ} (h : r'.Perm (m :: r)) :
    ((before ++ after) ++ r').Perm ((before ++ m :: after) ++ r) :=
  calc ((before ++ after) ++ r').Perm ((before ++ after) ++ m :: r) := h.append_left _
    _ |>.Perm (m :: ((before ++ after) ++ r)) := List.perm_middle
    _ |>.Perm ((before ++ m :: after) ++ r) := List.perm_middle.symm.append_right r

theorem mem_split {before after : List μ} {m x : μ} (h : x ∈ before ++ m :: after) : x ∈ before ++ after ∨ x = m := by
  simp only [List.mem_append, List.mem_cons] at h ⊢
  tauto

theorem mem_of_split {before after : List μ} {m x : μ} (h : x ∈ before ++ after) : x ∈ before ++ m :: after := by
  simp only [List.mem_append, List.mem_cons] at h ⊢
  tauto

theorem Inv.step_ack (h : Inv channel s) {m : μ} {before after : List μ} (hsplit : s.direct = before ++ m :: after)
    (hstored : m ∈ s.stored) : Inv channel { s with direct := before ++ after, acked := s.acked ++ [m] } :=
  { h with
    places := by
      have hplaces := h.places
      rw [hsplit] at hplaces
      refine (perm_move ?_).trans hplaces
      rw [List.append_assoc]
      exact List.perm_middle
    acked := fun x hx => by
      rcases List.mem_append.mp hx with hx | hx
      · exact h.acked x hx
      · exact List.mem_singleton.mp hx ▸ hstored
    answered := by
      intro x hx
      rcases h.answered x hx with hx | hx | hx | hx
      · rw [hsplit] at hx
        rcases mem_split hx with hx | rfl
        · exact Or.inl hx
        · exact Or.inr (Or.inr (Or.inl (List.mem_append_right _ (List.mem_singleton_self x))))
      · exact Or.inr (Or.inl hx)
      · exact Or.inr (Or.inr (Or.inl (List.mem_append_left _ hx)))
      · exact Or.inr (Or.inr (Or.inr hx))
    awaited := fun x y hbefore hchannel hx => h.awaited x y hbefore hchannel (hsplit ▸ mem_of_split hx)
    left := fun x y hbefore hchannel hy => (h.left x y hbefore hchannel hy).imp_left (List.mem_append_left _) }

/-- What an answer leaves to be answered, when the message that failed is noted. -/
theorem Inv.answered_failed (h : Inv channel s) {m : μ} {before after : List μ} (hsplit : s.direct = before ++ m :: after) :
    ∀ x ∈ s.sent, x ∈ before ++ after ∨ (s.sending = true ∧ s.queue.head? = some x) ∨ x ∈ s.acked ∨
      x ∈ s.failed ++ [m] := by
  intro x hx
  rcases h.answered x hx with hx | hx | hx | hx
  · rw [hsplit] at hx
    rcases mem_split hx with hx | rfl
    · exact Or.inl hx
    · exact Or.inr (Or.inr (Or.inr (List.mem_append_right _ (List.mem_singleton_self x))))
  · exact Or.inr (Or.inl hx)
  · exact Or.inr (Or.inr (Or.inl hx))
  · exact Or.inr (Or.inr (Or.inr (List.mem_append_left _ hx)))

theorem Inv.step_requeue (h : Inv channel s) {m : μ} {before after : List μ} (hsplit : s.direct = before ++ m :: after) :
    Inv channel { s with direct := before ++ after, queue := s.queue ++ [m], failed := s.failed ++ [m] } :=
  { h with
    places := by
      have hplaces := h.places
      rw [hsplit] at hplaces
      refine (perm_move ?_).trans hplaces
      rw [List.append_assoc]
      have hmiddle : (s.queue ++ ([m] ++ s.lost)).Perm (m :: (s.queue ++ s.lost)) := List.perm_middle
      exact (hmiddle.append_left s.acked).trans List.perm_middle
    answered := by
      intro x hx
      rcases h.answered_failed hsplit x hx with hx | ⟨hbusy, hhead⟩ | hx
      · exact Or.inl hx
      · obtain ⟨rest, hrest⟩ := List.head?_eq_some_iff.mp hhead
        refine Or.inr (Or.inl ⟨hbusy, ?_⟩)
        dsimp only
        rw [hrest]
        rfl
      · exact Or.inr (Or.inr hx)
    awaited := fun x y hbefore hchannel hx => h.awaited x y hbefore hchannel (hsplit ▸ mem_of_split hx)
    queued := by
      have hm : m ∈ s.direct := hsplit ▸ List.mem_append_right _ List.mem_cons_self
      refine List.pairwise_append.mpr ⟨h.queued, List.pairwise_singleton _ _, fun x hx y hy hchannel => ?_⟩
      obtain rfl := List.mem_singleton.mp hy
      have hne : x ≠ y := fun heq => h.direct_not_queue hm (heq ▸ hx)
      rcases before_total (h.queue_handed hx) (h.direct_handed hm) hne with hbefore | hbefore
      · exact hbefore
      · exact absurd hm (h.awaited y x hbefore hchannel.symm) }

theorem Inv.step_abandon (h : Inv channel s) {m : μ} {before after : List μ} (hsplit : s.direct = before ++ m :: after) :
    Inv channel { s with direct := before ++ after, lost := s.lost ++ [m], failed := s.failed ++ [m] } :=
  { h with
    places := by
      have hplaces := h.places
      rw [hsplit] at hplaces
      refine (perm_move ?_).trans hplaces
      rw [← List.append_assoc s.queue, ← List.append_assoc s.acked]
      exact List.perm_append_singleton m _
    answered := h.answered_failed hsplit
    late := fun x hx => List.mem_append_left _ (h.late x hx)
    awaited := fun x y hbefore hchannel hx => h.awaited x y hbefore hchannel (hsplit ▸ mem_of_split hx)
    left := fun x y hbefore hchannel hy => (h.left x y hbefore hchannel hy).imp_right (List.mem_append_left _) }

theorem Inv.step_send (h : Inv channel s) {m : μ} {rest : List μ} (hsplit : s.queue = m :: rest)
    (hidle : s.sending = false) : Inv channel { s with sending := true, sent := s.sent ++ [m] } :=
  have hm : m ∈ s.queue := hsplit ▸ List.mem_cons_self
  { h with
    known := fun x hx => by
      rcases List.mem_append.mp hx with hx | hx
      · exact h.known x hx
      · obtain rfl := List.mem_singleton.mp hx
        exact h.queue_handed hm
    stored := fun x hx => List.mem_append_left _ (h.stored x hx)
    answered := by
      intro x hx
      rcases List.mem_append.mp hx with hx | hx
      · rcases h.answered x hx with hx | ⟨hbusy, -⟩ | hx
        · exact Or.inl hx
        · rw [hidle] at hbusy
          cases hbusy
        · exact Or.inr (Or.inr hx)
      · obtain rfl := List.mem_singleton.mp hx
        refine Or.inr (Or.inl ⟨rfl, ?_⟩)
        dsimp only
        rw [hsplit]
        rfl
    left := by
      intro x y hbefore hchannel hy
      rcases List.mem_append.mp hy with hy | hy
      · exact h.left x y hbefore hchannel hy
      · obtain rfl := List.mem_singleton.mp hy
        rcases h.place hbefore.mem.1 with hx | hx | hx | hx
        · exact absurd hx (h.awaited x y hbefore hchannel)
        · exact Or.inl hx
        · have hqueued := h.queued
          rw [hsplit] at hx hqueued
          rcases List.mem_cons.mp hx with rfl | hx
          · exact absurd hbefore (hbefore.asymm h.nodup)
          · have hbefore' := (List.pairwise_cons.mp hqueued).1 x hx hchannel.symm
            exact absurd hbefore' (hbefore.asymm h.nodup)
        · exact Or.inr hx }

theorem Inv.queued_rest (h : Inv channel s) {m : μ} {rest : List μ} (hsplit : s.queue = m :: rest) :
    rest.Pairwise fun x y => channel x = channel y → Before s.handed x y := by
  have hqueued := h.queued
  rw [hsplit] at hqueued
  exact (List.pairwise_cons.mp hqueued).2

/-- The answer for the head of the queue. -/
theorem Inv.answered_head (h : Inv channel s) {m : μ} {rest : List μ} (hsplit : s.queue = m :: rest) :
    ∀ x ∈ s.sent, x = m ∨ x ∈ s.direct ∨ x ∈ s.acked ∨ x ∈ s.failed := by
  intro x hx
  rcases h.answered x hx with hx | ⟨-, hhead⟩ | hx
  · exact Or.inr (Or.inl hx)
  · rw [hsplit] at hhead
    exact Or.inl (Option.some.inj hhead).symm
  · exact Or.inr (Or.inr hx)

theorem Inv.step_ackHead (h : Inv channel s) {m : μ} {rest : List μ} (hsplit : s.queue = m :: rest)
    (hstored : m ∈ s.stored) :
    Inv channel { s with sending := false, queue := rest, acked := s.acked ++ [m] } :=
  { h with
    places := by
      have hplaces := h.places
      rw [hsplit] at hplaces
      dsimp only
      rw [List.append_assoc s.acked]
      exact hplaces
    acked := fun x hx => by
      rcases List.mem_append.mp hx with hx | hx
      · exact h.acked x hx
      · exact List.mem_singleton.mp hx ▸ hstored
    answered := by
      intro x hx
      rcases h.answered_head hsplit x hx with rfl | hx | hx | hx
      · exact Or.inr (Or.inr (Or.inl (List.mem_append_right _ (List.mem_singleton_self x))))
      · exact Or.inl hx
      · exact Or.inr (Or.inr (Or.inl (List.mem_append_left _ hx)))
      · exact Or.inr (Or.inr (Or.inr hx))
    queued := h.queued_rest hsplit
    left := fun x y hbefore hchannel hy => (h.left x y hbefore hchannel hy).imp_left (List.mem_append_left _) }

theorem Inv.step_failHead (h : Inv channel s) {m : μ} {rest : List μ} (hsplit : s.queue = m :: rest) :
    Inv channel { s with sending := false, failed := s.failed ++ [m] } :=
  { h with
    answered := by
      intro x hx
      rcases h.answered_head hsplit x hx with rfl | hx | hx | hx
      · exact Or.inr (Or.inr (Or.inr (List.mem_append_right _ (List.mem_singleton_self x))))
      · exact Or.inl hx
      · exact Or.inr (Or.inr (Or.inl hx))
      · exact Or.inr (Or.inr (Or.inr (List.mem_append_left _ hx))) }

theorem Inv.step_loseHead (h : Inv channel s) {m : μ} {rest : List μ} (hsplit : s.queue = m :: rest) :
    Inv channel { s with sending := false, queue := rest, lost := s.lost ++ [m], failed := s.failed ++ [m] } :=
  { h with
    places := by
      have hplaces := h.places
      rw [hsplit] at hplaces
      refine List.Perm.trans ?_ hplaces
      have hmove : (rest ++ (s.lost ++ [m])).Perm (m :: rest ++ s.lost) := by
        rw [← List.append_assoc]
        exact List.perm_append_singleton m _
      exact (hmove.append_left s.acked).append_left s.direct
    answered := by
      intro x hx
      rcases h.answered_head hsplit x hx with rfl | hx | hx | hx
      · exact Or.inr (Or.inr (Or.inr (List.mem_append_right _ (List.mem_singleton_self x))))
      · exact Or.inl hx
      · exact Or.inr (Or.inr (Or.inl hx))
      · exact Or.inr (Or.inr (Or.inr (List.mem_append_left _ hx)))
    late := fun x hx => List.mem_append_left _ (h.late x hx)
    queued := h.queued_rest hsplit
    left := fun x y hbefore hchannel hy => (h.left x y hbefore hchannel hy).imp_right (List.mem_append_left _) }

/-- **One step** keeps the invariant. -/
theorem inv_step {s' : State μ} (h : Inv channel s) (hstep : Step channel s s') : Inv channel s' := by
  cases hstep with
  | direct m comes empty => exact h.step_direct comes empty
  | queue m comes => exact h.step_queue comes
  | refuse m comes => exact h.step_refuse comes
  | land m sent new kept => exact h.step_land sent new kept
  | landLate m sent new lost => exact h.step_landLate sent new lost
  | ack m before after split stored => exact h.step_ack split stored
  | requeue m before after split => exact h.step_requeue split
  | abandon m before after split => exact h.step_abandon split
  | send m rest split idle => exact h.step_send split idle
  | ackHead m rest split busy stored => exact h.step_ackHead split stored
  | failHead m rest split busy => exact h.step_failHead split
  | loseHead m rest split busy => exact h.step_loseHead split

/-- **Some steps** keep it. -/
theorem inv_steps {s' : State μ} (h : Inv channel s) (hsteps : Relation.ReflTransGen (Step channel) s s') :
    Inv channel s' := by
  induction hsteps with
  | refl => exact h
  | tail _ hstep ih => exact inv_step ih hstep

end Norns.Lib.Delivery
