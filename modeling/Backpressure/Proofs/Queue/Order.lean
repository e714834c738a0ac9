import Backpressure.Proofs.Queue.Run
import Mathlib.Data.List.Forall2

/-!
# First come, first served

An item that is accepted goes to the end of a queue, and whatever leaves goes from its
front.  So at every moment of a run, what has left in the order in which it left, and
then what is there, is what was accepted in the order in which it was.

*One fate.*  Each item that a caller began to offer is accepted, or handed back, or
dropped with its offer, or still waits outside.  It has no two of these fates, so an
item that was handed back is in the queue at no moment.

`Run.conserved` says both of every run.
-/

namespace Backpressure.Traffic

variable {α : Type} {capacity : Nat} {t₀ t now : Instant} {h : List (Moment α)}
  {s s' : Traffic α} {a : Action α} {o : Outcome α}

/-! ## What leaves and what stays -/

theorem items_drain (q : Queue α) (most : Nat) :
    q.items = (q.drain most).1 ++ (q.drain most).2.items := by
  obtain ⟨n, r, hq, -⟩ := q.drain_eq most
  simp [hq]

/-- What was there and what comes in is what leaves and what is there then. -/
theorem Deed.flow (hd : Deed now s a o s') :
    ∃ parts, List.Forall₂ Removal.Fits (Moment.removals ⟨s, a, o⟩) parts ∧
      s.queue.items ++ Moment.accepted ⟨s, a, o⟩ = parts.flatten ++ s'.queue.items := by
  cases hd with
  | accept => exact ⟨[], .nil, rfl⟩
  | enter hv he =>
      refine ⟨[], .nil, ?_⟩
      simp [Moment.accepted, Moment.goods, hv, he, Errand.goods, Queue.push, remove]
  | refuse | lineUp | linger | turnBack | giveUp | dropOffer | dropPoll | sealUp | close =>
      exact ⟨[], .nil, List.append_nil _⟩
  | miss hq =>
      refine ⟨[], .nil, ?_⟩
      show s.queue.items ++ [] = _
      rw [List.append_nil]
      exact (Queue.items_of_tryPoll_none hq).symm
  | findNone hv he hc ht hi => exact ⟨[], .nil, List.append_nil _⟩
  | @take x wait q hq =>
      refine ⟨[[x]], .cons rfl .nil, ?_⟩
      show s.queue.items ++ [] = [x] ++ q.items
      rw [List.append_nil, Queue.items_of_tryPoll_some hq]
      rfl
  | @receive ticket v x rest hv he hc ht hi =>
      refine ⟨[[x]], .cons rfl .nil, ?_⟩
      simp [Moment.accepted, remove, hi]
  | @drain most =>
      refine ⟨[(s.queue.drain most).1], .cons rfl .nil, ?_⟩
      show s.queue.items ++ [] = [(s.queue.drain most).1].flatten ++ (s.queue.drain most).2.items
      rw [List.append_nil, List.flatten_singleton]
      exact items_drain s.queue most
  | clear =>
      refine ⟨[s.queue.items], .cons rfl .nil, ?_⟩
      simp [Moment.accepted]

/-- In the order in which items were accepted, those that have left come before those that
are there. -/
theorem Run.fifo (run : Run capacity t₀ h t s) :
    ∃ parts, List.Forall₂ Removal.Fits (h.flatMap Moment.removals) parts ∧
      parts.flatten ++ s.queue.items = h.flatMap Moment.accepted := by
  refine run.invariant (I := fun h s => ∃ parts,
    List.Forall₂ Removal.Fits (h.flatMap Moment.removals) parts ∧
      parts.flatten ++ s.queue.items = h.flatMap Moment.accepted) ⟨[], .nil, rfl⟩ ?_
  intro h now s a o s' ih hd
  obtain ⟨parts, hfit, horder⟩ := ih
  obtain ⟨more, hmore, hflow⟩ := hd.flow
  refine ⟨parts ++ more, ?_, ?_⟩
  · rw [List.flatMap_append, List.flatMap_singleton]
    exact List.rel_append hfit hmore
  · rw [List.flatMap_append, List.flatMap_singleton, ← horder, List.append_assoc, hflow,
      List.flatten_append, List.append_assoc]

/-! ## The fates of an item -/

/-- The items of the offers that wait. -/
def outside (s : Traffic α) : List α := s.visitors.flatMap (·.errand.goods)

theorem Ticketed.perm_outside {ticket : Ticket} {v : Visitor α} (ht : Ticketed s)
    (hv : s.visitor? ticket = some v) :
    s.outside.Perm (v.errand.goods ++ (s.remove ticket).outside) :=
  (ht.perm_remove hv).flatMap_right _

@[simp] theorem outside_remove_queue (q : Queue α) (ticket : Ticket) :
    ({ s with queue := q }.remove ticket).outside = (s.remove ticket).outside := rfl

theorem outside_admitVisitor (e : Errand α) (deadline : Instant) :
    (s.admitVisitor e deadline).outside = s.outside ++ e.goods := by
  simp [outside, admitVisitor]

/-- An item that begins to be offered or waits outside has one of four fates. -/
theorem Deed.fate (ht : Ticketed s) (hd : Deed now s a o s') :
    (Moment.offered ⟨s, a, o⟩ ++ s.outside).Perm
      (Moment.accepted ⟨s, a, o⟩ ++ (Moment.returned ⟨s, a, o⟩ ++
        (Moment.abandoned ⟨s, a, o⟩ ++ s'.outside))) := by
  cases hd with
  | accept | refuse | take | miss | drain | sealUp | close | clear => exact .refl _
  | lineUp | linger =>
      rw [outside_admitVisitor]
      exact List.perm_append_comm
  | enter hv he | turnBack hv he | dropOffer hv he | receive hv he | findNone hv he
  | giveUp hv he | dropPoll hv he =>
      have hperm := ht.perm_outside hv
      simp only [he, Errand.goods] at hperm
      simpa [Moment.offered, Moment.accepted, Moment.returned, Moment.abandoned, Moment.goods, hv,
        he, Errand.goods] using hperm

theorem Run.fates (run : Run capacity t₀ h t s) :
    (h.flatMap Moment.offered).Perm
      (h.flatMap Moment.accepted ++ (h.flatMap Moment.returned ++
        (h.flatMap Moment.abandoned ++ s.outside))) := by
  induction run with
  | here => exact .refl _
  | pass _ _ ih => exact ih
  | @act h t s s' a o run hs ih =>
      have hfate := (step_deed hs).fate run.ticketed
      -- the lists grow at their ends, not where a permutation could be cut, so items are counted
      classical
      refine List.perm_iff_count.mpr fun x => ?_
      have hbefore := ih.count_eq x
      have hstep := hfate.count_eq x
      simp only [List.flatMap_append, List.flatMap_singleton, List.count_append] at *
      omega

/-! ## Both along a run -/

/-- What is in the queue was accepted. -/
theorem Run.mem_accepted (run : Run capacity t₀ h t s) :
    (∀ x ∈ s.queue.items, x ∈ h.flatMap Moment.accepted) ∧
      ∀ m ∈ h, ∀ x ∈ m.found.queue.items, x ∈ h.flatMap Moment.accepted := by
  have hnow : ∀ {h t} {s : Traffic α}, Run capacity t₀ h t s →
      ∀ x ∈ s.queue.items, x ∈ h.flatMap Moment.accepted := by
    intro h t s run x hx
    obtain ⟨parts, -, horder⟩ := run.fifo
    rw [← horder]
    exact List.mem_append_right _ hx
  refine ⟨hnow run, ?_⟩
  -- what an action found was there at the end of a shorter run
  induction run with
  | here =>
      intro m hm
      cases hm
  | pass _ _ ih => exact ih
  | act run hs ih =>
      intro m hm x hx
      rw [List.flatMap_append]
      refine List.mem_append_left _ ?_
      rcases List.mem_append.mp hm with hold | hnew
      · exact ih m hold x hx
      · cases List.mem_singleton.mp hnew
        exact hnow run x hx

/-- What is known of the items of a queue after some moments. -/
structure Conserved (h : List (Moment α)) (s : Traffic α) : Prop where
  /-- What has left, in the order in which it left, and then what is there, is what was
  accepted, in the order in which it was. -/
  fifo : ∃ parts, List.Forall₂ Removal.Fits (h.flatMap Moment.removals) parts ∧
    parts.flatten ++ s.queue.items = h.flatMap Moment.accepted
  /-- Each item that was offered has one fate. -/
  fate : (h.flatMap Moment.offered).Perm
    (h.flatMap Moment.accepted ++ (h.flatMap Moment.returned ++
      (h.flatMap Moment.abandoned ++ s.outside)))
  /-- An item that was handed back or dropped is in the queue at no moment. -/
  apart : (h.flatMap Moment.offered).Nodup →
    ∀ x ∈ h.flatMap Moment.returned ++ h.flatMap Moment.abandoned,
      x ∉ s.queue.items ∧ ∀ m ∈ h, x ∉ m.found.queue.items
  /-- A poll that begins to wait, ends without an item or is dropped removes nothing. -/
  unmoved : ∀ {now a o s'}, s.step now a = some (o, s') →
    ((∃ t, o = .waits t) ∨ o = .replied .nothing ∨ ∃ t, a = .drop t) →
      s'.queue.items = s.queue.items

theorem Deed.unmoved (hd : Deed now s a o s')
    (ho : (∃ t, o = .waits t) ∨ o = .replied .nothing ∨ ∃ t, a = .drop t) :
    s'.queue.items = s.queue.items := by
  cases hd with
  | miss hq => exact Queue.items_of_tryPoll_none hq
  | refuse | lineUp | linger | findNone | giveUp | turnBack | dropOffer | dropPoll | sealUp
  | close => rfl
  | accept | enter | take | receive | drain | clear => simp at ho

/-- No item is lost, made twice or overtaken, and none that was handed back is in the queue. -/
theorem Run.conserved (run : Run capacity t₀ h t s) : Conserved h s where
  fifo := run.fifo
  fate := run.fates
  apart := by
    intro hnodup x hx
    have hnodup := run.fates.nodup_iff.mp hnodup
    have hnot : x ∉ h.flatMap Moment.accepted := by
      intro ha
      rw [← List.append_assoc (h.flatMap Moment.returned)] at hnodup
      exact (List.nodup_append.mp hnodup).2.2 x ha x (List.mem_append_left _ hx) rfl
    obtain ⟨hnow, hpast⟩ := run.mem_accepted
    exact ⟨fun hin => hnot (hnow x hin), fun m hm hin => hnot (hpast m hm x hin)⟩
  unmoved hs ho := (step_deed hs).unmoved ho

/-- A slot that was promised to an offer goes on to the next when the offer is dropped, and what
is left at the end is thrown away. -/
def passedOn : List (Instant × Action Nat) :=
  [(0, .offer 1 0), (0, .offer 2 9), (0, .offer 3 9), (1, .poll 0), (1, .drop 0), (1, .resume 1),
    (2, .drain 5), (2, .offer 4 0), (2, .offer 5 0), (3, .closeAndClear)]

theorem conserved_of_passedOn : ∃ h t s,
    play 0 { queue := .ofCapacity 1 } passedOn = some (h, t, s) ∧ Conserved h s ∧
      h.flatMap Moment.accepted = [1, 3, 4] ∧ h.flatMap Moment.returned = [5] ∧
      h.flatMap Moment.abandoned = [2] := by
  have hplay : (play 0 { queue := .ofCapacity 1 } passedOn).map (fun w =>
      (w.1.flatMap Moment.accepted, w.1.flatMap Moment.returned, w.1.flatMap Moment.abandoned)) =
        some ([1, 3, 4], [5], [2]) := by
    rfl
  obtain ⟨⟨h, t, s⟩, hp, hread⟩ := Option.map_eq_some_iff.mp hplay
  simp only [Prod.mk.injEq] at hread
  have run : Run 1 0 ([] ++ h) t s := Run.here.play hp
  exact ⟨h, t, s, hp, run.conserved, hread⟩

end Backpressure.Traffic
