import Backpressure.Proofs.Queue.Effects

/-!
# Permits in stock

A permit that nobody has in hand is free or granted.  Both together are the *stock*:
it shrinks when a permit is taken or collected, grows when one is given back, and does
not change when a task begins or gives up its wait.

*Asking.*  A ticket asks for a permit while it waits or was granted one.

*Backing.*  A queue that is not closed has in stock a permit for each of its items.
-/

namespace Backpressure

namespace Permits

/-- How often a ticket waits or was granted a permit. -/
def asks (p : Permits) (t : Ticket) : Nat := (p.waiting ++ p.granted).count t

/-- The permits that nobody has in hand. -/
def stock (p : Permits) : Nat := p.free + p.granted.length

variable {p r : Permits} {t u : Ticket}

/-- Who is granted a permit that was given back still asks for one. -/
@[simp] theorem asks_release (n : Nat) : (p.release n).asks u = p.asks u := by
  have htake : (p.waiting.take n).count u + (p.waiting.drop n).count u = p.waiting.count u := by
    rw [← List.count_append, List.take_append_drop]
  simp only [asks, release, List.count_append]
  omega

@[simp] theorem asks_enroll : (p.enroll t).asks u = p.asks u + [t].count u := by
  simp only [asks, enroll, List.count_append]
  omega

/-- A ticket that was granted a permit and collects it asks no more. -/
theorem asks_collect (ht : t ∈ p.granted) :
    ({ p with granted := p.granted.erase t } : Permits).asks u = p.asks u - [t].count u := by
  have hpos := List.count_pos_iff.mpr ht
  simp only [asks, List.count_append, List.count_erase, List.count_singleton]
  split
  · next htu =>
      rw [beq_iff_eq] at htu
      subst htu
      omega
  · omega

/-- Who gives up asks no more, whether it was still waiting or had been granted a permit. -/
@[simp] theorem asks_leave : (p.leave t).asks u = p.asks u - [t].count u := by
  simp only [leave]
  split
  · next ht => rw [asks_release, asks_collect (List.contains_iff_mem.mp ht)]
  · next ht =>
      have hnone := List.count_eq_zero.mpr fun h => ht (List.contains_iff_mem.mpr h)
      simp only [asks, List.count_append, List.count_erase, List.count_singleton]
      split
      · next htu =>
          rw [beq_iff_eq] at htu
          subst htu
          omega
      · omega

theorem asks_close_le : p.close.asks u ≤ p.asks u := by
  simp only [asks, close, List.count_append, List.count_nil]
  omega

/-- Permits that are given back are in stock again, free or granted. -/
@[simp] theorem stock_release (n : Nat) : (p.release n).stock = p.stock + n := by
  simp only [stock, release, List.length_append, List.length_take]
  omega

theorem stock_collect (ht : t ∈ p.granted) :
    p.stock = ({ p with granted := p.granted.erase t } : Permits).stock + 1 := by
  have hpos := List.length_pos_of_mem ht
  simp only [stock, List.length_erase_of_mem ht]
  omega

/-- Who gives up passes its permit on or leaves it free. -/
@[simp] theorem stock_leave : (p.leave t).stock = p.stock := by
  simp only [leave]
  split
  · next ht => rw [stock_release, ← stock_collect (List.contains_iff_mem.mp ht)]
  · rfl

theorem free_leave_le : (p.leave t).free ≤ p.free + 1 := by
  simp only [leave]
  split
  · simp only [release]
    omega
  · exact Nat.le_succ _

/-- A permit in hand is out of stock. -/
theorem stock_of_tryTake (h : p.tryTake = some r) : p.stock = r.stock + 1 := by
  obtain ⟨-, hfree, rfl⟩ := tryTake_eq_some.mp h
  simp only [stock]
  omega

theorem asks_of_tryTake (h : p.tryTake = some r) : r.asks u = p.asks u := by
  obtain ⟨-, -, rfl⟩ := tryTake_eq_some.mp h
  rfl

theorem closed_of_tryTake (h : p.tryTake = some r) : r.closed = p.closed := by
  obtain ⟨-, -, rfl⟩ := tryTake_eq_some.mp h
  rfl

theorem free_of_tryTake (h : p.tryTake = some r) : r.free ≤ p.free := by
  obtain ⟨-, -, rfl⟩ := tryTake_eq_some.mp h
  exact Nat.sub_le _ _

end Permits

namespace Queue

variable {α : Type} {q q' : Queue α} {r : Permits} {a : α} {rest : List α}

/-- A queue that is not closed has a permit for each item. -/
def Backed (q : Queue α) : Prop := q.ready.closed = false → q.items.length = q.ready.stock

/-- An item leaves with its permit. -/
theorem Backed.without (hb : q.Backed) (hi : q.items = a :: rest) (hc : q.ready.closed = false)
    (hs : q.ready.stock = r.stock + 1) : (q.without r rest).Backed := by
  intro _
  have hlength := hb hc
  rw [hi, List.length_cons, hs] at hlength
  rw [items_without, ready_without]
  exact Nat.succ.inj hlength

/-- At a backed queue a poll that takes a permit finds an item for it. -/
theorem tryPoll_backed {item : Option α} (hq : q.tryPoll = (item, q')) (hb : q.Backed) :
    q'.Backed ∧ (item = none → q' = q ∧ q.ready.tryTake = none) := by
  cases item with
  | some a =>
      obtain ⟨r, rest, hr, hi, rfl⟩ := tryPoll_eq_some hq
      have hopen := (Permits.tryTake_eq_some.mp hr).1
      exact ⟨hb.without hi hopen (Permits.stock_of_tryTake hr), by intro h; cases h⟩
  | none =>
      rcases tryPoll_eq_none hq with ⟨hr, rfl⟩ | ⟨r, hr, hi, rfl⟩
      · exact ⟨hb, fun _ => ⟨rfl, hr⟩⟩
      · have hlength := hb (Permits.tryTake_eq_some.mp hr).1
        rw [hi, Permits.stock_of_tryTake hr] at hlength
        cases hlength

/-- Who asks while a permit is free gets the oldest item, whether it would wait or not. -/
theorem poll_of_free (hb : q.Backed) (hc : q.ready.closed = false) (hf : 0 < q.ready.free) :
    ∃ a q', q.items = a :: q'.items ∧ q'.ready = { q.ready with free := q.ready.free - 1 } ∧
      q.tryPoll = (some a, q') ∧ ∀ t, q.poll t = (.item a, q') := by
  have htake := Permits.tryTake_eq_some.mpr ⟨hc, hf, rfl⟩
  cases hi : q.items with
  | nil =>
      have hlength := hb hc
      rw [hi, Permits.stock, List.length_nil] at hlength
      omega
  | cons a rest =>
      let ready := { q.ready with free := q.ready.free - 1 }
      refine ⟨a, q.without ready rest, ?_, ready_without _ _, ?_, fun t => ?_⟩
      · rw [items_without]
      · simp only [tryPoll, htake, takeFirst, hi]
        rfl
      · simp only [poll, htake, takeFirst, hi]
        rfl

/-- A drain of a backed queue spends a permit for each item, and none in vain. -/
theorem drain_backed (most : Nat) (hb : q.Backed) : (q.drain most).2.Backed := by
  obtain ⟨n, r, heq, hr⟩ := q.drain_eq most
  rw [heq]
  intro hc
  rw [ready_freeSlots] at hc
  rw [ready_freeSlots, items_freeSlots]
  rcases hr with ⟨hclosed, -, rfl⟩ | ⟨hopen, rfl, rfl⟩
  · exact absurd (hclosed.symm.trans hc) (by decide)
  · have hlength := hb hopen
    simp only [List.length_drop, Permits.stock] at hlength ⊢
    omega

theorem leavePoll_backed (t : Ticket) (hb : q.Backed) : (q.leavePoll t).Backed := by
  intro hc
  simp only [leavePoll, Permits.closed_leave] at hc
  simpa [leavePoll] using hb hc

end Queue

end Backpressure
