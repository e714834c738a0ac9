import Backpressure.Queue.Basic

/-!
# What the operations of a queue do

Each operation of a queue is read backwards here: from what it came to, to the
permit that was taken and to the queue that it left.

*Permits.*  `tryTake` and `resume` are the only ways to a permit; each has one
lemma per result.  No operation but `close` changes whether a stock is closed.

*Items.*  An item enters at the end with `push` and leaves at the front with
`takeFirst`, and the slot that it leaves behind goes back unless the queue is
sealed.  A poll that may wait takes what `tryPoll` takes.
-/

namespace Backpressure

namespace Permits

variable {p r : Permits} {t : Ticket}

/-- A permit is taken from an open stock with a free one; a permit that was granted to a waiting
task is not free. -/
theorem tryTake_eq_some :
    p.tryTake = some r ↔ p.closed = false ∧ 0 < p.free ∧ r = { p with free := p.free - 1 } := by
  simp only [tryTake]
  split
  · next hn =>
      simp only [Bool.or_eq_true, beq_iff_eq] at hn
      constructor
      · intro h
        cases h
      · rintro ⟨hc, hf, -⟩
        rcases hn with hn | hn
        · simp [hc] at hn
        · omega
  · next hn =>
      simp only [Bool.or_eq_true, beq_iff_eq, not_or, Bool.not_eq_true] at hn
      constructor
      · intro h
        cases h
        exact ⟨hn.1, by omega, rfl⟩
      · rintro ⟨-, -, rfl⟩
        rfl

theorem tryTake_eq_none : p.tryTake = none ↔ p.closed = true ∨ p.free = 0 := by
  simp only [tryTake]
  split <;> simp_all

@[simp] theorem closed_enroll : (p.enroll t).closed = p.closed := rfl

@[simp] theorem closed_leave : (p.leave t).closed = p.closed := by
  simp only [leave]
  split <;> rfl

/-- A task that waited is served with the permit that was granted to it. -/
theorem resume_eq_served (h : p.resume t = .served r) :
    p.closed = false ∧ t ∈ p.granted ∧ r = { p with granted := p.granted.erase t } := by
  simp only [resume] at h
  split at h
  · cases h
  · split at h
    · cases h
      simp_all
    · cases h

/-- Only a closed stock refuses a task that waited, and does so even if it was granted a permit. -/
theorem resume_eq_refused (h : p.resume t = .refused r) : p.closed = true ∧ r = p.leave t := by
  simp only [resume] at h
  split at h
  · cases h
    exact ⟨by assumption, rfl⟩
  · split at h <;> cases h

theorem resume_eq_pending (h : p.resume t = .pending) : p.closed = false ∧ t ∉ p.granted := by
  simp only [resume] at h
  split at h
  · cases h
  · split at h
    · cases h
    · simp_all

end Permits

namespace Queue

variable {α : Type} {q q' : Queue α} {a : α} {t : Ticket}

/-! ## Slots and items -/

/-- Slots that are given back leave the items alone. -/
@[simp] theorem items_freeSlots (n : Nat) : (q.freeSlots n).items = q.items := by
  simp only [freeSlots]
  split <;> rfl

@[simp] theorem capacity_freeSlots (n : Nat) : (q.freeSlots n).capacity = q.capacity := by
  simp only [freeSlots]
  split <;> rfl

/-- A sealed queue takes no slots back. -/
theorem slots_freeSlots (n : Nat) :
    (q.freeSlots n).slots = if q.slots.closed = true then q.slots else q.slots.release n := by
  simp only [freeSlots, isSealed]
  exact apply_ite slots _ _ _

@[simp] theorem ready_freeSlots (n : Nat) : (q.freeSlots n).ready = q.ready := by
  simp only [freeSlots]
  split <;> rfl

@[simp] theorem isSealed_freeSlots (n : Nat) : (q.freeSlots n).isSealed = q.isSealed := by
  simp only [freeSlots]
  split <;> rfl

/-- The queue after its first item has left, its permit being taken. -/
def without (q : Queue α) (ready : Permits) (rest : List α) : Queue α :=
  { q with ready, items := rest }.freeSlots 1

@[simp] theorem items_without (r : Permits) (rest : List α) : (q.without r rest).items = rest := by
  simp [without]

/-- The item that leaves makes one slot free, unless the queue is sealed. -/
theorem slots_without (r : Permits) (rest : List α) :
    (q.without r rest).slots = if q.slots.closed = true then q.slots else q.slots.release 1 :=
  slots_freeSlots 1

@[simp] theorem ready_without (r : Permits) (rest : List α) : (q.without r rest).ready = r := by
  simp [without]

@[simp] theorem isSealed_without (r : Permits) (rest : List α) :
    (q.without r rest).isSealed = q.isSealed := by
  simp [without, isSealed_freeSlots]
  rfl

/-- An item is taken from the front, and is the oldest. -/
theorem takeFirst_eq_item {r : Permits} (h : ({ q with ready := r } : Queue α).takeFirst = (.item a, q')) :
    ∃ rest, q.items = a :: rest ∧ q' = q.without r rest := by
  simp only [takeFirst] at h
  split at h
  · cases h
  · next b rest hb =>
      cases h
      exact ⟨rest, hb, rfl⟩

/-- A permit without an item is lost: it does not go back. -/
theorem takeFirst_eq_nothing {r : Permits}
    (h : ({ q with ready := r } : Queue α).takeFirst = (.nothing, q')) :
    q.items = [] ∧ q' = { q with ready := r } := by
  simp only [takeFirst] at h
  split at h
  · next hb =>
      cases h
      exact ⟨hb, rfl⟩
  · cases h

theorem takeFirst_ne_waiting : q.takeFirst ≠ (.waiting, q') := by
  simp only [takeFirst]
  split <;> simp

/-! ## Polls -/

/-- A poll that does not wait takes the oldest item with a free permit. -/
theorem tryPoll_eq_some (h : q.tryPoll = (some a, q')) :
    ∃ r rest, q.ready.tryTake = some r ∧ q.items = a :: rest ∧ q' = q.without r rest := by
  simp only [tryPoll] at h
  split at h
  · next r hr =>
      split at h
      · next b q₁ ht =>
          cases h
          obtain ⟨rest, hi, hq⟩ := takeFirst_eq_item ht
          exact ⟨r, rest, hr, hi, hq⟩
      · cases h
  · cases h

/-- A poll that does not wait finds nothing if no permit is free, or if the permit that it took has
no item. -/
theorem tryPoll_eq_none (h : q.tryPoll = (none, q')) :
    (q.ready.tryTake = none ∧ q' = q) ∨
      ∃ r, q.ready.tryTake = some r ∧ q.items = [] ∧ q' = { q with ready := r } := by
  simp only [tryPoll] at h
  split at h
  · next r hr =>
      split at h
      · cases h
      · next o q₁ hne ht =>
          cases h
          cases o with
          | item b => exact absurd rfl (hne b)
          | nothing => exact .inr ⟨r, hr, takeFirst_eq_nothing ht⟩
          | waiting => exact absurd ht takeFirst_ne_waiting
  · next hr =>
      cases h
      exact .inl ⟨hr, rfl⟩

/-- What was polled stood at the front. -/
theorem items_of_tryPoll_some (h : q.tryPoll = (some a, q')) : q.items = a :: q'.items := by
  obtain ⟨r, rest, -, hi, rfl⟩ := tryPoll_eq_some h
  rw [hi, items_without]

theorem items_of_tryPoll_none (h : q.tryPoll = (none, q')) : q'.items = q.items := by
  rcases tryPoll_eq_none h with ⟨-, rfl⟩ | ⟨r, -, -, rfl⟩ <;> rfl

/-- A poll that may wait takes at once what a poll takes that may not. -/
theorem poll_eq_item (h : q.poll t = (.item a, q')) : q.tryPoll = (some a, q') := by
  simp only [poll] at h
  simp only [tryPoll]
  split at h
  · rw [h]
  · split at h <;> cases h

theorem poll_eq_nothing (h : q.poll t = (.nothing, q')) : q.tryPoll = (none, q') := by
  simp only [poll] at h
  simp only [tryPoll]
  split at h
  · rw [h]
  · split at h
    · cases h
      rfl
    · cases h

/-- A poll waits only if the queue is open and no permit is free. -/
theorem poll_eq_waiting (h : q.poll t = (.waiting, q')) :
    q.ready.closed = false ∧ q.ready.free = 0 ∧ q' = { q with ready := q.ready.enroll t } := by
  simp only [poll] at h
  split at h
  · exact absurd h takeFirst_ne_waiting
  · next hn =>
      split at h
      · cases h
      · next hc =>
          cases h
          rw [Permits.tryTake_eq_none] at hn
          simp_all [isClosed]

/-- A poll that waited takes the oldest item with the permit that was granted to it. -/
theorem resumePoll_eq_item (h : q.resumePoll t = (.item a, q')) :
    ∃ rest, q.ready.closed = false ∧ t ∈ q.ready.granted ∧ q.items = a :: rest ∧
      q' = q.without { q.ready with granted := q.ready.granted.erase t } rest := by
  simp only [resumePoll] at h
  split at h
  · cases h
  · next r hr =>
      obtain ⟨hc, ht, rfl⟩ := Permits.resume_eq_served hr
      obtain ⟨rest, hi, hq⟩ := takeFirst_eq_item h
      exact ⟨rest, hc, ht, hi, hq⟩
  · cases h

/-- A poll that waited comes back with nothing if its permit has no item, or if polls have ended. -/
theorem resumePoll_eq_nothing (h : q.resumePoll t = (.nothing, q')) :
    (q.ready.closed = false ∧ t ∈ q.ready.granted ∧ q.items = [] ∧
        q' = { q with ready := { q.ready with granted := q.ready.granted.erase t } }) ∨
      q.ready.closed = true ∧ q' = q.leavePoll t := by
  simp only [resumePoll] at h
  split at h
  · cases h
  · next r hr =>
      obtain ⟨hc, ht, rfl⟩ := Permits.resume_eq_served hr
      obtain ⟨hi, hq⟩ := takeFirst_eq_nothing h
      exact .inl ⟨hc, ht, hi, hq⟩
  · next r hr =>
      cases h
      obtain ⟨hc, rfl⟩ := Permits.resume_eq_refused hr
      exact .inr ⟨hc, rfl⟩

theorem resumePoll_eq_waiting (h : q.resumePoll t = (.waiting, q')) :
    q.ready.closed = false ∧ t ∉ q.ready.granted ∧ q' = q := by
  simp only [resumePoll] at h
  split at h
  · next hr =>
      cases h
      obtain ⟨hc, ht⟩ := Permits.resume_eq_pending hr
      exact ⟨hc, ht, rfl⟩
  · exact absurd h takeFirst_ne_waiting
  · cases h

/-! ## Draining -/

@[simp] theorem freeSlots_zero : q.freeSlots 0 = q := by
  simp only [freeSlots]
  split
  · rfl
  · simp [Permits.release]

/-- On a closed queue the loop of a drain takes the first items, and no permits. -/
theorem takeUpTo_of_closed (hc : q.ready.closed = true) (most : Nat) :
    q.takeUpTo most = (q.items.take most, { q with items := q.items.drop most }) := by
  cases most with
  | zero => rfl
  | succ most => simp only [takeUpTo, Permits.tryTake_eq_none.mpr (.inl hc), isClosed, hc, if_true]

/-- On an open queue the loop spends a permit for each item, and one more for an item that is not
there. -/
theorem takeUpTo_of_open (hc : q.ready.closed = false) (most : Nat) :
    q.takeUpTo most = (q.items.take (min most q.ready.free),
      { q with
        items := q.items.drop (min most q.ready.free)
        ready := { q.ready with
          free := q.ready.free - min (min most q.ready.free) (q.items.length + 1) } }) := by
  induction most generalizing q with
  | zero => simp [takeUpTo]
  | succ most ih =>
      rcases Nat.eq_zero_or_pos q.ready.free with hf | hf
      · have hnone : min (most + 1) q.ready.free = 0 := by omega
        have hopen : q.isClosed = false := hc
        simp only [takeUpTo, Permits.tryTake_eq_none.mpr (.inr hf), hopen, if_false,
          Bool.false_eq_true, hnone, Nat.zero_min, Nat.sub_zero, List.take_zero, List.drop_zero]
      · obtain ⟨free, hfree⟩ := Nat.exists_eq_succ_of_ne_zero (Nat.ne_of_gt hf)
        have htake : q.ready.tryTake = some { q.ready with free } :=
          Permits.tryTake_eq_some.mpr ⟨hc, hf, by rw [hfree, Nat.succ_sub_one]⟩
        cases hi : q.items with
        | nil => simp [takeUpTo, htake, hi, hfree]
        | cons a rest =>
            have hrest := ih (q := { q with items := rest, ready := { q.ready with free } }) hc
            simp only [takeUpTo, htake, hi, hrest, hfree, Nat.succ_min_succ, List.take_succ_cons,
              List.drop_succ_cons, List.length_cons, Nat.succ_sub_succ]

/-- At the end of a drain a slot goes back for each item, which is none for no item. -/
theorem drain_eq_freeSlots (most : Nat) :
    q.drain most =
      ((q.takeUpTo most).1, (q.takeUpTo most).2.freeSlots (q.takeUpTo most).1.length) := by
  simp only [drain]
  cases (q.takeUpTo most).1 with
  | nil => rw [List.isEmpty_nil, if_pos rfl, List.length_nil, freeSlots_zero]
  | cons a taken => rfl

/-- A drain takes the first items, as many as are not promised, or any on a closed queue. -/
theorem drain_eq (most : Nat) :
    ∃ n r, q.drain most = (q.items.take n,
        { q with items := q.items.drop n, ready := r }.freeSlots (q.items.take n).length) ∧
      (q.ready.closed = true ∧ n = most ∧ r = q.ready ∨
        q.ready.closed = false ∧ n = min most q.ready.free ∧
          r = { q.ready with free := q.ready.free - min n (q.items.length + 1) }) := by
  rw [drain_eq_freeSlots]
  cases hc : q.ready.closed with
  | true => exact ⟨most, q.ready, by rw [takeUpTo_of_closed hc], .inl ⟨rfl, rfl, rfl⟩⟩
  | false => exact ⟨_, _, by rw [takeUpTo_of_open hc], .inr ⟨rfl, rfl, rfl⟩⟩

/-! ## Offers -/

/-- An item is accepted with a free slot. -/
theorem tryOffer_eq_true (h : q.tryOffer a = (true, q')) :
    ∃ s, q.slots.tryTake = some s ∧ q' = { q with slots := s }.push a := by
  simp only [tryOffer] at h
  split at h
  · next s hs =>
      cases h
      exact ⟨s, hs, rfl⟩
  · cases h

theorem tryOffer_eq_false (h : q.tryOffer a = (false, q')) : q' = q := by
  simp only [tryOffer] at h
  split at h <;> cases h
  rfl

/-- An offer that may wait and is accepted at once is an offer that may not wait. -/
theorem offer_eq_accepted (h : q.offer t a = (.accepted, q')) : q.tryOffer a = (true, q') := by
  simp only [offer] at h
  simp only [tryOffer]
  split at h
  · cases h
    rfl
  · split at h <;> cases h

theorem offer_eq_returned (h : q.offer t a = (.returned, q')) : q' = q := by
  simp only [offer] at h
  split at h
  · cases h
  · split at h <;> cases h
    rfl

/-- An offer that waits only stands in line. -/
theorem offer_eq_waiting (h : q.offer t a = (.waiting, q')) :
    q' = { q with slots := q.slots.enroll t } := by
  simp only [offer] at h
  split at h
  · cases h
  · split at h <;> cases h
    rfl

/-- An offer that waited enters with the slot that was granted to it. -/
theorem resumeOffer_eq_accepted (h : q.resumeOffer t a = (.accepted, q')) :
    q.slots.closed = false ∧ t ∈ q.slots.granted ∧
      q' = { q with slots := { q.slots with granted := q.slots.granted.erase t } }.push a := by
  simp only [resumeOffer] at h
  split at h
  · cases h
  · next s hs =>
      cases h
      obtain ⟨hc, ht, rfl⟩ := Permits.resume_eq_served hs
      exact ⟨hc, ht, rfl⟩
  · cases h

/-- An offer that waited is turned back only once offers have ended. -/
theorem resumeOffer_eq_returned (h : q.resumeOffer t a = (.returned, q')) :
    q.slots.closed = true ∧ q' = q.leaveOffer t := by
  simp only [resumeOffer] at h
  split at h
  · cases h
  · cases h
  · next s hs =>
      cases h
      obtain ⟨hc, rfl⟩ := Permits.resume_eq_refused hs
      exact ⟨hc, rfl⟩

theorem resumeOffer_eq_waiting (h : q.resumeOffer t a = (.waiting, q')) : q' = q := by
  simp only [resumeOffer] at h
  split at h <;> cases h
  rfl

end Queue

end Backpressure
