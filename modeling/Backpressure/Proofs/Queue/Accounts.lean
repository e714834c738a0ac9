import Backpressure.Proofs.Queue.Run
import Backpressure.Proofs.Queue.Stock

/-!
# Every place and every item has its permit

*Places.*  While a queue is not sealed, its slots in stock and its items together make
up its capacity.  Sealing ends this, but from then on items only leave, so a queue never
holds more than its capacity.

*Items.*  While a queue is not closed, it has in stock a permit for each item.

*Nobody is stranded.*  The tickets that ask for a permit are those of the visitors, and
while somebody waits no permit is free.  In a settled state nobody holds a promise, so
a visitor waits for a slot only at a full queue, and for an item only at an empty one.
-/

namespace Backpressure

/-! ## Serving tickets -/

namespace Permits

variable {p r : Permits} {ts us : List Ticket} {t : Ticket}

/-- A stock serves these tickets: nobody else asks, each of them asks until the stock is closed,
and nobody waits while a permit is free. -/
structure Serves (p : Permits) (ts : List Ticket) : Prop where
  asks_le : ∀ u, p.asks u ≤ ts.count u
  le_asks : p.closed = false → ∀ u, ts.count u ≤ p.asks u
  dismissed : p.closed = true → p.waiting = []
  busy : p.waiting ≠ [] → p.free = 0

theorem Serves.perm (hs : p.Serves ts) (hp : ts.Perm us) : p.Serves us where
  asks_le u := hp.count_eq u ▸ hs.asks_le u
  le_asks hc u := hp.count_eq u ▸ hs.le_asks hc u
  dismissed := hs.dismissed
  busy := hs.busy

/-- Free permits are taken. -/
theorem Serves.spend (hs : p.Serves ts) (n : Nat) : ({ p with free := p.free - n }).Serves ts where
  asks_le := hs.asks_le
  le_asks := hs.le_asks
  dismissed := hs.dismissed
  busy := by
    intro hw
    show p.free - n = 0
    rw [hs.busy hw, Nat.zero_sub]

theorem Serves.tryTake (hs : p.Serves ts) (h : p.tryTake = some r) : r.Serves ts := by
  obtain ⟨-, -, rfl⟩ := tryTake_eq_some.mp h
  exact hs.spend 1

theorem Serves.release (hs : p.Serves ts) (n : Nat) : (p.release n).Serves ts where
  asks_le u := by
    rw [asks_release]
    exact hs.asks_le u
  le_asks hc u := by
    rw [asks_release]
    exact hs.le_asks hc u
  dismissed hc := by
    show p.waiting.drop n = []
    rw [hs.dismissed hc, List.drop_nil]
  busy := by
    intro hw
    have hlong : n < p.waiting.length := by
      by_contra hshort
      exact hw (List.drop_eq_nil_of_le (Nat.le_of_not_lt hshort))
    have hfree := hs.busy (List.ne_nil_of_length_pos (Nat.zero_lt_of_lt hlong))
    show p.free + (n - p.waiting.length) = 0
    omega

/-- Permits come back unless the stock is closed. -/
theorem Serves.giveBack (hs : p.Serves ts) (n : Nat) :
    (if p.closed = true then p else p.release n).Serves ts := by
  split
  · exact hs
  · exact hs.release n

theorem Serves.enroll (hs : p.Serves ts) (hc : p.closed = false) (hf : p.free = 0) :
    (p.enroll t).Serves (ts ++ [t]) where
  asks_le u := by
    have hle := hs.asks_le u
    rw [asks_enroll, List.count_append]
    omega
  le_asks _ u := by
    have hle := hs.le_asks hc u
    rw [asks_enroll, List.count_append]
    omega
  dismissed hd := by
    rw [closed_enroll, hc] at hd
    cases hd
  busy _ := hf

theorem Serves.collect (hs : p.Serves (t :: ts)) (ht : t ∈ p.granted) :
    ({ p with granted := p.granted.erase t }).Serves ts where
  asks_le u := by
    have hle := hs.asks_le u
    rw [← List.singleton_append, List.count_append] at hle
    rw [asks_collect ht]
    omega
  le_asks hc u := by
    have hle := hs.le_asks hc u
    rw [← List.singleton_append, List.count_append] at hle
    rw [asks_collect ht]
    omega
  dismissed := hs.dismissed
  busy := hs.busy

theorem Serves.leave (hs : p.Serves (t :: ts)) : (p.leave t).Serves ts := by
  simp only [Permits.leave]
  split
  · next ht => exact (hs.collect (List.contains_iff_mem.mp ht)).release 1
  · next ht =>
      have hasks : ∀ u, ({ p with waiting := p.waiting.erase t } : Permits).asks u =
          p.asks u - [t].count u := by
        intro u
        rw [← asks_leave, Permits.leave, if_neg ht]
      refine ⟨fun u => ?_, fun hc u => ?_, fun hc => ?_, fun hw => ?_⟩
      · have hle := hs.asks_le u
        rw [← List.singleton_append, List.count_append] at hle
        rw [hasks]
        omega
      · have hle := hs.le_asks hc u
        rw [← List.singleton_append, List.count_append] at hle
        rw [hasks]
        omega
      · show p.waiting.erase t = []
        rw [hs.dismissed hc, List.erase_nil]
      · refine hs.busy ?_
        rintro hnone
        exact hw (by simp [hnone])

theorem Serves.close (hs : p.Serves ts) : p.close.Serves ts where
  asks_le u := Nat.le_trans asks_close_le (hs.asks_le u)
  le_asks hc := by cases hc
  dismissed _ := rfl
  busy hw := absurd rfl hw

/-- Who asks and was not promised a permit finds none free. -/
theorem Serves.free_eq_zero (hs : p.Serves ts) (ht : t ∈ ts) (hc : p.closed = false)
    (hg : t ∉ p.granted) : p.free = 0 := by
  have hasks := hs.le_asks hc t
  have hpos := List.count_pos_iff.mpr ht
  rw [asks, List.count_append, List.count_eq_zero.mpr hg] at hasks
  refine hs.busy (List.ne_nil_of_mem (a := t) ?_)
  exact List.count_pos_iff.mp (by omega)

/-- Whoever was promised a permit is served. -/
theorem Serves.mem_of_granted (hs : p.Serves ts) (ht : t ∈ p.granted) : t ∈ ts := by
  have hasks := hs.asks_le t
  have hpos := List.count_pos_iff.mpr ht
  rw [asks, List.count_append] at hasks
  exact List.count_pos_iff.mp (by omega)

/-- As many tickets are promised a permit as permits are granted. -/
theorem Serves.length_granted (hs : p.Serves ts) (hn : ts.Nodup) :
    (ts.filter (p.granted.contains ·)).length = p.granted.length := by
  have hgranted : p.granted.Nodup := by
    rw [List.nodup_iff_count_le_one] at hn ⊢
    intro u
    have hasks := hs.asks_le u
    rw [asks, List.count_append] at hasks
    have hone := hn u
    omega
  have hperm : (ts.filter (p.granted.contains ·)).Perm p.granted := by
    rw [List.perm_ext_iff_of_nodup (hn.filter _) hgranted]
    intro u
    rw [List.mem_filter, List.contains_iff_mem]
    exact ⟨fun hu => hu.2, fun hu => ⟨hs.mem_of_granted hu, hu⟩⟩
  exact hperm.length_eq

end Permits

/-! ## The accounts of a queue -/

namespace Queue

variable {α : Type} {q q' : Queue α} {r : Permits} {a : α} {rest : List α}

/-- The places and the items of a queue against its permits. -/
structure Accounted (q : Queue α) : Prop where
  /-- There are no more items than places. -/
  room : q.items.length ≤ q.capacity
  /-- Each place is taken or has a slot in stock. -/
  slots : q.slots.closed = false → q.slots.stock + q.items.length = q.capacity
  /-- Each item has a permit in stock. -/
  backed : q.Backed

theorem accounted_ofCapacity (n : Nat) : (ofCapacity n : Queue α).Accounted where
  room := Nat.zero_le _
  slots _ := rfl
  backed _ := rfl

/-- A change that moves no item and takes no permit. -/
theorem Accounted.of_stock (hq : q.Accounted) (hi : q'.items = q.items)
    (hcap : q'.capacity = q.capacity)
    (hs : q'.slots.closed = false → q.slots.closed = false ∧ q'.slots.stock = q.slots.stock)
    (hr : q'.ready.closed = false → q.ready.closed = false ∧ q'.ready.stock = q.ready.stock) :
    q'.Accounted where
  room := by
    rw [hi, hcap]
    exact hq.room
  slots := by
    intro hc
    obtain ⟨hopen, hstock⟩ := hs hc
    rw [hi, hcap, hstock]
    exact hq.slots hopen
  backed := by
    intro hc
    obtain ⟨hopen, hstock⟩ := hr hc
    rw [hi, hstock]
    exact hq.backed hopen

/-- An item comes in for a slot. -/
theorem Accounted.push (hq : q.Accounted) (hc : q.slots.closed = false)
    (hs : q.slots.stock = r.stock + 1) : ({ q with slots := r }.push a).Accounted := by
  have hplaces := hq.slots hc
  refine ⟨?_, fun _ => ?_, fun hopen => ?_⟩
  · simp only [Queue.push, List.length_append, List.length_singleton]
    omega
  · simp only [Queue.push, List.length_append, List.length_singleton]
    omega
  · have hitems := hq.backed hopen
    simp only [Queue.push, List.length_append, List.length_singleton, Permits.stock_release]
    omega

/-- Items leave and their slots come back. -/
theorem Accounted.shorten (hq : q.Accounted) {gone rest : List α} (hi : q.items = gone ++ rest)
    (hb : ({ q with items := rest, ready := r }.freeSlots gone.length).Backed) :
    ({ q with items := rest, ready := r }.freeSlots gone.length).Accounted := by
  have hroom := hq.room
  have hplaces := hq.slots
  rw [hi, List.length_append] at hroom hplaces
  refine ⟨?_, fun hc => ?_, hb⟩
  · rw [items_freeSlots, capacity_freeSlots]
    show rest.length ≤ q.capacity
    omega
  · cases hsealed : q.slots.closed with
    | true =>
        simp only [freeSlots, isSealed, hsealed, if_true] at hc
        cases hc
    | false =>
        have hall := hplaces hsealed
        simp only [freeSlots, isSealed, hsealed, Bool.false_eq_true, if_false,
          Permits.stock_release]
        omega

theorem Accounted.without (hq : q.Accounted) (hi : q.items = a :: rest)
    (hc : q.ready.closed = false) (hs : q.ready.stock = r.stock + 1) :
    (q.without r rest).Accounted := by
  have hsplit : q.items = [a] ++ rest := hi
  exact hq.shorten hsplit (hq.backed.without hi hc hs)

theorem Accounted.tryPoll {item : Option α} (hq : q.Accounted) (h : q.tryPoll = (item, q')) :
    q'.Accounted := by
  cases item with
  | some a =>
      obtain ⟨r, rest, hr, hi, rfl⟩ := tryPoll_eq_some h
      exact hq.without hi (Permits.tryTake_eq_some.mp hr).1 (Permits.stock_of_tryTake hr)
  | none =>
      obtain ⟨rfl, -⟩ := (tryPoll_backed h hq.backed).2 rfl
      exact hq

theorem Accounted.drain (hq : q.Accounted) (most : Nat) : (q.drain most).2.Accounted := by
  have hbacked := drain_backed most hq.backed
  obtain ⟨n, r, heq, -⟩ := q.drain_eq most
  rw [heq] at hbacked ⊢
  exact hq.shorten (List.take_append_drop n q.items).symm hbacked

end Queue

/-! ## The visitors of a queue -/

namespace Traffic

variable {α : Type} {capacity : Nat} {t₀ t now : Instant} {h : List (Moment α)}
  {s s' : Traffic α} {a : Action α} {o : Outcome α}

/-- The tickets of the visitors that offer, or of those that poll. -/
def tickets (offers : Bool) (s : Traffic α) : List Ticket :=
  (s.visitors.filter (·.errand.isOffer == offers)).map (·.ticket)

/-- A visitor that leaves takes its ticket along and no other. -/
theorem Ticketed.perm_tickets {ticket : Ticket} {v : Visitor α} {offers : Bool}
    (ht : Ticketed s) (hv : s.visitor? ticket = some v) (he : v.errand.isOffer = offers) :
    (s.tickets offers).Perm (ticket :: (s.remove ticket).tickets offers) ∧
      (s.tickets (!offers)).Perm ((s.remove ticket).tickets (!offers)) := by
  have hperm : ∀ b, (s.tickets b).Perm
      (((v :: (s.remove ticket).visitors).filter (·.errand.isOffer == b)).map (·.ticket)) :=
    fun b => ((ht.perm_remove hv).filter _).map _
  have hticket := (ticket_of_visitor? hv).2
  constructor
  · simpa [tickets, he, hticket] using hperm offers
  · simpa [tickets, he] using hperm (!offers)

theorem tickets_admitVisitor (offers : Bool) (e : Errand α) (deadline : Instant) :
    (s.admitVisitor e deadline).tickets offers =
      s.tickets offers ++ if e.isOffer = offers then [s.nextTicket] else [] := by
  simp only [tickets, admitVisitor, List.filter_append, List.map_append, List.filter_cons,
    List.filter_nil, beq_iff_eq]
  split <;> rfl

theorem Ticketed.nodup_tickets (ht : Ticketed s) (offers : Bool) : (s.tickets offers).Nodup :=
  ht.distinct.sublist (List.filter_sublist.map _)

/-- The permits of a queue against its items and its visitors. -/
structure Kept (s : Traffic α) : Prop where
  queue : s.queue.Accounted
  offers : s.queue.slots.Serves (s.tickets true)
  polls : s.queue.ready.Serves (s.tickets false)

/-- A poll that does not wait. -/
theorem Kept.tryPoll {item : Option α} {q : Queue α} (hk : Kept s)
    (hq : s.queue.tryPoll = (item, q)) : Kept { s with queue := q } := by
  cases item with
  | some x =>
      obtain ⟨r, rest, hr, hi, rfl⟩ := Queue.tryPoll_eq_some hq
      refine ⟨hk.queue.tryPoll hq, ?_, ?_⟩
      · show (s.queue.without r rest).slots.Serves _
        rw [Queue.slots_without]
        exact hk.offers.giveBack 1
      · show (s.queue.without r rest).ready.Serves _
        rw [Queue.ready_without]
        exact hk.polls.tryTake hr
  | none =>
      obtain ⟨rfl, -⟩ := (Queue.tryPoll_backed hq hk.queue.backed).2 rfl
      exact hk

theorem Kept.drain (hk : Kept s) (most : Nat) :
    Kept { s with queue := (s.queue.drain most).2 } := by
  obtain ⟨n, r, heq, hr⟩ := s.queue.drain_eq most
  refine ⟨hk.queue.drain most, ?_, ?_⟩
  · show (s.queue.drain most).2.slots.Serves _
    rw [heq, Queue.slots_freeSlots]
    exact hk.offers.giveBack _
  · show (s.queue.drain most).2.ready.Serves _
    rw [heq, Queue.ready_freeSlots]
    rcases hr with ⟨-, -, rfl⟩ | ⟨-, -, rfl⟩
    · exact hk.polls
    · exact hk.polls.spend _

/-- An offer that waited goes away. -/
theorem Kept.leaveOffer {ticket : Ticket} {v : Visitor α} {x : α} (hk : Kept s) (ht : Ticketed s)
    (hv : s.visitor? ticket = some v) (he : v.errand = .offer x) :
    Kept ({ s with queue := s.queue.leaveOffer ticket }.remove ticket) := by
  obtain ⟨hmine, hothers⟩ := ht.perm_tickets hv (congrArg Errand.isOffer he)
  refine ⟨hk.queue.of_stock rfl rfl ?_ fun hc => ⟨hc, rfl⟩, ?_, hk.polls.perm hothers⟩
  · intro hc
    exact ⟨Permits.closed_leave.symm.trans hc, Permits.stock_leave⟩
  · exact (hk.offers.perm hmine).leave

/-- A poll that waited goes away. -/
theorem Kept.leavePoll {ticket : Ticket} {v : Visitor α} (hk : Kept s) (ht : Ticketed s)
    (hv : s.visitor? ticket = some v) (he : v.errand = .poll) :
    Kept ({ s with queue := s.queue.leavePoll ticket }.remove ticket) := by
  obtain ⟨hmine, hothers⟩ := ht.perm_tickets hv (congrArg Errand.isOffer he)
  refine ⟨hk.queue.of_stock rfl rfl (fun hc => ⟨hc, rfl⟩) ?_, hk.offers.perm hothers, ?_⟩
  · intro hc
    exact ⟨Permits.closed_leave.symm.trans hc, Permits.stock_leave⟩
  · exact (hk.polls.perm hmine).leave

/-- Every deed keeps the accounts. -/
theorem Kept.keep (hk : Kept s) (ht : Ticketed s) (hd : Deed now s a o s') : Kept s' := by
  cases hd with
  | refuse => exact hk
  | accept hr =>
      have hopen := (Permits.tryTake_eq_some.mp hr).1
      exact ⟨hk.queue.push hopen (Permits.stock_of_tryTake hr), hk.offers.tryTake hr,
        hk.polls.release 1⟩
  | lineUp hc hf =>
      refine ⟨hk.queue.of_stock rfl rfl (fun hc => ⟨hc, rfl⟩) fun hc => ⟨hc, rfl⟩, ?_, ?_⟩
      · rw [tickets_admitVisitor]
        exact hk.offers.enroll hc hf
      · rw [tickets_admitVisitor]
        show s.queue.ready.Serves (s.tickets false ++ [])
        rw [List.append_nil]
        exact hk.polls
  | linger hc hf =>
      refine ⟨hk.queue.of_stock rfl rfl (fun hc => ⟨hc, rfl⟩) fun hc => ⟨hc, rfl⟩, ?_, ?_⟩
      · rw [tickets_admitVisitor]
        show s.queue.slots.Serves (s.tickets true ++ [])
        rw [List.append_nil]
        exact hk.offers
      · rw [tickets_admitVisitor]
        exact hk.polls.enroll hc hf
  | take hq | miss hq => exact hk.tryPoll hq
  | enter hv he hc hg =>
      obtain ⟨hmine, hothers⟩ := ht.perm_tickets hv (congrArg Errand.isOffer he)
      exact ⟨hk.queue.push hc (Permits.stock_collect hg), (hk.offers.perm hmine).collect hg,
        (hk.polls.perm hothers).release 1⟩
  | turnBack hv he | dropOffer hv he => exact hk.leaveOffer ht hv he
  | receive hv he hc hg hi =>
      obtain ⟨hmine, hothers⟩ := ht.perm_tickets hv (congrArg Errand.isOffer he)
      refine ⟨hk.queue.without hi hc (Permits.stock_collect hg), ?_, ?_⟩
      · show (s.queue.without _ _).slots.Serves _
        rw [Queue.slots_without]
        exact (hk.offers.perm hothers).giveBack 1
      · show (s.queue.without _ _).ready.Serves _
        rw [Queue.ready_without]
        exact (hk.polls.perm hmine).collect hg
  | findNone hv he hc hg hi =>
      -- the permit in hand would be one without an item
      have hitems := hk.queue.backed hc
      rw [hi, Permits.stock_collect hg] at hitems
      cases hitems
  | giveUp hv he | dropPoll hv he => exact hk.leavePoll ht hv he
  | drain => exact hk.drain _
  | sealUp =>
      exact ⟨hk.queue.of_stock rfl rfl (fun hc => by cases hc) fun hc => ⟨hc, rfl⟩,
        hk.offers.close, hk.polls⟩
  | close =>
      exact ⟨hk.queue.of_stock rfl rfl (fun hc => by cases hc) (fun hc => by cases hc),
        hk.offers.close, hk.polls.close⟩
  | clear =>
      exact ⟨⟨Nat.zero_le _, (fun hc => by cases hc), (fun hc => by cases hc)⟩, hk.offers.close,
        hk.polls.close⟩

theorem Run.kept (run : Run capacity t₀ h t s) : Kept s := by
  induction run with
  | here =>
      have hnone : ∀ p : Permits, p.waiting = [] → p.granted = [] → p.Serves [] := by
        intro p hw hg
        refine ⟨fun u => ?_, fun _ u => Nat.zero_le _, fun _ => hw, fun hne => absurd hw hne⟩
        simp [Permits.asks, hw, hg]
      exact ⟨Queue.accounted_ofCapacity _, hnone _ rfl rfl, hnone _ rfl rfl⟩
  | act run hs ih => exact ih.keep run.ticketed (step_deed hs)
  | pass _ _ ih => exact ih

theorem Deed.capacity_eq (hd : Deed now s a o s') : s'.queue.capacity = s.queue.capacity := by
  cases hd with
  | refuse | accept | lineUp | linger | enter | turnBack | dropOffer | findNone | giveUp | dropPoll
  | sealUp | close | clear => rfl
  | receive => exact Queue.capacity_freeSlots _
  | take hq =>
      obtain ⟨r, rest, -, -, rfl⟩ := Queue.tryPoll_eq_some hq
      exact Queue.capacity_freeSlots _
  | miss hq => rcases Queue.tryPoll_eq_none hq with ⟨-, rfl⟩ | ⟨r, -, -, rfl⟩ <;> rfl
  | @drain most =>
      obtain ⟨n, r, heq, -⟩ := s.queue.drain_eq most
      show (s.queue.drain most).2.capacity = _
      rw [heq]
      exact Queue.capacity_freeSlots _

theorem Run.capacity_eq (run : Run capacity t₀ h t s) :
    s.queue.capacity = min (max capacity 1) largestCapacity :=
  run.invariant (I := fun _ s => s.queue.capacity = min (max capacity 1) largestCapacity) rfl
    fun ih hd => hd.capacity_eq.trans ih

/-! ## Settled states -/

/-- The visitors that offer and were promised a slot. -/
def slotHolders (s : Traffic α) : List (Visitor α) :=
  s.visitors.filter fun v => v.errand.isOffer && s.queue.slots.granted.contains v.ticket

/-- The visitors that poll and were promised an item. -/
def itemHolders (s : Traffic α) : List (Visitor α) :=
  s.visitors.filter fun v => !v.errand.isOffer && s.queue.ready.granted.contains v.ticket

/-- The visitors of one kind that were promised a permit are as many as the permits granted. -/
theorem Ticketed.length_promised {p : Permits} {offers : Bool} (ht : Ticketed s)
    (hs : p.Serves (s.tickets offers)) :
    (s.visitors.filter fun v =>
      v.errand.isOffer == offers && p.granted.contains v.ticket).length = p.granted.length := by
  have hlength := hs.length_granted (ht.nodup_tickets offers)
  rw [tickets, List.filter_map, List.length_map, List.filter_filter] at hlength
  rw [← hlength]
  simp [Bool.and_comm]

theorem Kept.length_slotHolders (hk : Kept s) (ht : Ticketed s) :
    s.slotHolders.length = s.queue.slots.granted.length := by
  simpa [slotHolders] using ht.length_promised hk.offers

theorem Kept.length_itemHolders (hk : Kept s) (ht : Ticketed s) :
    s.itemHolders.length = s.queue.ready.granted.length := by
  simpa [itemHolders] using ht.length_promised hk.polls

/-- Where somebody waits and nobody was promised a permit, none is in stock. -/
theorem stock_eq_zero {p : Permits} {offers : Bool} {v : Visitor α}
    (hs : p.Serves (s.tickets offers)) (hv : v ∈ s.visitors) (he : v.errand.isOffer = offers)
    (hc : p.closed = false)
    (hg : ∀ w ∈ s.visitors, w.errand.isOffer = offers → w.ticket ∉ p.granted) : p.stock = 0 := by
  have hticket : v.ticket ∈ s.tickets offers :=
    List.mem_map.mpr ⟨v, List.mem_filter.mpr ⟨hv, by simp [he]⟩, rfl⟩
  have hfree : p.free = 0 := hs.free_eq_zero hticket hc (hg v hv he)
  have hnone : p.granted = [] := by
    refine List.eq_nil_iff_forall_not_mem.mpr fun u hu => ?_
    obtain ⟨w, hw, rfl⟩ := List.mem_map.mp (hs.mem_of_granted hu)
    obtain ⟨hw, hkind⟩ := List.mem_filter.mp hw
    exact hg w hw (beq_iff_eq.mp hkind) hu
  rw [Permits.stock, hfree, hnone, List.length_nil]

theorem Ticketed.visitor?_eq {v : Visitor α} (ht : Ticketed s) (hv : v ∈ s.visitors) :
    s.visitor? v.ticket = some v := by
  cases hw : s.visitor? v.ticket with
  | none => exact absurd (List.find?_eq_none.mp hw v hv) (by simp)
  | some w =>
      obtain ⟨hmem, hticket⟩ := ticket_of_visitor? hw
      rw [List.inj_on_of_nodup_map ht.distinct hmem hv hticket]

/-- In a settled state an offer waits at an open queue and was promised nothing. -/
theorem IsSettled.offer {v : Visitor α} (hs : s.IsSettled now) (ht : Ticketed s)
    (hv : v ∈ s.visitors) (he : v.errand.isOffer = true) :
    s.queue.slots.closed = false ∧ v.ticket ∉ s.queue.slots.granted := by
  have hnone := hs v.ticket
  cases herrand : v.errand with
  | poll => simp [herrand, Errand.isOffer] at he
  | offer x =>
      simp only [resume, ht.visitor?_eq hv, herrand, Queue.resumeOffer] at hnone
      cases hr : s.queue.slots.resume v.ticket with
      | pending => exact Permits.resume_eq_pending hr
      | served r => simp [hr] at hnone
      | refused r => simp [hr] at hnone

/-- In a settled state a poll waits at an open queue and was promised nothing. -/
theorem IsSettled.poll {v : Visitor α} (hs : s.IsSettled now) (ht : Ticketed s)
    (hv : v ∈ s.visitors) (he : v.errand.isOffer = false) :
    s.queue.ready.closed = false ∧ v.ticket ∉ s.queue.ready.granted := by
  have hnone := hs v.ticket
  cases herrand : v.errand with
  | offer x => simp [herrand, Errand.isOffer] at he
  | poll =>
      simp only [resume, ht.visitor?_eq hv, herrand] at hnone
      cases hr : s.queue.resumePoll v.ticket with
      | mk turn q =>
          cases turn with
          | item x => simp [hr] at hnone
          | nothing => simp [hr] at hnone
          | waiting =>
              obtain ⟨hc, hg, -⟩ := Queue.resumePoll_eq_waiting hr
              exact ⟨hc, hg⟩

/-! ## The accounts along a run -/

/-- The permits of a queue against its places, its items and its visitors. -/
structure Accounts (capacity : Nat) (s : Traffic α) : Prop where
  /-- The capacity is the one that was asked for, brought into range. -/
  capacity_eq : s.queue.capacity = min (max capacity 1) largestCapacity
  /-- There are no more items than places. -/
  room : s.queue.length ≤ s.queue.capacity
  /-- Until offers are ended, each place is free, promised or taken. -/
  places : s.queue.isSealed = false →
    s.queue.slots.free + s.slotHolders.length + s.queue.length = s.queue.capacity
  /-- Until polls are ended, each item is free or promised. -/
  items : s.queue.isClosed = false →
    s.queue.ready.free + s.itemHolders.length = s.queue.length
  /-- Offers wait only at a full queue that takes offers. -/
  full : ∀ now, s.IsSettled now → ∀ v ∈ s.visitors, v.errand.isOffer = true →
    s.queue.isSealed = false ∧ s.queue.length = s.queue.capacity
  /-- Polls wait only at an empty queue that serves polls. -/
  empty : ∀ now, s.IsSettled now → ∀ v ∈ s.visitors, v.errand.isOffer = false →
    s.queue.isClosed = false ∧ s.queue.isEmpty = true

theorem Kept.places (hk : Kept s) (ht : Ticketed s) (hc : s.queue.isSealed = false) :
    s.queue.slots.free + s.slotHolders.length + s.queue.length = s.queue.capacity := by
  rw [hk.length_slotHolders ht]
  exact hk.queue.slots hc

theorem Kept.items (hk : Kept s) (ht : Ticketed s) (hc : s.queue.isClosed = false) :
    s.queue.ready.free + s.itemHolders.length = s.queue.length := by
  rw [hk.length_itemHolders ht]
  exact (hk.queue.backed hc).symm

/-- No permit is lost or made, and nobody waits for one without need. -/
theorem Run.accounted (run : Run capacity t₀ h t s) : Accounts capacity s where
  capacity_eq := run.capacity_eq
  room := run.kept.queue.room
  places hc := run.kept.places run.ticketed hc
  items hc := run.kept.items run.ticketed hc
  full := by
    intro now hs v hv he
    have hopen := (hs.offer run.ticketed hv he).1
    have hstock := stock_eq_zero run.kept.offers hv he hopen
      fun w hw hoffer => (hs.offer run.ticketed hw hoffer).2
    have hplaces := run.kept.queue.slots hopen
    rw [hstock, Nat.zero_add] at hplaces
    exact ⟨hopen, hplaces⟩
  empty := by
    intro now hs v hv he
    have hopen := (hs.poll run.ticketed hv he).1
    have hstock := stock_eq_zero run.kept.polls hv he hopen
      fun w hw hpoll => (hs.poll run.ticketed hw hpoll).2
    have hitems := run.kept.queue.backed hopen
    rw [hstock] at hitems
    exact ⟨hopen, List.isEmpty_iff.mpr (List.length_eq_zero_iff.mp hitems)⟩

/-- Of two places one is taken, and the other is promised to an offer that waits. -/
def halfPromised : List (Instant × Action Nat) :=
  [(0, .offer 1 0), (0, .offer 2 9), (0, .offer 3 9), (1, .poll 0)]

theorem accounted_of_halfPromised : ∃ h t s,
    play 0 { queue := .ofCapacity 2 } halfPromised = some (h, t, s) ∧ Accounts 2 s ∧
      s.queue.slots.free = 0 ∧ s.slotHolders.length = 1 ∧ s.queue.length = 1 := by
  have hplay : (play 0 { queue := .ofCapacity 2 } halfPromised).map (fun w =>
      (w.2.2.queue.slots.free, w.2.2.slotHolders.length, w.2.2.queue.length)) =
        some (0, 1, 1) := by
    rfl
  obtain ⟨⟨h, t, s⟩, hp, hread⟩ := Option.map_eq_some_iff.mp hplay
  simp only [Prod.mk.injEq] at hread
  have run : Run 2 0 ([] ++ h) t s := Run.here.play hp
  exact ⟨h, t, s, hp, run.accounted, hread⟩

end Traffic

end Backpressure
