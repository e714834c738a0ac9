import Backpressure.Proofs.Queue.Accounts
import Backpressure.Proofs.Queue.Order

/-!
# Sealing and closing

Sealing closes the stock of slots and closing that of items as well.  A stock that is closed
serves nobody, not even a visitor that it had promised a permit, so from the next step on no
offer is accepted (`TurnsAway`), and no poll gets an item once the queue is closed
(`SendsAway`).

*What is there.*  After the seal nothing enters, so the contents are always the last part of
what they were (`SealedSince`).  Until the close each item is free or promised, and who asks
for a free one, or was promised one, gets the oldest (`Hands`).  After the close only a drain
or a clearing takes anything (`ClosedSince`).

Who acts after the seal, and in which order, is left open: `Run.since_ending` is about every
run in which it happened.
-/

namespace Backpressure

namespace Permits

variable {p : Permits} {ticket : Ticket}

/-- A closed stock refuses everybody, also who was granted a permit. -/
theorem resume_of_closed (h : p.closed = true) : p.resume ticket = .refused (p.leave ticket) := by
  rw [resume, if_pos h]

theorem resume_of_granted (hc : p.closed = false) (hg : ticket ∈ p.granted) :
    p.resume ticket = .served { p with granted := p.granted.erase ticket } := by
  rw [resume, if_neg (by simp [hc]), if_pos (List.contains_iff_mem.mpr hg)]

end Permits

namespace Traffic

variable {α : Type} {capacity : Nat} {t₀ t now : Instant} {h past later : List (Moment α)}
  {m : Moment α} {s s' : Traffic α} {a : Action α} {o : Outcome α}

/-- Whether an action ends offers. -/
def Action.seals : Action α → Bool
  | .sealUp | .close | .closeAndClear => true
  | _ => false

/-- Whether an action ends polls. -/
def Action.closes : Action α → Bool
  | .close | .closeAndClear => true
  | _ => false

/-- Whether an action takes items that nobody polls. -/
def Action.empties : Action α → Bool
  | .drain _ | .closeAndClear => true
  | _ => false

/-! ## One step -/

/-- Offers never begin again. -/
theorem Deed.sealed (hd : Deed now s a o s') (hs : s.queue.isSealed = true) :
    s'.queue.isSealed = true := by
  cases hd with
  | accept hr => rw [Queue.isSealed, (Permits.tryTake_eq_some.mp hr).1] at hs; cases hs
  | lineUp hc | enter _ _ hc => rw [Queue.isSealed, hc] at hs; cases hs
  | refuse | linger | findNone | giveUp | dropPoll => exact hs
  | turnBack | dropOffer => exact Permits.closed_leave.trans hs
  | sealUp | close | clear => rfl
  | receive => exact (Queue.isSealed_without _ _).trans hs
  | take hq =>
      obtain ⟨r, rest, -, -, rfl⟩ := Queue.tryPoll_eq_some hq
      exact (Queue.isSealed_without _ _).trans hs
  | miss hq => obtain ⟨-, rfl⟩ | ⟨r, -, -, rfl⟩ := Queue.tryPoll_eq_none hq <;> exact hs
  | @drain most =>
      obtain ⟨n, r, heq, -⟩ := s.queue.drain_eq most
      show (s.queue.drain most).2.isSealed = true
      rw [heq]
      exact (Queue.isSealed_freeSlots _).trans hs

/-- Polls never begin again. -/
theorem Deed.closed (hd : Deed now s a o s') (hs : s.queue.isClosed = true) :
    s'.queue.isClosed = true := by
  cases hd with
  | refuse | accept | lineUp | enter | turnBack | dropOffer | sealUp => exact hs
  | close | clear => rfl
  | linger hc | receive _ _ hc | findNone _ _ hc => rw [Queue.isClosed, hc] at hs; cases hs
  | giveUp | dropPoll => exact Permits.closed_leave.trans hs
  | take hq =>
      obtain ⟨r, rest, hr, -, -⟩ := Queue.tryPoll_eq_some hq
      rw [Queue.isClosed, (Permits.tryTake_eq_some.mp hr).1] at hs
      cases hs
  | miss hq =>
      obtain ⟨-, rfl⟩ | ⟨r, hr, -, -⟩ := Queue.tryPoll_eq_none hq
      · exact hs
      · rw [Queue.isClosed, (Permits.tryTake_eq_some.mp hr).1] at hs
        cases hs
  | @drain most =>
      obtain ⟨n, r, heq, hr⟩ := s.queue.drain_eq most
      show (s.queue.drain most).2.ready.closed = true
      rw [heq, Queue.ready_freeSlots]
      obtain ⟨-, -, rfl⟩ | ⟨-, -, rfl⟩ := hr <;> exact hs

theorem Deed.ends_offers (hd : Deed now s a o s') (ha : a.seals = true) :
    s'.queue.isSealed = true := by
  cases hd <;> first | rfl | cases ha

theorem Deed.ends_polls (hd : Deed now s a o s') (ha : a.closes = true) :
    s'.queue.isClosed = true := by
  cases hd <;> first | rfl | cases ha

/-- At a sealed queue no offer is accepted. -/
theorem Deed.not_accepted (hd : Deed now s a o s') (hs : s.queue.isSealed = true) :
    o ≠ .replied .accepted := by
  rintro rfl
  cases hd with
  | accept hr => rw [Queue.isSealed, (Permits.tryTake_eq_some.mp hr).1] at hs; cases hs
  | enter _ _ hc => rw [Queue.isSealed, hc] at hs; cases hs

/-- At a closed queue no poll gets an item. -/
theorem Deed.not_served (hd : Deed now s a o s') (hs : s.queue.isClosed = true) (x : α) :
    o ≠ .replied (.item x) := by
  rintro rfl
  cases hd with
  | receive _ _ hc => rw [Queue.isClosed, hc] at hs; cases hs
  | take hq =>
      obtain ⟨r, rest, hr, -, -⟩ := Queue.tryPoll_eq_some hq
      rw [Queue.isClosed, (Permits.tryTake_eq_some.mp hr).1] at hs
      cases hs

/-- Only a drain or a clearing removes anything from a closed queue. -/
theorem Deed.empties_of_removals (hd : Deed now s a o s') (hs : s.queue.isClosed = true)
    (hr : Moment.removals ⟨s, a, o⟩ ≠ []) : a.empties = true := by
  have hnone := hd.not_served hs
  cases hd with
  | drain | clear => rfl
  | take | receive => exact absurd rfl (hnone _)
  | _ => exact absurd rfl hr

/-- What is in a sealed queue after a step is the last part of what was there before it. -/
theorem Deed.leaves (hd : Deed now s a o s') (ha : o ≠ .replied .accepted) :
    ∃ parts, List.Forall₂ Removal.Fits (Moment.removals ⟨s, a, o⟩) parts ∧
      s.queue.items = parts.flatten ++ s'.queue.items := by
  obtain ⟨parts, hfit, hflow⟩ := hd.flow
  have hnone : Moment.accepted ⟨s, a, o⟩ = [] := by
    unfold Moment.accepted
    split
    · next ho => exact absurd ho ha
    · rfl
  rw [hnone, List.append_nil] at hflow
  exact ⟨parts, hfit, hflow⟩

/-- On a closed queue only a drain or a clearing moves items. -/
theorem Deed.items_eq (hd : Deed now s a o s') (hs : s.queue.isClosed = true)
    (hc : s.queue.isSealed = true) (ha : a.empties = false) : s'.queue.items = s.queue.items := by
  obtain ⟨parts, hfit, hitems⟩ := hd.leaves (hd.not_accepted hc)
  have hnone : Moment.removals ⟨s, a, o⟩ = [] := by
    by_contra hsome
    rw [hd.empties_of_removals hs hsome] at ha
    cases ha
  rw [hnone] at hfit
  cases hfit
  exact hitems.symm

/-! ## A sealed and a closed queue -/

/-- Offers have ended: who offers is turned away at once, and so is each visitor that offers, even
one that was promised a slot. -/
structure TurnsAway (s : Traffic α) : Prop where
  offer : ∀ now a wait, s.step now (.offer a wait) = some (.replied (.returned a), s)
  visitor : ∀ now, ∀ v ∈ s.visitors, ∀ a, v.errand = .offer a →
    ∃ s', s.step now (.resume v.ticket) = some (.replied (.returned a), s') ∧
      s'.queue.items = s.queue.items

/-- An action gets the oldest item. -/
def GetsOldest (s : Traffic α) (now : Instant) (a : Action α) : Prop :=
  ∃ x s', s.step now a = some (.replied (.item x), s') ∧ s.queue.items = x :: s'.queue.items

/-- Polls have not ended: each item is free or promised, and who polls while one is free or was
promised one gets the oldest. -/
structure Hands (s : Traffic α) : Prop where
  items : s.queue.ready.free + s.itemHolders.length = s.queue.length
  poll : 0 < s.queue.ready.free → ∀ now wait, s.GetsOldest now (.poll wait)
  visitor : ∀ now, ∀ v ∈ s.itemHolders, s.GetsOldest now (.resume v.ticket)

/-- Polls have ended: who polls gets nothing at once, and so does each visitor that polls, even
one that was promised an item.  A drain and a clearing still take items, and nothing else does. -/
structure SendsAway (s : Traffic α) : Prop where
  poll : ∀ now wait, s.step now (.poll wait) = some (.replied .nothing, s)
  visitor : ∀ now, ∀ v ∈ s.visitors, v.errand = .poll →
    ∃ s', s.step now (.resume v.ticket) = some (.replied .nothing, s') ∧
      s'.queue.items = s.queue.items
  drain : ∀ now most, ∃ s',
    s.step now (.drain most) = some (.drained (s.queue.items.take most), s') ∧
      s'.queue.items = s.queue.items.drop most
  clear : ∀ now, ∃ s',
    s.step now .closeAndClear = some (.cleared s.queue.length, s') ∧ s'.queue.items = []
  stay : ∀ now a o s', s.step now a = some (o, s') → a.empties = false →
    s'.queue.items = s.queue.items

/-- Once offers have ended, every offer is turned away, also one that waits with a slot granted. -/
theorem Ticketed.turnsAway (ht : Ticketed s) (hs : s.queue.isSealed = true) : TurnsAway s where
  offer now a wait := by
    have htake : s.queue.slots.tryTake = none := Permits.tryTake_eq_none.mpr (.inl hs)
    simp only [step, offer, Queue.tryOffer, Queue.offer, htake, hs]
    split <;> rfl
  visitor now v hv a he := by
    refine ⟨{ s with queue := s.queue.leaveOffer v.ticket }.remove v.ticket, ?_, rfl⟩
    simp only [step, resume, ht.visitor?_eq hv, he, Queue.resumeOffer, Permits.resume_of_closed hs]
    rfl

/-- Until polls have ended, whoever was promised an item gets one. -/
theorem Kept.hands (hk : Kept s) (ht : Ticketed s) (hc : s.queue.isClosed = false) : Hands s where
  items := hk.items ht hc
  poll hfree now wait := by
    obtain ⟨x, q, hi, -, htry, hpoll⟩ := Queue.poll_of_free hk.queue.backed hc hfree
    refine ⟨x, { s with queue := q }, ?_, hi⟩
    simp only [step, poll, htry, hpoll]
    split <;> rfl
  visitor now v hv := by
    obtain ⟨hv, hpromised⟩ := List.mem_filter.mp hv
    simp only [Bool.and_eq_true, Bool.not_eq_true', List.contains_iff_mem] at hpromised
    obtain ⟨hpoll, hg⟩ := hpromised
    have he : v.errand = .poll := by
      cases he : v.errand with
      | offer a => rw [he] at hpoll; cases hpoll
      | poll => rfl
    -- who holds a promise is owed an item that is there, so there is a first
    have hlength := hk.queue.backed hc
    have hpos := List.length_pos_of_mem hg
    cases hi : s.queue.items with
    | nil =>
        rw [hi, Permits.stock, List.length_nil] at hlength
        omega
    | cons x rest =>
        let ready := { s.queue.ready with granted := s.queue.ready.granted.erase v.ticket }
        refine ⟨x, { s with queue := s.queue.without ready rest }.remove v.ticket, ?_, ?_⟩
        · simp only [step, resume, ht.visitor?_eq hv, he, Queue.resumePoll,
            Permits.resume_of_granted hc hg, Queue.takeFirst, hi]
          rfl
        · simp [remove, hi]

/-- Once polls have ended, every poll is sent away, also one that was promised an item. -/
theorem Ticketed.sendsAway (ht : Ticketed s) (hs : s.queue.isSealed = true)
    (hc : s.queue.isClosed = true) : SendsAway s where
  poll now wait := by
    have htake : s.queue.ready.tryTake = none := Permits.tryTake_eq_none.mpr (.inl hc)
    simp only [step, poll, Queue.tryPoll, Queue.poll, htake, hc]
    split <;> rfl
  visitor now v hv he := by
    refine ⟨{ s with queue := s.queue.leavePoll v.ticket }.remove v.ticket, ?_, rfl⟩
    simp only [step, resume, ht.visitor?_eq hv, he, Queue.resumePoll, Permits.resume_of_closed hc]
    rfl
  drain now most := by
    obtain ⟨n, r, heq, ⟨-, rfl, rfl⟩ | ⟨hopen, -, -⟩⟩ := s.queue.drain_eq most
    · refine ⟨{ s with queue := (s.queue.drain n).2 }, ?_, ?_⟩
      · simp only [step, heq]
      · show (s.queue.drain n).2.items = _
        rw [heq, Queue.items_freeSlots]
    · rw [Queue.isClosed, hopen] at hc
      cases hc
  clear now := ⟨_, rfl, rfl⟩
  stay now a o s' h ha := (step_deed h).items_eq hc hs ha

/-! ## After the end of offers, and of polls -/

/-- A run up to one of its moments, and from there to its end: what holds right after that moment
and is kept by every deed holds at the end. -/
theorem Run.since {P : List (Moment α) → Traffic α → Prop}
    (run : Run capacity t₀ h t s) (hh : h = past ++ m :: later)
    (first : ∀ {now s'}, Deed now m.found m.action m.outcome s' → P [] s')
    (keep : ∀ {later now s a o s'}, P later s → Deed now s a o s' → P (later ++ [⟨s, a, o⟩]) s') :
    P later s := by
  -- the last moment of the run is the one at which things ended, or one of the later ones
  induction run generalizing later with
  | here => simp at hh
  | pass _ _ ih => exact ih hh
  | act run hs ih =>
      rcases List.eq_nil_or_concat later with rfl | ⟨before, last, rfl⟩
      · obtain ⟨-, hm⟩ := List.append_inj' hh rfl
        cases hm
        exact first (step_deed hs)
      · rw [List.concat_eq_append, ← List.cons_append, ← List.append_assoc] at hh
        obtain ⟨hbefore, hlast⟩ := List.append_inj' hh rfl
        cases hlast
        rw [List.concat_eq_append]
        exact keep (ih hbefore) (step_deed hs)

/-- What becomes of a queue after a moment at which offers ended. -/
structure Dwindles (m : Moment α) (later : List (Moment α)) (s : Traffic α) : Prop where
  isSealed : s.queue.isSealed = true
  /-- No offer was accepted. -/
  refused : ∀ n ∈ later, n.outcome ≠ .replied .accepted
  /-- The contents never grew: each time they were the last part of what they had been at any
  time before. -/
  shrinking : ((m :: later).map (·.found.queue.items) ++ [s.queue.items]).Pairwise
    fun before after => after <:+ before
  /-- What has left since, in the order in which it left, and then what is there, is what was
  there. -/
  order : ∃ parts, List.Forall₂ Removal.Fits ((m :: later).flatMap Moment.removals) parts ∧
    m.found.queue.items = parts.flatten ++ s.queue.items

/-- What becomes of a queue after polls ended. -/
structure Rests (later : List (Moment α)) (s : Traffic α) : Prop where
  isClosed : s.queue.isClosed = true
  /-- No poll got an item. -/
  unserved : ∀ n ∈ later, ∀ x, n.outcome ≠ .replied (.item x)
  /-- Only drains and clearings removed anything. -/
  kept : ∀ n ∈ later, n.removals ≠ [] → n.action.empties = true

theorem Deed.dwindles (hd : Deed now s a o s') (ha : a.seals = true) :
    Dwindles ⟨s, a, o⟩ [] s' := by
  have hnone : o ≠ .replied .accepted := by
    rintro rfl
    cases hd <;> cases ha
  obtain ⟨parts, hfit, hitems⟩ := hd.leaves hnone
  have hsuffix : s'.queue.items <:+ s.queue.items := ⟨parts.flatten, hitems.symm⟩
  exact ⟨hd.ends_offers ha, List.forall_mem_nil _, List.pairwise_pair.mpr hsuffix, parts,
    by simpa using hfit, hitems⟩

theorem Dwindles.keep (hw : Dwindles m later s) (hd : Deed now s a o s') :
    Dwindles m (later ++ [⟨s, a, o⟩]) s' := by
  have hnone := hd.not_accepted hw.isSealed
  obtain ⟨parts, hfit, hitems⟩ := hw.order
  obtain ⟨more, hmore, hleft⟩ := hd.leaves hnone
  have hsuffix : s'.queue.items <:+ s.queue.items := ⟨more.flatten, hleft.symm⟩
  refine ⟨hd.sealed hw.isSealed, ?_, ?_, parts ++ more, ?_, ?_⟩
  · exact List.forall_mem_append.mpr ⟨hw.refused, by simpa using hnone⟩
  · -- what is there now is a part of what was there last, and so of all that was there before
    have hbefore := (List.pairwise_append.mp hw.shrinking).2.2
    rw [← List.cons_append, List.map_append, List.map_singleton]
    refine List.pairwise_append.mpr ⟨hw.shrinking, List.pairwise_singleton _ _, ?_⟩
    intro before hb after hafter
    cases List.mem_singleton.mp hafter
    rcases List.mem_append.mp hb with hb | hb
    · exact hsuffix.trans (hbefore before hb _ (List.mem_singleton.mpr rfl))
    · cases List.mem_singleton.mp hb
      exact hsuffix
  · rw [← List.cons_append, List.flatMap_append, List.flatMap_singleton]
    exact List.rel_append hfit hmore
  · rw [hitems, hleft, List.flatten_append, List.append_assoc]

theorem Rests.keep (hw : Rests later s) (hd : Deed now s a o s') :
    Rests (later ++ [⟨s, a, o⟩]) s' := by
  refine ⟨hd.closed hw.isClosed, List.forall_mem_append.mpr ⟨hw.unserved, ?_⟩,
    List.forall_mem_append.mpr ⟨hw.kept, ?_⟩⟩
  · simpa using hd.not_served hw.isClosed
  · simpa using hd.empties_of_removals hw.isClosed

/-- What is known of a queue after a moment at which offers ended and the moments since. -/
structure SealedSince (m : Moment α) (later : List (Moment α)) (s : Traffic α) : Prop extends
    Dwindles m later s where
  /-- Offers are turned away at once. -/
  turnsAway : TurnsAway s
  /-- Until polls end what is there can be polled, the oldest first. -/
  hands : s.queue.isClosed = false → Hands s

/-- What is known of a queue after polls ended and the moments since. -/
structure ClosedSince (later : List (Moment α)) (s : Traffic α) : Prop extends
    Rests later s where
  /-- Polls are sent away at once, and what is there stays until it is drained or cleared. -/
  sendsAway : SendsAway s

/-- From the end of offers on the queue only gets shorter, from its front. -/
theorem Run.dwindles (run : Run capacity t₀ (past ++ m :: later) t s)
    (hm : m.action.seals = true) : Dwindles m later s :=
  run.since rfl (P := Dwindles m) (fun hd => hd.dwindles hm) fun hw hd => hw.keep hd

/-- From the end of polls on only a drain or a clearing takes items. -/
theorem Run.rests (run : Run capacity t₀ (past ++ m :: later) t s)
    (hm : m.action.closes = true) : Rests later s :=
  run.since rfl (P := Rests)
    (fun hd => ⟨hd.ends_polls hm, List.forall_mem_nil _, List.forall_mem_nil _⟩)
    fun hw hd => hw.keep hd

theorem Action.seals_of_closes (ha : a.closes = true) : a.seals = true := by
  cases a <;> first | rfl | cases ha

/-- Sealing and closing take effect at once and for good: whatever is done after a moment at
which offers or polls were ended, and whatever was promised to those who waited then. -/
theorem Run.since_ending (run : Run capacity t₀ (past ++ m :: later) t s) :
    (m.action.seals = true → SealedSince m later s) ∧
      (m.action.closes = true → ClosedSince later s) := by
  constructor
  · intro hm
    have hw := run.dwindles hm
    exact ⟨hw, run.ticketed.turnsAway hw.isSealed, run.kept.hands run.ticketed⟩
  · intro hm
    have hw := run.rests hm
    have hsealed := (run.dwindles (Action.seals_of_closes hm)).isSealed
    exact ⟨hw, run.ticketed.sendsAway hsealed hw.isClosed⟩

/-- An offer that was promised a slot is caught by the seal, and a poll that was promised an item
by the close; the item stays until it is drained. -/
def caughtWaiting : List (Instant × Action Nat) :=
  [(0, .poll 9), (0, .offer 1 0), (0, .offer 2 0), (0, .offer 3 9), (1, .poll 0), (1, .sealUp),
    (2, .resume 1), (3, .close), (4, .resume 0), (5, .drain 5)]

theorem since_ending_of_caughtWaiting : ∃ past m between n later t s,
    play 0 { queue := .ofCapacity 2 } caughtWaiting =
      some (past ++ m :: (between ++ n :: later), t, s) ∧
    m.action = .sealUp ∧ m.found.queue.slots.granted = [1] ∧
    SealedSince m (between ++ n :: later) s ∧
    between.map (·.outcome) = [.replied (.returned 3)] ∧
    n.action = .close ∧ n.found.queue.ready.granted = [0] ∧
    ClosedSince later s ∧
    later.map (·.outcome) = [.replied .nothing, .drained [2]] := by
  let told (m : Moment Nat) := (m.action, m.outcome, m.found.queue.slots.granted,
    m.found.queue.ready.granted)
  have hplay : (play 0 { queue := .ofCapacity 2 } caughtWaiting).map (fun w => w.1.map told) =
      some ([(.poll 9, .waits 0, [], []), (.offer 1 0, .replied .accepted, [], []),
        (.offer 2 0, .replied .accepted, [], [0]), (.offer 3 9, .waits 1, [], [0]),
        (.poll 0, .replied (.item 1), [], [0])] ++
        (.sealUp, .silent, [1], [0]) :: ([(.resume 1, .replied (.returned 3), [1], [0])] ++
        (.close, .silent, [], [0]) :: [(.resume 0, .replied .nothing, [], [0]),
          (.drain 5, .drained [2], [], [])])) := by
    rfl
  obtain ⟨⟨h, t, s⟩, hp, hread⟩ := Option.map_eq_some_iff.mp hplay
  obtain ⟨past, rest, rfl, -, hread⟩ := List.map_eq_append_iff.mp hread
  obtain ⟨m, rest, rfl, hm, hread⟩ := List.map_eq_cons_iff.mp hread
  obtain ⟨between, rest, rfl, hbetween, hread⟩ := List.map_eq_append_iff.mp hread
  obtain ⟨n, later, rfl, hn, hlater⟩ := List.map_eq_cons_iff.mp hread
  have run : Run 2 0 (past ++ m :: (between ++ n :: later)) t s := Run.here.play hp
  have run' : Run 2 0 ((past ++ m :: between) ++ n :: later) t s := by
    rwa [List.append_assoc, List.cons_append]
  have houtcomes : ∀ k : List (Moment Nat), k.map (·.outcome) = (k.map told).map (·.2.1) := by
    intro k
    rw [List.map_map]
    rfl
  simp only [told, Prod.mk.injEq] at hm hn
  have hseal := run.since_ending.1 (by rw [hm.1]; rfl)
  have hclose := run'.since_ending.2 (by rw [hn.1]; rfl)
  refine ⟨past, m, between, n, later, t, s, hp, hm.1, hm.2.2.1, hseal, ?_, hn.1, hn.2.2.2, hclose,
    ?_⟩
  · rw [houtcomes, hbetween]
    rfl
  · rw [houtcomes, hlater]
    rfl

end Traffic

end Backpressure
