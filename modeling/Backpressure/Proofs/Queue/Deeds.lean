import Backpressure.Proofs.Queue.Effects
import Backpressure.Queue.Traffic

/-!
# What can happen at a queue

`Traffic.Deed` lists everything that one action at a queue can come to, and
`Traffic.step_deed` says that the list is complete.

*Callers.*  A caller that needs no wait is served or sent away at once and leaves no
visitor behind.  Only who finds an open queue without a permit becomes a visitor.

*Visitors.*  A visitor leaves with what it came for, or because it is sent away, or
because its deadline has passed, or because it is dropped.  In the last three cases
it gives up its place among those who wait, and the contents stay as they are.
-/

namespace Backpressure.Traffic

variable {α : Type}

/-- What one action at a queue can come to. -/
inductive Deed (now : Instant) (s : Traffic α) : Action α → Outcome α → Traffic α → Prop where
  -- a caller comes and needs no wait, or has to wait
  | accept {a : α} {wait : Duration} {r : Permits} (hr : s.queue.slots.tryTake = some r) :
      Deed now s (.offer a wait) (.replied .accepted)
        { s with queue := { s.queue with slots := r }.push a }
  | refuse {a : α} {wait : Duration} (hr : s.queue.slots.tryTake = none) :
      Deed now s (.offer a wait) (.replied (.returned a)) s
  | lineUp {a : α} {wait : Duration} (hc : s.queue.slots.closed = false)
      (hf : s.queue.slots.free = 0) :
      Deed now s (.offer a wait) (.waits s.nextTicket)
        ({ s with queue.slots := s.queue.slots.enroll s.nextTicket }.admitVisitor (.offer a)
          (now.afterWait wait))
  | take {a : α} {wait : Duration} {q : Queue α} (hq : s.queue.tryPoll = (some a, q)) :
      Deed now s (.poll wait) (.replied (.item a)) { s with queue := q }
  | miss {wait : Duration} {q : Queue α} (hq : s.queue.tryPoll = (none, q)) :
      Deed now s (.poll wait) (.replied .nothing) { s with queue := q }
  | linger {wait : Duration} (hc : s.queue.ready.closed = false) (hf : s.queue.ready.free = 0) :
      Deed now s (.poll wait) (.waits s.nextTicket)
        ({ s with queue.ready := s.queue.ready.enroll s.nextTicket }.admitVisitor .poll
          (now.afterWait wait))
  -- a visitor looks again: it was promised something, was sent away or is late
  | enter {t : Ticket} {v : Visitor α} {a : α} (hv : s.visitor? t = some v)
      (he : v.errand = .offer a) (hc : s.queue.slots.closed = false)
      (ht : t ∈ s.queue.slots.granted) :
      Deed now s (.resume t) (.replied .accepted)
        ({ s with queue := { s.queue with
            slots := { s.queue.slots with
              granted := s.queue.slots.granted.erase t } }.push a }.remove t)
  | turnBack {t : Ticket} {v : Visitor α} {a : α} (hv : s.visitor? t = some v)
      (he : v.errand = .offer a) (hw : s.queue.slots.closed = true ∨ v.deadline ≤ now) :
      Deed now s (.resume t) (.replied (.returned a))
        ({ s with queue := s.queue.leaveOffer t }.remove t)
  | receive {t : Ticket} {v : Visitor α} {a : α} {rest : List α} (hv : s.visitor? t = some v)
      (he : v.errand = .poll) (hc : s.queue.ready.closed = false)
      (ht : t ∈ s.queue.ready.granted) (hi : s.queue.items = a :: rest) :
      Deed now s (.resume t) (.replied (.item a))
        ({ s with queue := (s.queue.without
            { s.queue.ready with granted := s.queue.ready.granted.erase t } rest) }.remove t)
  | findNone {t : Ticket} {v : Visitor α} (hv : s.visitor? t = some v) (he : v.errand = .poll)
      (hc : s.queue.ready.closed = false) (ht : t ∈ s.queue.ready.granted)
      (hi : s.queue.items = []) :
      Deed now s (.resume t) (.replied .nothing)
        ({ s with queue.ready := { s.queue.ready with
            granted := s.queue.ready.granted.erase t } }.remove t)
  | giveUp {t : Ticket} {v : Visitor α} (hv : s.visitor? t = some v) (he : v.errand = .poll)
      (hw : s.queue.ready.closed = true ∨ v.deadline ≤ now) :
      Deed now s (.resume t) (.replied .nothing)
        ({ s with queue := s.queue.leavePoll t }.remove t)
  -- a visitor is dropped, which never moves an item
  | dropOffer {t : Ticket} {v : Visitor α} {a : α} (hv : s.visitor? t = some v)
      (he : v.errand = .offer a) :
      Deed now s (.drop t) .silent ({ s with queue := s.queue.leaveOffer t }.remove t)
  | dropPoll {t : Ticket} {v : Visitor α} (hv : s.visitor? t = some v) (he : v.errand = .poll) :
      Deed now s (.drop t) .silent ({ s with queue := s.queue.leavePoll t }.remove t)
  -- the owner acts
  | drain {most : Nat} :
      Deed now s (.drain most) (.drained (s.queue.drain most).1)
        { s with queue := (s.queue.drain most).2 }
  | sealUp : Deed now s .sealUp .silent { s with queue := s.queue.sealUp }
  | close : Deed now s .close .silent { s with queue := s.queue.close }
  | clear :
      Deed now s .closeAndClear (.cleared s.queue.items.length)
        { s with queue := { s.queue.close with items := [] } }

variable {now : Instant} {s s' : Traffic α} {a : Action α} {o : Outcome α}

theorem ticket_of_visitor? {t : Ticket} {v : Visitor α} (h : s.visitor? t = some v) :
    v ∈ s.visitors ∧ v.ticket = t :=
  ⟨List.mem_of_find?_eq_some h, by simpa using List.find?_some h⟩

/-- Without a wait an offer is accepted or refused at once; with one it may line up. -/
theorem offer_deed {x : α} {wait : Duration} :
    Deed now s (.offer x wait) (s.offer now x wait).1 (s.offer now x wait).2 := by
  simp only [offer]
  split
  · -- no wait
    cases hq : s.queue.slots.tryTake with
    | some r =>
        simp only [Queue.tryOffer, hq, if_true]
        exact .accept hq
    | none =>
        simp only [Queue.tryOffer, hq, Bool.false_eq_true, if_false]
        exact .refuse hq
  · cases hq : s.queue.slots.tryTake with
    | some r =>
        simp only [Queue.offer, hq]
        exact .accept hq
    | none =>
        simp only [Queue.offer, hq]
        by_cases hc : s.queue.slots.closed = true
        · simp only [Queue.isSealed, hc, if_true]
          exact .refuse hq
        · simp only [Queue.isSealed, hc]
          have hf := (Permits.tryTake_eq_none.mp hq).resolve_left hc
          exact .lineUp (by simpa using hc) hf

theorem poll_deed {wait : Duration} :
    Deed now s (.poll wait) (s.poll now wait).1 (s.poll now wait).2 := by
  simp only [poll]
  split
  · split
    · next x q hq => exact .take hq
    · next q hq => exact .miss hq
  · split
    · next x q hq => exact .take (Queue.poll_eq_item hq)
    · next q hq => exact .miss (Queue.poll_eq_nothing hq)
    · next q hq =>
        obtain ⟨hc, hf, rfl⟩ := Queue.poll_eq_waiting hq
        exact .linger hc hf

/-- A visitor that runs first has its turn, and only then looks at its deadline. -/
theorem resume_deed {t : Ticket} {r : Reply α} (h : s.resume now t = some (r, s')) :
    Deed now s (.resume t) (.replied r) s' := by
  simp only [resume] at h
  split at h
  · cases h
  · next v hv =>
      split at h
      · next x he =>
          split at h
          · next q hq =>
              cases h
              obtain ⟨hc, ht, rfl⟩ := Queue.resumeOffer_eq_accepted hq
              exact .enter hv he hc ht
          · next q hq =>
              cases h
              obtain ⟨hc, rfl⟩ := Queue.resumeOffer_eq_returned hq
              exact .turnBack hv he (.inl hc)
          · next q hq =>
              split at h
              · next hd =>
                  cases h
                  cases Queue.resumeOffer_eq_waiting hq
                  exact .turnBack hv he (.inr hd)
              · cases h
      · next he =>
          split at h
          · next x q hq =>
              cases h
              obtain ⟨rest, hc, ht, hi, rfl⟩ := Queue.resumePoll_eq_item hq
              exact .receive hv he hc ht hi
          · next q hq =>
              cases h
              rcases Queue.resumePoll_eq_nothing hq with ⟨hc, ht, hi, rfl⟩ | ⟨hc, rfl⟩
              · exact .findNone hv he hc ht hi
              · exact .giveUp hv he (.inl hc)
          · next q hq =>
              split at h
              · next hd =>
                  cases h
                  obtain ⟨-, -, rfl⟩ := Queue.resumePoll_eq_waiting hq
                  exact .giveUp hv he (.inr hd)
              · cases h

/-- A visitor that is dropped leaves its line, and gives back what it was promised. -/
theorem drop_deed {t : Ticket} (h : s.drop t = some s') : Deed now s (.drop t) .silent s' := by
  simp only [drop] at h
  split at h
  · cases h
  · next v hv =>
      cases h
      cases he : v.errand with
      | offer x => exact .dropOffer hv he
      | poll => exact .dropPoll hv he

/-- Every action is one of the deeds. -/
theorem step_deed (h : s.step now a = some (o, s')) : Deed now s a o s' := by
  cases a with
  | offer x wait =>
      have hd : Deed now s (.offer x wait) (s.offer now x wait).1 (s.offer now x wait).2 := offer_deed
      rwa [show s.offer now x wait = (o, s') from Option.some.inj h] at hd
  | poll wait =>
      have hd : Deed now s (.poll wait) (s.poll now wait).1 (s.poll now wait).2 := poll_deed
      rwa [show s.poll now wait = (o, s') from Option.some.inj h] at hd
  | resume t =>
      obtain ⟨⟨r, s₁⟩, hr, he⟩ := Option.map_eq_some_iff.mp h
      cases he
      exact resume_deed hr
  | drop t =>
      obtain ⟨s₁, hr, he⟩ := Option.map_eq_some_iff.mp h
      cases he
      exact drop_deed hr
  | drain most =>
      cases h
      exact .drain
  | sealUp =>
      cases h
      exact .sealUp
  | close =>
      cases h
      exact .close
  | closeAndClear =>
      cases h
      exact .clear

end Backpressure.Traffic
