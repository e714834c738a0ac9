import Backpressure.Proofs.Poller.Deeds

/-!
# What flows through a poller

An item that a poller takes comes from the front of the queue and stays in hand
until its handling has ended.  The end is counted, unless the handler panicked
when it was called.

`Poller.Flow` says so of a stretch of events with the poller and the bench before
and after it, and `Poller.Deed.flow` says it of every deed.
-/

namespace Backpressure

variable {α : Type}

/-- The item that is in hand at a place, if any. -/
def Place.held : Place (PollPoint α) (DrainPoint α) → List α
  | .inside (.handling a) | .leaving _ (.handling a) => [a]
  | _ => []

namespace Poller

/-- The item that a poller has in hand, if any. -/
def held (p : Poller α) : List α := p.worker.place.held

namespace Event

/-- The item whose handling begins. -/
def itemBegun : Event α → List α
  | .began a => [a]
  | _ => []

/-- The item whose handling ends. -/
def itemEnded : Event α → List α
  | .ended a _ => [a]
  | _ => []

/-- The item whose handling ends without being counted. -/
def itemLost : Event α → List α
  | .ended a .burst => [a]
  | _ => []

/-- The item whose handling ends, with the way in which it does. -/
def ends : Event α → List (α × HandlerEnd)
  | .ended a how => [(a, how)]
  | _ => []

theorem map_fst_ends (e : Event α) : e.ends.map (·.1) = e.itemEnded := by
  cases e <;> rfl

theorem itemLost_of_ends {e : Event α} (h : e.ends = []) : e.itemLost = [] := by
  cases e with
  | ended a how => cases h
  | _ => rfl

end Event

/-- What flows through a poller between two moments. -/
structure Flow (p : Poller α) (b : Bench α) (es : List (Event α)) (p' : Poller α) (b' : Bench α) :
    Prop where
  /-- Items are taken from the front of the queue. -/
  items : b.queue.items = es.flatMap Event.itemBegun ++ b'.queue.items
  /-- What was in hand or was taken is in hand or has ended. -/
  hands : (p.held ++ es.flatMap Event.itemBegun).Perm (p'.held ++ es.flatMap Event.itemEnded)
  /-- What has ended is counted or lost. -/
  counts : b'.processed + b'.failed + (es.flatMap Event.itemLost).length =
    b.processed + b.failed + (es.flatMap Event.itemEnded).length
  /-- The poller counts what the bench counts as handled well. -/
  own : b'.processed + p.processed = b.processed + p'.processed

variable {p p' : Poller α} {b b' : Bench α} {es : List (Event α)}

@[simp] theorem held_moved (place : Place (PollPoint α) (DrainPoint α)) :
    (p.moved place).held = place.held := rfl

@[simp] theorem held_retired (reason : ExitReason) : (p.retired reason).held = [] := rfl

@[simp] theorem processed_moved (place : Place (PollPoint α) (DrainPoint α)) :
    (p.moved place).processed = p.processed := rfl

@[simp] theorem held_nudge : p.nudge.held = p.held := by
  simp only [nudge]
  split
  · next hp => simp [held, hp, Place.held]
  · rfl

@[simp] theorem processed_nudge : p.nudge.processed = p.processed := by
  simp only [nudge]
  split <;> rfl

/-- A poller without an item takes one. -/
theorem Flow.take {place : Place (PollPoint α) (DrainPoint α)} {a : α} {q : Queue α} {n : Ticket}
    (idle : Duration) (hp : p.held = []) (hplace : place.held = [a])
    (hq : b.queue.items = a :: q.items) :
    Flow p b [.began a] ({ p with idle }.moved place) { b with queue := q, nextTicket := n } where
  items := hq
  hands := by simp [hp, hplace, Event.itemBegun, Event.itemEnded]
  counts := rfl
  own := rfl

/-- The handling of an item ends and is counted. -/
theorem Flow.tally {place : Place (PollPoint α) (DrainPoint α)} {a : α} {how : HandlerEnd}
    (hp : p.held = [a]) (hplace : place.held = []) (hh : how ≠ .burst)
    (hes : es = [] ∨ es = [.iterated]) :
    Flow p b (.ended a how :: es) ((p.tally how b).1.moved place) (p.tally how b).2 := by
  have hevents : (Event.ended a how :: es).flatMap Event.itemBegun = [] ∧
      (Event.ended a how :: es).flatMap Event.itemEnded = [a] ∧
      (Event.ended a how :: es).flatMap Event.itemLost = [] := by
    rcases hes with rfl | rfl <;> cases how <;> first | exact ⟨rfl, rfl, rfl⟩ | exact absurd rfl hh
  obtain ⟨hb, he, hl⟩ := hevents
  refine ⟨by simp [hb], by simp [hp, hb, he, hplace], ?_, ?_⟩
  · rw [he, hl]
    cases how with
    | handled => simp [Poller.tally, Nat.add_right_comm]
    | failed | panicked => rfl
    | burst => exact absurd rfl hh
  · cases how with
    | handled => exact Nat.add_right_comm _ _ _
    | failed | panicked | burst => rfl

/-- The handler of an item panics when it is called. -/
theorem Flow.burst {a : α} {e : Event α} (hp : p.held = [a]) (hp' : p'.held = [])
    (hc : p'.processed = p.processed) (he : e = .panicked ∨ e = .left true) :
    Flow p b [.ended a .burst, e] p' b := by
  rcases he with rfl | rfl <;>
    exact ⟨rfl, by simp [hp, hp', Event.itemBegun, Event.itemEnded], rfl, by rw [hc]⟩

/-- Nothing flows while a poller has no item in hand and takes none. -/
theorem Flow.idle (hp : p.held = []) (hp' : p'.held = []) (hq : b'.queue.items = b.queue.items)
    (hc : b'.processed = b.processed) (hf : b'.failed = b.failed)
    (hown : p'.processed = p.processed)
    (hes : ∀ e ∈ es, e = .iterated ∨ e = .panicked ∨ ∃ panicked, e = .left panicked) :
    Flow p b es p' b' := by
  have hevents : es.flatMap Event.itemBegun = [] ∧ es.flatMap Event.itemEnded = [] ∧
      es.flatMap Event.itemLost = [] := by
    simp only [List.flatMap_eq_nil_iff]
    refine ⟨?_, ?_, ?_⟩
    all_goals
      intro e he
      rcases hes e he with rfl | rfl | ⟨panicked, rfl⟩ <;> rfl
  obtain ⟨hb, he, hl⟩ := hevents
  exact ⟨by simp [hb, hq], by simp [hb, he, hp, hp'], by simp [he, hl, hc, hf], by simp [hc, hown]⟩

theorem Lull.quiet {place : Place (PollPoint α) (DrainPoint α)} (hl : Lull place es) :
    place.held = [] ∧ ∀ e ∈ es, e = .iterated ∨ e = .panicked ∨ ∃ panicked, e = .left panicked := by
  cases hl with
  | sleep => simp [Place.held]
  | panic => simp [Place.held]

/-- Every deed is a flow. -/
theorem Deed.flow (hd : Deed p b es p' b') : Flow p b es p' b' := by
  cases hd with
  | leave hp hs => exact .idle (by rw [held, hp]; rfl) rfl rfl rfl rfl rfl (by simp)
  | wait hp hs hq =>
      obtain ⟨-, -, rfl⟩ := Queue.poll_eq_waiting hq
      exact .idle (by rw [held, hp]; rfl) rfl rfl rfl rfl rfl (by simp)
  | take idle hp hs hq =>
      exact .take idle (by rw [held, hp]; rfl) rfl (Queue.items_of_tryPoll_some hq)
  | miss hp hs hq hl =>
      exact .idle (by rw [held, hp]; rfl) hl.quiet.1 (Queue.items_of_tryPoll_none hq) rfl rfl rfl hl.quiet.2
  | served idle hp hq =>
      obtain ⟨rest, -, -, hi, rfl⟩ := Queue.resumePoll_eq_item hq
      exact .take idle (by rw [held, hp]; rfl) rfl (by rw [hi, Queue.items_without])
  | unserved hp hq hl =>
      refine .idle (by rw [held, hp]; rfl) hl.quiet.1 ?_ rfl rfl rfl hl.quiet.2
      rcases Queue.resumePoll_eq_nothing hq with ⟨-, -, -, rfl⟩ | ⟨-, rfl⟩ <;> rfl
  | late hp hq hl => exact .idle (by rw [held, hp]; rfl) hl.quiet.1 rfl rfl rfl rfl hl.quiet.2
  | quit hp hs => exact .idle (by rw [held, hp]; rfl) rfl rfl rfl rfl rfl (by simp)
  | rouse idle hp he =>
      exact .idle (by rw [held, hp]; rfl) rfl rfl rfl rfl rfl (by rcases he with rfl | rfl <;> simp)
  | handled hp hh => exact .tally (by rw [held, hp]; rfl) rfl hh (.inr rfl)
  | burst hp => exact .burst (by rw [held, hp]; rfl) rfl rfl (.inl rfl)
  | drain hp hd hq => exact .take p.idle (by rw [held, hp]; rfl) rfl (Queue.items_of_tryPoll_some hq)
  | finish hp hq =>
      refine .idle (by rw [held, hp]; rfl) rfl ?_ rfl rfl rfl (by simp)
      split at hq
      · exact Queue.items_of_tryPoll_none hq
      · rw [hq]
  | drained hp hh => exact .tally (by rw [held, hp]; rfl) rfl hh (.inl rfl)
  | shattered hp => exact .burst (by rw [held, hp]; rfl) rfl rfl (.inr rfl)

/-- While an item is in hand, nothing happens but the end of its handling. -/
theorem handled_of_held {s : PollerSettings} {now : Instant} {a : Action} {o : Outcome α}
    (hp : p.held ≠ []) (h : p.step s now b a = some o) :
    ∃ item how rest, a = .handled how ∧ o.events = .ended item how :: rest := by
  simp only [held, Place.held] at hp
  split at hp
  · next item hplace =>
      cases a <;> simp [step, turn, look, quit, rise, wake, drain, put, Worker.turn, hplace] at h
      next how =>
        simp only [Poller.handled, hplace] at h
        obtain ⟨o', -, rfl⟩ := Option.map_eq_some_iff.mp h
        exact ⟨item, how, _, rfl, rfl⟩
  · next reason item hplace =>
      cases a <;> simp [step, turn, look, quit, rise, wake, drain, put, Worker.turn, hplace] at h
      next how =>
        simp only [Poller.handled, hplace] at h
        split at h <;> obtain ⟨o', -, rfl⟩ := Option.map_eq_some_iff.mp h <;>
          exact ⟨item, how, _, rfl, rfl⟩
  · exact absurd rfl hp

theorem Deed.itemLost (hd : Deed p b es p' b') :
    es.flatMap Event.itemLost = [] ∨ p.held ≠ [] ∧ ∃ item e, es = [.ended item .burst, e] := by
  cases hd with
  | leave | wait | take | served | quit | drain | finish => exact .inl rfl
  | miss hp hs hq hl | unserved hp hq hl | late hp hq hl =>
      left
      cases hl <;> rfl
  | rouse idle hp he =>
      left
      rcases he with rfl | rfl <;> rfl
  | @handled a how hp hh | @drained reason a how hp hh =>
      left
      cases how <;> first | rfl | exact absurd rfl hh
  | burst hp | shattered hp => exact .inr ⟨by simp [held, hp, Place.held], _, _, rfl⟩

/-- Nothing is lost unless a handler panics when it is called. -/
theorem itemLost_of_ne_burst {s : PollerSettings} {now : Instant} {a : Action} {o : Outcome α}
    (ha : a ≠ .handled .burst) (h : p.step s now b a = some o) :
    o.events.flatMap Event.itemLost = [] := by
  cases (step_deed h).itemLost with
  | inl hl => exact hl
  | inr hr =>
      obtain ⟨hp, item, e, he⟩ := hr
      obtain ⟨item', how, rest, rfl, he'⟩ := handled_of_held hp h
      rw [he] at he'
      cases he'
      exact absurd rfl ha

end Poller

end Backpressure
