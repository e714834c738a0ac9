import Backpressure.Proofs.Poller.Life
import Backpressure.Proofs.Queue.Stock

/-!
# Every item is promised or free

As long as a queue is not closed, there is a permit for each of its items: free for
whoever comes next, or granted to a poll that waits.  A granted permit is not in hand
yet, so an item can be overlooked only while somebody polls.

*Asking.*  A ticket asks for a permit while it waits or was granted one.  The tickets
that ask are tickets of polls that wait, and a poll that ends takes its ticket with it.

*Stopping.*  A poller that was told to stop does not begin to poll, and if it is to
handle what is left, its hook ends only when no permit is free.
-/

namespace Backpressure

variable {α : Type}

namespace Poller

/-- The ticket of a poll that waits, if any. -/
def polls (p : Poller α) : List Ticket :=
  match p.worker.place with
  | .inside (.polling t _) => [t]
  | _ => []

variable {p p' : Poller α} {b b' : Bench α} {r r' : Permits} {es : List (Event α)}

theorem polls_of_finished (h : p.worker.place.isFinished) : p.polls = [] := by
  simp only [polls]
  split
  · next hp =>
      rw [hp] at h
      cases h
  · rfl

@[simp] theorem polls_nudge : p.nudge.polls = p.polls := by
  simp only [nudge]
  split
  · next hp => simp [polls, hp]
  · rfl

@[simp] theorem stop_nudge : p.nudge.worker.stop = p.worker.stop := by
  simp only [nudge]
  split <;> rfl

@[simp] theorem isFinished_nudge : p.nudge.worker.place.isFinished = p.worker.place.isFinished := by
  simp only [nudge]
  split
  · next hp => rw [hp]; rfl
  · rfl

theorem Lull.polls {place : Place (PollPoint α) (DrainPoint α)} (hl : Lull place es) :
    (p.moved place).polls = [] := by
  cases hl <;> rfl

/-! ## Items and permits -/

/-- Every deed keeps a permit for each item. -/
theorem Deed.backed (hd : Deed p b es p' b') (hb : b.queue.Backed) : b'.queue.Backed := by
  cases hd with
  | leave | rouse | burst | shattered => exact hb
  | wait hp hs hq =>
      obtain ⟨-, -, rfl⟩ := Queue.poll_eq_waiting hq
      exact hb
  | take idle hp hs hq | drain hp hd hq => exact (Queue.tryPoll_backed hq hb).1
  | miss hp hs hq hl => exact (Queue.tryPoll_backed hq hb).1
  | served idle hp hq =>
      obtain ⟨rest, hc, ht, hi, rfl⟩ := Queue.resumePoll_eq_item hq
      exact hb.without hi hc (Permits.stock_collect ht)
  | unserved hp hq hl =>
      rcases Queue.resumePoll_eq_nothing hq with ⟨hc, ht, hi, rfl⟩ | ⟨-, rfl⟩
      · have hlength := hb hc
        rw [hi, Permits.stock_collect ht] at hlength
        cases hlength
      · exact Queue.leavePoll_backed _ hb
  | late | quit => exact Queue.leavePoll_backed _ hb
  | handled | drained => rwa [queue_tally]
  | finish hp hq =>
      split at hq
      · exact (Queue.tryPoll_backed hq hb).1
      · rwa [hq]

/-- What a deed does to the permits for items. -/
inductive Draws (p : Poller α) (r : Permits) (p' : Poller α) : Permits → Prop where
  /-- Nothing. -/
  | keeps (hp : p.polls = []) : Draws p r p' r
  /-- A free permit is taken. -/
  | takes {r' : Permits} (hp : p.polls = []) (hr : r.tryTake = some r') : Draws p r p' r'
  /-- A poll begins to wait. -/
  | enrolls {t : Ticket} (hp : p.polls = []) (hp' : p'.polls = [t]) : Draws p r p' (r.enroll t)
  /-- A poll that waited collects its permit. -/
  | collects {t : Ticket} (hp : p.polls = [t]) (ht : t ∈ r.granted) :
      Draws p r p' { r with granted := r.granted.erase t }
  /-- A poll that waited is given up. -/
  | leaves {t : Ticket} (hp : p.polls = [t]) : Draws p r p' (r.leave t)

theorem tryPoll_draws {q q' : Queue α} {item : Option α} (hp : p.polls = [])
    (hq : q.tryPoll = (item, q')) : Draws p q.ready p' q'.ready := by
  cases item with
  | some a =>
      obtain ⟨r, rest, hr, -, rfl⟩ := Queue.tryPoll_eq_some hq
      rw [Queue.ready_without]
      exact .takes hp hr
  | none =>
      rcases Queue.tryPoll_eq_none hq with ⟨-, rfl⟩ | ⟨r, hr, -, rfl⟩
      · exact .keeps hp
      · exact .takes hp hr

theorem Deed.draws (hd : Deed p b es p' b') : Draws p b.queue.ready p' b'.queue.ready := by
  cases hd with
  | leave hp | rouse idle hp | burst hp | shattered hp => exact .keeps (by simp [polls, hp])
  | wait hp hs hq =>
      obtain ⟨-, -, rfl⟩ := Queue.poll_eq_waiting hq
      exact .enrolls (by simp [polls, hp]) rfl
  | take idle hp hs hq | drain hp hd hq => exact tryPoll_draws (by simp [polls, hp]) hq
  | miss hp hs hq hl => exact tryPoll_draws (by simp [polls, hp]) hq
  | served idle hp hq =>
      obtain ⟨rest, -, ht, -, rfl⟩ := Queue.resumePoll_eq_item hq
      rw [Queue.ready_without]
      exact .collects (by simp [polls, hp]) ht
  | unserved hp hq hl =>
      rcases Queue.resumePoll_eq_nothing hq with ⟨-, ht, -, rfl⟩ | ⟨-, rfl⟩
      · exact .collects (by simp [polls, hp]) ht
      · exact .leaves (by simp [polls, hp])
  | late hp | quit hp => exact .leaves (by simp [polls, hp])
  | handled hp | drained hp =>
      rw [queue_tally]
      exact .keeps (by simp [polls, hp])
  | finish hp hq =>
      split at hq
      · exact tryPoll_draws (by simp [polls, hp]) hq
      · rw [hq]
        exact .keeps (by simp [polls, hp])

/-- The ticket of a poll that ends leaves the queue, and that of a poll that begins enters it. -/
theorem Draws.asks_le (h : Draws p r p' r') (u : Ticket) :
    r'.asks u ≤ r.asks u - p.polls.count u + p'.polls.count u := by
  cases h with
  | keeps hp => simp [hp]
  | takes hp hr => simp [hp, Permits.asks_of_tryTake hr]
  | enrolls hp hp' => simp [hp, hp']
  | collects hp ht => simp [hp, Permits.asks_collect ht]
  | leaves hp => simp [hp]

theorem Draws.closed_eq (h : Draws p r p' r') : r'.closed = r.closed := by
  cases h with
  | takes hp hr => exact Permits.closed_of_tryTake hr
  | keeps | enrolls | collects => rfl
  | leaves => exact Permits.closed_leave

/-- A permit becomes free only when somebody gives up a poll. -/
theorem Draws.free_le (h : Draws p r p' r') (hp : p.polls = []) : r'.free ≤ r.free := by
  cases h with
  | takes hp' hr => exact Permits.free_of_tryTake hr
  | keeps | enrolls => exact Nat.le_refl _
  | collects hp' | leaves hp' => simp [hp] at hp'

/-- A poll that is given up frees one permit at most. -/
theorem Draws.free_le_succ (h : Draws p r p' r') : r'.free ≤ r.free + 1 := by
  cases h with
  | takes hp hr => exact Nat.le_succ_of_le (Permits.free_of_tryTake hr)
  | keeps | enrolls | collects => exact Nat.le_succ _
  | leaves => exact Permits.free_leave_le

/-! ## Stopping -/

theorem Deed.stop_eq (hd : Deed p b es p' b') : p'.worker.stop = p.worker.stop := by
  cases hd.passage with
  | loops _ _ hw | leaves _ _ _ hw | drains _ _ hw | ends _ _ hw => rw [hw]

/-- A poller that was told to stop does not begin to poll. -/
theorem Deed.polls_of_stop (hd : Deed p b es p' b') (hs : p.worker.stop = true) :
    p'.polls = [] := by
  cases hd with
  | wait hp hs' => rw [hs] at hs'; cases hs'
  | miss hp hs' hq hl | unserved hp hq hl | late hp hq hl => exact hl.polls
  | leave | take | served | quit | rouse | handled | burst | drain | finish | drained
  | shattered => rfl

theorem Deed.drainOnStop_eq (hd : Deed p b es p' b') : b'.drainOnStop = b.drainOnStop := by
  cases hd with
  | handled | drained => exact drainOnStop_tally _
  | leave | wait | take | miss | served | unserved | late | quit | rouse | burst | drain | finish
  | shattered => rfl

/-- A poller that is to handle what is left ends only when no permit is free, unless a handler
panics when it is called. -/
theorem Deed.free_eq_zero (hd : Deed p b es p' b') (he : p'.worker.place.isFinished)
    (hdrain : b.drainOnStop = true) (hc : b.queue.ready.closed = false) (hb : b.queue.Backed)
    (hl : es.flatMap Event.itemLost = []) : b'.queue.ready.free = 0 := by
  cases hd with
  | finish hp hq =>
      rw [if_pos hdrain] at hq
      obtain ⟨rfl, hnone⟩ := (Queue.tryPoll_backed hq hb).2 rfl
      rw [Permits.tryTake_eq_none, hc] at hnone
      exact hnone.resolve_left (by intro h; cases h)
  | shattered => cases hl
  | miss hp hs hq hl' | unserved hp hq hl' | late hp hq hl' => cases hl' <;> cases he
  | leave | wait | take | served | quit | rouse | handled | burst | drain | drained => cases he

end Poller

end Backpressure
