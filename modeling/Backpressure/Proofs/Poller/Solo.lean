import Backpressure.Proofs.Poller.Handling
import Backpressure.Proofs.Queue.Closing
import Backpressure.Proofs.Script

/-!
# A poller on its own

A worker that drives a poller need not belong to a pool.  It is started, told to stop, woken and
dropped by whoever has it, while others offer to its queue, poll it, drain it and end it, and
while the switch for the items that are left is turned on and off.  A run is a sequence of such
actions and of actions of the poller itself, at moments that never go back.

*The worker.*  Its phase, its flag and its loop are changed by different people here: a worker may
be dropped before it is started, or told to stop before.  `Agreed` is what they still have to do
with each other.

*The queue.*  There is a permit for each item, and who asks for a permit is the poller or one of
the visitors that poll (`Promised`).  So an item of a queue that is not closed can always be had
(`Queue.Obtainable`): at once, or by somebody who waits.
-/

namespace Backpressure

variable {α : Type}

/-! ## Items that can be had -/

namespace Queue

/-- An item can be had by whoever asks next, or by one of some tickets that wait. -/
inductive Obtainable (q : Queue α) (tickets : List Ticket) (a : α) : Prop where
  /-- It is free, with or without a wait. -/
  | free (q' : Queue α) (hp : q.tryPoll = (some a, q')) (hw : ∀ t, q.poll t = (.item a, q'))
  | promised (t : Ticket) (q' : Queue α) (ht : t ∈ tickets) (hr : q.resumePoll t = (.item a, q'))

/-- Who was granted a permit gets the oldest item. -/
theorem resumePoll_of_granted {q : Queue α} {t : Ticket} {a : α} {rest : List α}
    (hc : q.ready.closed = false) (ht : t ∈ q.ready.granted) (hi : q.items = a :: rest) :
    ∃ q', q.resumePoll t = (.item a, q') := by
  simp only [resumePoll, Permits.resume_of_granted hc ht, takeFirst, hi]
  exact ⟨_, rfl⟩

/-- The oldest item can be had if all that ask for one are known. -/
theorem Backed.obtainable {q : Queue α} {tickets : List Ticket} {a : α} {rest : List α}
    (hb : q.Backed) (ha : ∀ t, q.ready.asks t ≤ tickets.count t) (hc : q.ready.closed = false)
    (hi : q.items = a :: rest) : q.Obtainable tickets a := by
  have hlength := hb hc
  rw [hi, List.length_cons, Permits.stock] at hlength
  cases hg : q.ready.granted with
  | nil =>
      have hfree : 0 < q.ready.free := by
        rw [hg, List.length_nil] at hlength
        omega
      obtain ⟨a', q', hi', -, hp, hw⟩ := poll_of_free hb hc hfree
      cases hi.symm.trans hi'
      exact .free q' hp hw
  | cons t granted =>
      have ht : t ∈ q.ready.granted := hg ▸ List.mem_cons_self
      obtain ⟨q', hr⟩ := resumePoll_of_granted hc ht hi
      have hasks : 0 < q.ready.asks t :=
        List.count_pos_iff.mpr (List.mem_append_right _ ht)
      have hcount : 0 < tickets.count t := Nat.lt_of_lt_of_le hasks (ha t)
      exact .promised t q' (List.count_pos_iff.mp hcount) hr

end Queue

/-! ## The machine -/

/-- A worker that drives a poller, and the queue with its visitors. -/
structure Solo (α : Type) where
  poller : Poller α
  traffic : Traffic α
  /-- Whether the poller handles what is left when it stops. -/
  drainOnStop : Bool := false
  processed : Nat := 0
  /-- The items handled with a failure or a panic. -/
  failed : Nat := 0

namespace Solo

/-- What happens to a poller on its own. -/
inductive Action (α : Type) where
  | start
  | requestStop
  /-- The owner of its worker goes away. -/
  | drop
  | nudge
  /-- What is left is to be handled from now on, or not. -/
  | drainOnStop (on : Bool)
  /-- Somebody else does something at the queue. -/
  | queue (a : Traffic.Action α)
  | poller (a : Poller.Action)

/-- A poller that was never started, at an empty queue. -/
def ofSettings (s : PollerSettings) (capacity : Nat) : Solo α :=
  { poller := .ofSettings s, traffic := { queue := .ofCapacity capacity } }

def bench (w : Solo α) : Bench α where
  queue := w.traffic.queue
  nextTicket := w.traffic.nextTicket
  drainOnStop := w.drainOnStop
  processed := w.processed
  failed := w.failed

/-- What is left by a poller and its bench. -/
def left (w : Solo α) (p : Poller α) (b : Bench α) : Solo α where
  poller := p
  traffic := { w.traffic with queue := b.queue, nextTicket := b.nextTicket }
  drainOnStop := b.drainOnStop
  processed := b.processed
  failed := b.failed

/-- One action at a moment, with what could be seen of the poller. -/
def step (s : PollerSettings) (now : Instant) (w : Solo α) :
    Action α → Option (List (Poller.Event α) × Solo α)
  | .start => w.poller.worker.start.map fun worker => ([], { w with poller.worker := worker })
  | .requestStop => some ([], { w with poller := w.poller.told })
  | .drop => some ([], { w with poller.worker := w.poller.worker.drop })
  | .nudge => some ([], { w with poller := w.poller.nudge })
  | .drainOnStop on => some ([], { w with drainOnStop := on })
  | .queue a => (w.traffic.step now a).map fun (_, traffic) => ([], { w with traffic })
  | .poller a =>
    (w.poller.step s now w.bench a).map fun o => (o.events, w.left o.poller o.bench)

/-- One action, with its moment, what it found and what came of it. -/
structure Act (α : Type) where
  now : Instant
  action : Action α
  found : Solo α
  events : List (Poller.Event α)
  outcome : Solo α

/-- A run of a poller with some settings at a queue of a capacity, up to a moment. -/
inductive Run (s : PollerSettings) (capacity : Nat) : List (Act α) → Instant → Solo α → Prop where
  | here (t : Instant) : Run s capacity [] t (ofSettings s capacity)
  | act {h : List (Act α)} {t : Instant} {w w' : Solo α} {a : Action α}
      {es : List (Poller.Event α)} : Run s capacity h t w → w.step s t a = some (es, w') →
      Run s capacity (h ++ [⟨t, a, w, es, w'⟩]) t w'
  | pass {h : List (Act α)} {t t' : Instant} {w : Solo α} :
      Run s capacity h t w → t ≤ t' → Run s capacity h t' w

variable {s : PollerSettings} {capacity : Nat} {h k l : List (Act α)} {t now : Instant}
  {w w' : Solo α} {a : Action α} {es : List (Poller.Event α)} {m : Act α}

theorem Run.cut (run : Run s capacity h t w) (hh : h = k ++ m :: l) :
    Run s capacity k m.now m.found ∧ m.found.step s m.now m.action = some (m.events, m.outcome) := by
  induction run generalizing l with
  | here t => simp at hh
  | pass run hle ih => exact ih hh
  | act run hs ih =>
      rcases List.eq_nil_or_concat l with rfl | ⟨l', m', rfl⟩
      · obtain ⟨rfl, hm⟩ := List.append_inj' hh rfl
        cases hm
        exact ⟨run, hs⟩
      · rw [List.concat_eq_append, ← List.cons_append, ← List.append_assoc] at hh
        exact ih (List.append_inj' hh rfl).1

/-! ## Scripts -/

/-- Lets an action happen, and makes a note of it. -/
def note (s : PollerSettings) (t : Instant) (w : Solo α) (a : Action α) :
    Option (Act α × Solo α) :=
  (w.step s t a).map fun (es, w') => (⟨t, a, w, es, w'⟩, w')

theorem Run.enact {script : List (Instant × Action α)} {u : Instant} {r : Solo α}
    (run : Run s capacity h t w)
    (hp : Backpressure.enact (note s) t w script = some (k, u, r)) :
    Run s capacity (h ++ k) u r := by
  refine reach_of_enact (R := Run s capacity) ?act .pass run hp
  case act =>
    intro h t w a m w' run hm
    obtain ⟨⟨es, w'⟩, hs, he⟩ := Option.map_eq_some_iff.mp hm
    cases he
    exact run.act hs

/-! ## The worker -/

/-- The phase, the flag and the loop of a worker whose callers do as they like. -/
structure Agreed {ι η : Type} (w : Worker ι η) : Prop where
  fresh : w.phase = .created → w.place = .unstarted
  /-- A worker that runs or was told to stop has begun its loop. -/
  begun : w.phase = .running ∨ w.phase = .stopRequested → w.place ≠ .unstarted
  told : w.phase = .stopRequested → w.stop = true
  ended : w.place.isFinished → w.phase = .stopped

theorem Agreed.requestStop {ι η : Type} {w : Worker ι η} (hw : Agreed w) :
    Agreed w.requestStop where
  fresh hp := by
    cases hphase : w.phase <;> simp [Worker.requestStop, hphase] at hp
  begun hp := by
    refine hw.begun ?_
    cases hphase : w.phase <;> simp [Worker.requestStop, hphase] at hp ⊢
  told _ := rfl
  ended hl := by
    have hphase := hw.ended hl
    simp [Worker.requestStop, hphase]

theorem Agreed.start {ι η : Type} {w w' : Worker ι η} (h : w.start = some w') : Agreed w' := by
  unfold Worker.start at h
  split at h
  · cases h
    exact ⟨(fun hp => by cases hp), fun _ => by simp, (fun hp => by cases hp),
      (fun hl => by cases hl)⟩
  · cases h

/-- A worker that is not at its end, and has begun, loops or leaves. -/
theorem Agreed.isLooping_or {ι η : Type} {w : Worker ι η} (hw : Agreed w)
    (hp : w.phase = .running ∨ w.phase = .stopRequested) :
    w.place.isLooping ∨ w.place.isLeaving := by
  have hbegun := hw.begun hp
  have hended := hw.ended
  cases hplace : w.place with
  | unstarted => exact absurd hplace hbegun
  | between | inside => exact .inl rfl
  | leaving => exact .inr rfl
  | finished =>
      rw [hplace] at hended
      simp [hended rfl] at hp

/-- What a poller does keeps its phase and its place in agreement. -/
theorem Agreed.deed {p p' : Poller α} {b b' : Bench α} (hw : Agreed p.worker)
    (hd : Poller.Deed p b es p' b') : Agreed p'.worker := by
  -- a passage changes the place, and the phase only where the worker stops
  have hmoves : ∀ {w' : Worker (PollPoint α) (DrainPoint α)},
      p.worker.place.isLooping ∨ p.worker.place.isLeaving →
        w' = { p.worker with place := w'.place } → w'.place.isLooping ∨ w'.place.isLeaving →
        Agreed w' := by
    intro w' hl₀ heq hl
    rw [heq]
    refine ⟨fun hp => ?_, fun _ he => ?_, hw.told, fun hf => ?_⟩
    · rw [hw.fresh hp] at hl₀
      rcases hl₀ with hl₀ | hl₀ <;> cases hl₀
    · rw [he] at hl
      rcases hl with hl | hl <;> cases hl
    · cases hplace : w'.place <;> simp_all [Place.isFinished, Place.isLooping, Place.isLeaving]
  cases hd.passage with
  | loops hl hl' heq => exact hmoves (.inl hl) heq (.inl hl')
  | leaves hl _ hl' heq => exact hmoves (.inl hl) heq (.inr hl')
  | drains hl hl' heq => exact hmoves (.inr hl) heq (.inr hl')
  | ends _ hl' heq =>
      rw [heq]
      exact ⟨(fun hp => by cases hp), (fun hp => by simp at hp), (fun hp => by cases hp), fun _ => rfl⟩

theorem Agreed.nudge {p : Poller α} (hw : Agreed p.worker) : Agreed p.nudge.worker where
  fresh hp := by
    rw [Poller.phase_nudge] at hp
    have hfresh := hw.fresh hp
    simp [Poller.nudge, hfresh]
  begun hp := by
    rw [Poller.phase_nudge] at hp
    have hbegun := hw.begun hp
    simp only [Poller.nudge]
    split
    · simp
    · exact hbegun
  told hp := by
    rw [Poller.phase_nudge] at hp
    rw [Poller.stop_nudge]
    exact hw.told hp
  ended hl := by
    rw [Poller.isFinished_nudge] at hl
    rw [Poller.phase_nudge]
    exact hw.ended hl

theorem Agreed.step (hw : Agreed w.poller.worker) (hs : w.step s now a = some (es, w')) :
    Agreed w'.poller.worker := by
  cases a with
  | start =>
      obtain ⟨worker, hstart, he⟩ := Option.map_eq_some_iff.mp hs
      cases he
      exact .start hstart
  | requestStop =>
      cases hs
      exact hw.requestStop
  | drop =>
      cases hs
      exact ⟨hw.fresh, hw.begun, fun _ => rfl, hw.ended⟩
  | nudge =>
      cases hs
      exact hw.nudge
  | drainOnStop on =>
      cases hs
      exact hw
  | queue b =>
      obtain ⟨o, hstep, he⟩ := Option.map_eq_some_iff.mp hs
      cases he
      exact hw
  | poller b =>
      obtain ⟨o, hstep, he⟩ := Option.map_eq_some_iff.mp hs
      cases he
      exact hw.deed (Poller.step_deed hstep)

theorem Run.agreed (run : Run s capacity h t w) : Agreed w.poller.worker := by
  induction run with
  | here t =>
      refine ⟨fun _ => rfl, fun hp => ?_, (fun hp => by cases hp), (fun hl => by cases hl)⟩
      simp [ofSettings, Poller.ofSettings] at hp
  | act run hs ih => exact ih.step hs
  | pass run hle ih => exact ih

/-! ## The queue -/

/-- The tickets that poll: those of visitors, and that of the poller. -/
def pollers (w : Solo α) : List Ticket := w.traffic.tickets false ++ w.poller.polls

/-- The queue, its visitors and the poller agree on what is promised. -/
structure Promised (w : Solo α) : Prop where
  /-- Each visitor has a ticket of its own. -/
  ticketed : w.traffic.Ticketed
  backed : w.traffic.queue.Backed
  /-- Who asks for a permit polls. -/
  asks : ∀ u, w.traffic.queue.ready.asks u ≤ w.pollers.count u

/-- A visitor that polls takes its ticket along. -/
theorem count_tickets {r : Traffic α} {ticket : Ticket} {v : Visitor α} (ht : r.Ticketed)
    (hv : r.visitor? ticket = some v) (he : v.errand = .poll) (u : Ticket) :
    (r.tickets false).count u = [ticket].count u + ((r.remove ticket).tickets false).count u := by
  have hkind : v.errand.isOffer = false := by rw [he]; rfl
  rw [(ht.perm_tickets hv hkind).1.count_eq u, ← List.singleton_append, List.count_append]

/-- A visitor that polls takes along what it asked for, however many others ask. -/
theorem asks_traffic {b : Traffic.Action α} {o : Traffic.Outcome α} {r r' : Traffic α} {u : Ticket}
    {n : Nat} (ht : r.Ticketed) (hd : Traffic.Deed now r b o r')
    (ha : r.queue.ready.asks u ≤ (r.tickets false).count u + n) :
    r'.queue.ready.asks u ≤ (r'.tickets false).count u + n := by
  cases hd with
  | refuse | sealUp => exact ha
  | accept => exact Nat.le_trans (Nat.le_of_eq (Permits.asks_release 1)) ha
  | lineUp =>
      rw [Traffic.tickets_admitVisitor]
      show r.queue.ready.asks u ≤ (r.tickets false ++ []).count u + n
      rwa [List.append_nil]
  | linger =>
      rw [Traffic.tickets_admitVisitor]
      show (r.queue.ready.enroll r.nextTicket).asks u ≤
        (r.tickets false ++ [r.nextTicket]).count u + n
      rw [Permits.asks_enroll, List.count_append]
      omega
  | take hq | miss hq =>
      -- the permits do not know who takes one
      have hdraws : Poller.Draws (.ofSettings {}) r.queue.ready (.ofSettings {} : Poller α) _ :=
        Poller.tryPoll_draws rfl hq
      exact Nat.le_trans (hdraws.asks_le u) ha
  | enter hv he =>
      have hkind := congrArg Errand.isOffer he
      have hothers := (ht.perm_tickets hv hkind).2
      exact hothers.count_eq u ▸ Nat.le_trans (Nat.le_of_eq (Permits.asks_release 1)) ha
  | turnBack hv he | dropOffer hv he =>
      have hkind := congrArg Errand.isOffer he
      exact (ht.perm_tickets hv hkind).2.count_eq u ▸ ha
  | @receive ticket v x rest hv he hc hg hi =>
      rw [count_tickets ht hv he] at ha
      show (r.queue.without _ rest).ready.asks u ≤ ((r.remove ticket).tickets false).count u + n
      rw [Queue.ready_without, Permits.asks_collect hg]
      omega
  | @findNone ticket v hv he hc hg hi =>
      rw [count_tickets ht hv he] at ha
      show Permits.asks { r.queue.ready with granted := r.queue.ready.granted.erase ticket } u ≤
        ((r.remove ticket).tickets false).count u + n
      rw [Permits.asks_collect hg]
      omega
  | @giveUp ticket v hv he | @dropPoll ticket v hv he =>
      rw [count_tickets ht hv he] at ha
      show (r.queue.ready.leave ticket).asks u ≤ ((r.remove ticket).tickets false).count u + n
      rw [Permits.asks_leave]
      omega
  | @drain most =>
      obtain ⟨k, taken, heq, hr⟩ := r.queue.drain_eq most
      show (r.queue.drain most).2.ready.asks u ≤ _
      rw [heq, Queue.ready_freeSlots]
      rcases hr with ⟨-, -, rfl⟩ | ⟨-, -, rfl⟩ <;> exact ha
  | close | clear => exact Nat.le_trans Permits.asks_close_le ha

/-- Others at the queue keep a permit for each item. -/
theorem backed_traffic {b : Traffic.Action α} {o : Traffic.Outcome α} {r r' : Traffic α}
    (hb : r.queue.Backed) (hd : Traffic.Deed now r b o r') : r'.queue.Backed := by
  cases hd with
  | refuse | sealUp | lineUp | linger | turnBack | dropOffer => exact hb
  | accept | enter =>
      intro hc
      have hlength := hb hc
      simp only [Queue.push, Traffic.remove, List.length_append, List.length_singleton,
        Permits.stock_release]
      exact congrArg Nat.succ hlength
  | take hq | miss hq => exact (Queue.tryPoll_backed hq hb).1
  | receive hv he hc hg hi => exact hb.without hi hc (Permits.stock_collect hg)
  | findNone hv he hc hg hi =>
      -- the permit in hand would be one without an item
      have hlength := hb hc
      rw [hi, Permits.stock_collect hg] at hlength
      cases hlength
  | giveUp | dropPoll => exact Queue.leavePoll_backed _ hb
  | drain => exact Queue.drain_backed _ hb
  | close | clear => exact fun hc => by cases hc

theorem nextTicket_le {p p' : Poller α} {b b' : Bench α} (hd : Poller.Deed p b es p' b') :
    b.nextTicket ≤ b'.nextTicket := by
  cases hd with
  | wait => exact Nat.le_succ _
  | handled hp hh | drained hp hh => rename_i how; cases how <;> exact Nat.le_refl _
  | leave | take | miss | served | unserved | late | quit | rouse | burst | drain | finish
  | shattered => exact Nat.le_refl _

theorem Promised.step (hw : Promised w) (hagreed : Agreed w.poller.worker)
    (hs : w.step s now a = some (es, w')) : Promised w' := by
  cases a with
  | start =>
      obtain ⟨worker, hstart, he⟩ := Option.map_eq_some_iff.mp hs
      cases he
      refine ⟨hw.ticketed, hw.backed, fun u => Nat.le_trans (hw.asks u) ?_⟩
      -- a worker that can be started does not poll yet
      have hnone : w.poller.polls = [] := by
        simp only [Worker.start] at hstart
        split at hstart
        · next hp => simp [Poller.polls, hagreed.fresh hp]
        · cases hstart
      rw [pollers, hnone, List.append_nil, pollers, List.count_append]
      exact Nat.le_add_right _ _
  | requestStop | drop | drainOnStop on =>
      cases hs
      exact ⟨hw.ticketed, hw.backed, hw.asks⟩
  | nudge =>
      cases hs
      refine ⟨hw.ticketed, hw.backed, fun u => ?_⟩
      rw [pollers, Poller.polls_nudge]
      exact hw.asks u
  | queue b =>
      obtain ⟨⟨o, traffic⟩, hstep, he⟩ := Option.map_eq_some_iff.mp hs
      cases he
      have hd := Traffic.step_deed hstep
      refine ⟨hw.ticketed.keep hd, backed_traffic hw.backed hd, fun u => ?_⟩
      have hasks := hw.asks u
      rw [pollers, List.count_append] at hasks ⊢
      exact asks_traffic hw.ticketed hd hasks
  | poller b =>
      obtain ⟨o, hstep, he⟩ := Option.map_eq_some_iff.mp hs
      cases he
      have hd := Poller.step_deed hstep
      refine ⟨⟨hw.ticketed.distinct, fun v hv => ?_⟩, hd.backed hw.backed, fun u => ?_⟩
      · exact Nat.lt_of_lt_of_le (hw.ticketed.fresh v hv) (nextTicket_le hd)
      · have hasks := hw.asks u
        have hdraws := hd.draws.asks_le u
        rw [pollers, List.count_append] at hasks ⊢
        show o.bench.queue.ready.asks u ≤
          (w.traffic.tickets false).count u + o.poller.polls.count u
        simp only [bench] at hdraws
        omega

/-- Along every run the queue is backed, and all who ask for an item are known. -/
theorem Run.promised (run : Run s capacity h t w) : Promised w := by
  induction run with
  | here t =>
      refine ⟨⟨.nil, fun v hv => absurd hv List.not_mem_nil⟩, fun _ => rfl, fun u => ?_⟩
      exact Nat.le_refl _
  | act run hs ih => exact ih.step run.agreed hs
  | pass run hle ih => exact ih

end Solo

end Backpressure
