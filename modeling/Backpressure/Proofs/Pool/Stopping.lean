import Backpressure.Proofs.Poller.Solo
import Backpressure.Proofs.Pool.Crew
import Backpressure.Proofs.Pool.Promises

/-!
# A stop reaches whoever waits

The flag is looked at in every place where a poller waits: a poll gives way to it, an idle sleep
does, and the loop looks at it between two iterations.  So a poller that was told to stop can
always go on by itself, unless a handler has an item of it (`engaged_of_rests`).  The end of a
handling is up to the handler.

*A poll that gives way* takes nothing out of the queue, even if an item was just promised to it.
The permit goes back, to the first who waits or to whoever asks next, so the item can be had by
somebody else (`Queue.Obtainable`), or by the hook of the same poller.
-/

namespace Backpressure

variable {α : Type}

/-- A worker that was told to stop, or whose owner is gone, and that has not stopped yet. -/
def Worker.IsStopping {ι η : Type} (w : Worker ι η) : Prop :=
  w.phase = .stopRequested ∨ w.phase = .running ∧ w.stop = true

namespace Poller

variable {s : PollerSettings} {now : Instant} {p p' : Poller α} {b b' : Bench α}
  {es : List (Event α)}

/-- Whether an action is one that a poller does by itself, not the end of a handling. -/
def Action.IsOwn : Action → Prop
  | .handled _ => False
  | _ => True

/-- Nothing that a poller does by itself can happen. -/
def Rests (s : PollerSettings) (now : Instant) (p : Poller α) (b : Bench α) : Prop :=
  ∀ a : Action, a.IsOwn → p.step s now b a = none

/-- A handler has an item of the poller. -/
inductive Engaged (p : Poller α) : Prop where
  | inside (a : α) (hp : p.worker.place = .inside (.handling a))
  | hook (reason : ExitReason) (a : α) (hp : p.worker.place = .leaving reason (.handling a))

theorem quit_isSome (s : PollerSettings) (now : Instant) (b : Bench α) {point : PollPoint α}
    (hs : p.worker.stop = true)
    (hp : p.worker.place = .inside point) (hn : ∀ a, point ≠ .handling a) :
    (p.step s now b .quit).isSome := by
  cases point with
  | handling a => exact absurd rfl (hn a)
  | polling ticket deadline | idling ends woken =>
      simp only [step, quit, hs, hp, if_true, finish_eq hp, Option.isSome_some]

theorem drain_isSome (s : PollerSettings) (now : Instant) (b : Bench α) {reason : ExitReason}
    (hp : p.worker.place = .leaving reason .next) :
    (p.step s now b .drain).isSome := by
  simp only [step, drain, hp, put_moveHook _ hp, put_finishHook hp]
  split
  · split <;> rfl
  · rfl

/-- A poller that was told to stop rests only while a handler has an item of it. -/
theorem engaged_of_rests (hs : p.worker.stop = true)
    (hl : p.worker.place.isLooping ∨ p.worker.place.isLeaving) (hr : p.Rests s now b) :
    p.Engaged := by
  cases hp : p.worker.place with
  | unstarted | finished =>
      rw [hp] at hl
      rcases hl with hl | hl <;> cases hl
  | between aside =>
      have hnone := hr (.turn 0) trivial
      simp only [step, turn, put_turn _ hp, hs, if_true, worker_moved] at hnone
      cases hnone
  | inside point =>
      cases point with
      | handling a => exact .inside a hp
      | polling ticket deadline | idling ends woken =>
          have hsome := quit_isSome s now b hs hp (by simp)
          rw [hr .quit trivial] at hsome
          cases hsome
  | leaving reason point =>
      cases point with
      | handling a => exact .hook reason a hp
      | next =>
          have hsome := drain_isSome s now b hp
          rw [hr .drain trivial] at hsome
          cases hsome

/-- What gives way to a stop leaves the items as they are, begins no handling and polls no more. -/
theorem quit_yields {o : Outcome α} (h : p.step s now b .quit = some o) :
    o.bench.queue.items = b.queue.items ∧ (∀ a, Event.began a ∉ o.events) ∧ o.poller.polls = [] := by
  simp only [step, quit] at h
  split at h
  · split at h
    · next ticket deadline hp =>
        rw [finish_eq hp] at h
        cases h
        exact ⟨rfl, by simp, rfl⟩
    · next ends woken hp =>
        rw [finish_eq hp] at h
        cases h
        exact ⟨rfl, by simp, rfl⟩
    · cases h
  · cases h

end Poller

/-! ## A poller on its own -/

namespace Solo

/-- What a stop comes to for a poller on its own. -/
structure Stops (s : PollerSettings) (now : Instant) (w : Solo α) : Prop where
  /-- While it is to stop it rests only when a handler has an item of it. -/
  engaged : w.poller.Rests s now w.bench → w.poller.worker.IsStopping → w.poller.Engaged
  /-- When it gives way to the stop no item is taken, and the oldest can be had by somebody who
  waits or by whoever asks next. -/
  yields : ∀ es w', w.step s now (.poller .quit) = some (es, w') →
    w'.traffic.queue.items = w.traffic.queue.items ∧ (∀ a, Poller.Event.began a ∉ es) ∧
      ∀ a rest, w.traffic.queue.items = a :: rest → w.traffic.queue.isClosed = false →
        w'.traffic.queue.Obtainable (w'.traffic.tickets false) a

theorem Run.stops {s : PollerSettings} {capacity : Nat} {h : List (Act α)} {t : Instant}
    {w : Solo α} (run : Run s capacity h t w) : Stops s t w where
  engaged hr hw := by
    have hagreed := run.agreed
    have hstop : w.poller.worker.stop = true := hw.elim hagreed.told And.right
    exact Poller.engaged_of_rests hstop (hagreed.isLooping_or (hw.symm.imp_left And.left)) hr
  yields es w' hs := by
    have hpromised := (run.act hs).promised
    obtain ⟨o, hstep, he⟩ := Option.map_eq_some_iff.mp hs
    cases he
    obtain ⟨hitems, hnone, hpolls⟩ := Poller.quit_yields hstep
    refine ⟨hitems, hnone, fun a rest hi hc => ?_⟩
    have hopen : o.bench.queue.ready.closed = false :=
      (Poller.step_deed hstep).draws.closed_eq.trans hc
    refine hpromised.backed.obtainable (fun u => ?_) hopen (hitems.trans hi)
    have hasks := hpromised.asks u
    rwa [pollers, left, hpolls, List.append_nil] at hasks

end Solo

/-! ## The members of a pool -/

namespace Pool

/-- Whether an action is one that a pool does by itself: no call of somebody outside, and not the
end of a handling. -/
def Action.IsOwn : Action α → Prop
  | .member _ a => a.IsOwn
  | .scaler _ | .resume _ => True
  | .start | .offer _ _ | .shutdown _ | .flush => False

/-- Nothing that a pool does by itself can happen before time passes. -/
def IsSettled (now : Instant) (p : Pool α) : Prop :=
  ∀ env (a : Action α), a.IsOwn → p.step env now a = none

variable {p : Pool α} {now t₀ t : Instant} {R : Regime α} {settings : PoolSettings} {h : History α}

theorem IsSettled.rests (hs : p.IsSettled now) {m : Member α} (hm : m ∈ p.crew) :
    m.poller.Rests p.settings.poller now p.bench := by
  obtain ⟨i, hi⟩ := List.mem_iff_getElem?.mp hm
  intro a ha
  cases hstep : m.poller.step p.settings.poller now p.bench a with
  | none => rfl
  | some w =>
      have hsome := step_member calm hi hstep
      rw [hs calm (.member i a) ha] at hsome
      cases hsome

/-- What a stop comes to for the members of a pool. -/
structure Stops (now : Instant) (p : Pool α) : Prop where
  /-- In a settled state a member that is to stop is one of which a handler has an item. -/
  engaged : p.IsSettled now → ∀ m ∈ p.crew, m.poller.worker.IsStopping → m.poller.Engaged
  /-- When a member gives way to the stop no item is taken, and the oldest can be had by a member
  that waits or by whoever asks next. -/
  yields : ∀ env i o, p.step env now (.member i .quit) = some o →
    o.pool.bench.queue.items = p.bench.queue.items ∧
      (∀ j a, PoolEvent.poller j (.began a) ∉ o.events) ∧
      ∀ a rest, p.bench.queue.items = a :: rest → p.bench.queue.isClosed = false →
        o.pool.bench.queue.Obtainable o.pool.polls a

theorem Run.stops (run : Run R t₀ (ofSettings settings) h t p) : Stops t p where
  engaged hs m hm hw := by
    have hsound := run.sound m hm
    refine Poller.engaged_of_rests ?_ ?_ (hs.rests hm)
    · cases hsound with
      | running hp hstop hl => exact hw.elim (fun hp' => by simp [hp] at hp') And.right
      | told hp hstop hl | stopped hp hstop hl => exact hstop
    · cases hsound with
      | running hp hstop hl => exact .inl hl
      | told hp hstop hl => exact hl
      | stopped hp hstop hl => simp [Worker.IsStopping, hp] at hw
  yields env i o hs := by
    have hpromised : Promised o.pool := run.promised.keep (step_deed hs)
    obtain ⟨m, w, hm, hstep, rfl⟩ := memberStep_eq_some.mp hs
    obtain ⟨hitems, hnone, -⟩ := Poller.quit_yields hstep
    refine ⟨hitems, fun j a hin => ?_, fun a rest hi hc => ?_⟩
    · obtain ⟨e, he, heq⟩ := List.mem_map.mp hin
      cases heq
      exact hnone a he
    · have hopen : w.bench.queue.ready.closed = false :=
        (Poller.step_deed hstep).draws.closed_eq.trans hc
      exact hpromised.backed.obtainable hpromised.asks hopen (hitems.trans hi)

end Pool

/-- A stop reaches every poller that waits, on its own or in a pool, whatever the settings, the
handlers and the others at the queue do. -/
theorem stop_reaches :
    (∀ (s : PollerSettings) (capacity : Nat) (h : List (Solo.Act α)) (t : Instant) (w : Solo α),
      Solo.Run s capacity h t w → Solo.Stops s t w) ∧
    ∀ (R : Pool.Regime α) (t₀ : Instant) (settings : PoolSettings) (h : Pool.History α)
      (t : Instant) (p : Pool α), Pool.Run R t₀ (Pool.ofSettings settings) h t p →
        Pool.Stops t p :=
  ⟨fun _ _ _ _ _ run => run.stops, fun _ _ _ _ _ _ run => run.stops⟩

/-- An item comes for a poller that waits for one, and the stop wins.  The hook takes the item. -/
def outrun : List (Instant × Solo.Action Nat) :=
  [(0, .start), (0, .poller (.turn 0)), (0, .queue (.offer 7 0)), (0, .drainOnStop true),
    (0, .requestStop), (0, .poller .quit), (0, .poller (.turn 0)), (0, .poller .drain)]

/-- An item comes for a member that waits for one, and the pool is shut down. -/
def overtaken : List (Instant × Pool.Action Nat) :=
  [(0, .start), (0, .member 0 (.turn 0)), (0, .offer 7 0), (0, .shutdown true), (0, .scaler .turn),
    (0, .scaler .leave), (0, .resume 2)]

theorem reached_of_outrun :
    (∃ h t w, enact (Solo.note {}) 0 (.ofSettings {} 4) outrun = some (h, t, w) ∧
      w.poller.Rests {} t w.bench ∧ w.poller.worker.IsStopping ∧ w.poller.Engaged ∧
      w.traffic.queue.items = []) ∧
    ∃ h t p o, (Pool.ofSettings Pool.hasty).play Pool.calm 0 overtaken = some (h, t, p) ∧
      p.step Pool.calm t (.member 0 .quit) = some o ∧ p.polls = [0] ∧
      o.pool.bench.queue.items = [7] ∧ o.pool.bench.queue.Obtainable o.pool.polls 7 := by
  constructor
  · have hplay : (enact (Solo.note {}) 0 (.ofSettings {} 4) outrun).map (fun w =>
        (w.2.2.poller.worker.phase, w.2.2.poller.worker.place, w.2.2.traffic.queue.items)) =
        some (.stopRequested, .leaving .stopRequested (.handling 7), []) := by
      decide +kernel
    obtain ⟨⟨h, t, w⟩, hp, hread⟩ := Option.map_eq_some_iff.mp hplay
    simp only [Prod.mk.injEq] at hread
    obtain ⟨hphase, hplace, hitems⟩ := hread
    have run : Solo.Run {} 4 ([] ++ h) t w := (Solo.Run.here 0).enact hp
    have hrests : w.poller.Rests {} t w.bench := by
      intro a ha
      cases a with
      | handled how => cases ha
      | turn draw =>
          simp [Poller.step, Poller.turn, Poller.put, Worker.turn, hplace]
      | look draw => simp [Poller.step, Poller.look, hplace]
      | quit => simp [Poller.step, Poller.quit, hplace]
      | rise => simp [Poller.step, Poller.rise, hplace]
      | wake => simp [Poller.step, Poller.wake, hplace]
      | drain => simp [Poller.step, Poller.drain, hplace]
    exact ⟨h, t, w, hp, hrests, .inl hphase,
      (stop_reaches.1 _ _ _ _ _ run).engaged hrests (.inl hphase), hitems⟩
  · have hplay : ((Pool.ofSettings Pool.hasty).play Pool.calm 0 overtaken).map (fun w =>
        (w.2.2.bench.queue.items, w.2.2.bench.queue.isClosed, w.2.2.polls,
          (w.2.2.step Pool.calm w.2.1 (.member 0 .quit)).map fun o => o.pool.bench.queue.items)) =
        some ([7], false, [0], some [7]) := by
      decide +kernel
    obtain ⟨h, t, p, hp, hread⟩ := Pool.play_of_map hplay
    simp only [Prod.mk.injEq] at hread
    obtain ⟨hitems, hopen, hpolls, hquit⟩ := hread
    obtain ⟨o, hs, hleft⟩ := Option.map_eq_some_iff.mp hquit
    have run : Pool.Run .any 0 _ h t p :=
      Pool.Run.play (fun _ _ _ => trivial) hp
    obtain ⟨-, -, hobtain⟩ := (stop_reaches.2 _ _ _ _ _ _ run).yields _ _ _ hs
    exact ⟨h, t, p, o, hp, hs, hpolls, hleft, hobtain 7 [] hitems hopen⟩

end Backpressure
