import Backpressure.Proofs.Poller.Flow
import Backpressure.Proofs.Pool.Staffing
import Backpressure.Proofs.Worker.Trace

/-!
# The life of a poller

The phase of a poller, its stop flag and the place of its loop are changed by
different tasks, but for a poller that a pool has started they agree: it runs and
was not told to stop, or it was told to stop and is still about, or its loop has
ended.  A poller whose loop has ended does nothing any more.

A poller *evolves* by being told to stop, by being woken, and by its own deeds.
-/

namespace Backpressure

variable {ι η α : Type}

/-- The phase, the stop flag and the place of a worker agree. -/
inductive Worker.Sound (w : Worker ι η) : Prop where
  | running (hp : w.phase = .running) (hs : w.stop = false) (hl : w.place.isLooping)
  /-- It was told to stop and is still about. -/
  | told (hp : w.phase = .stopRequested) (hs : w.stop = true)
      (hl : w.place.isLooping ∨ w.place.isLeaving)
  /-- It has ended. -/
  | stopped (hp : w.phase = .stopped) (hs : w.stop = true) (hl : w.place.isFinished)

/-- A worker that has stopped is at its end. -/
theorem Worker.Sound.isFinished {w : Worker ι η} (hs : w.Sound) (hp : w.phase = .stopped) :
    w.place.isFinished := by
  cases hs with
  | running hp' | told hp' => simp [hp] at hp'
  | stopped _ _ hl => exact hl

namespace Poller

/-- What becomes of a poller. -/
inductive Evolves (p : Poller α) : Poller α → Prop where
  /-- Nothing. -/
  | refl : Evolves p p
  /-- It is told to stop. -/
  | told {q : Poller α} (h : Evolves p q) : Evolves p q.told
  /-- It is woken. -/
  | nudged {q : Poller α} (h : Evolves p q) : Evolves p q.nudge
  | acts {q r : Poller α} {b b' : Bench α} {es : List (Event α)} (h : Evolves p q)
      (hd : Deed q b es r b') : Evolves p r

variable {p p' q r : Poller α} {b b' : Bench α} {es : List (Event α)}

theorem Evolves.trans (h : Evolves p q) (k : Evolves q r) : Evolves p r := by
  induction k with
  | refl => exact h
  | told _ ih => exact ih.told
  | nudged _ ih => exact ih.nudged
  | acts _ hd ih => exact ih.acts hd

@[simp] theorem phase_nudge : p.nudge.worker.phase = p.worker.phase := by
  simp only [nudge]
  split <;> rfl

theorem sound_fresh (s : PollerSettings) : (Poller.fresh s : Poller α).worker.Sound :=
  .running rfl rfl rfl

theorem sound_told (hs : p.worker.Sound) : p.told.worker.Sound := by
  cases hs with
  | running hp hs hl => exact .told (by simp [told, Worker.requestStop, hp]) rfl (.inl hl)
  | told hp hs hl => exact .told (by simp [told, Worker.requestStop, hp]) rfl hl
  | stopped hp hs hl => exact .stopped (by simp [told, Worker.requestStop, hp]) rfl hl

theorem sound_nudge (hs : p.worker.Sound) : p.nudge.worker.Sound := by
  simp only [nudge]
  split
  · next ends woken hplace =>
      cases hs with
      | running hp hs hl => exact .running hp hs rfl
      | told hp hs hl => exact .told hp hs (.inl rfl)
      | stopped hp hs hl =>
          rw [hplace] at hl
          cases hl
  · exact hs

/-- How a deed changes the worker of a poller. -/
inductive Passage (p p' : Poller α) : Prop where
  /-- It goes on with its iterations. -/
  | loops (hl : p.worker.place.isLooping) (hl' : p'.worker.place.isLooping)
      (hw : p'.worker = { p.worker with place := p'.worker.place })
  /-- It leaves for the hook. -/
  | leaves (hl : p.worker.place.isLooping) (hs : p.worker.stop = true)
      (hl' : p'.worker.place.isLeaving) (hw : p'.worker = { p.worker with place := p'.worker.place })
  /-- It goes on with the hook. -/
  | drains (hl : p.worker.place.isLeaving) (hl' : p'.worker.place.isLeaving)
      (hw : p'.worker = { p.worker with place := p'.worker.place })
  | ends (hl : p.worker.place.isLeaving) (hl' : p'.worker.place.isFinished)
      (hw : p'.worker = { p.worker with phase := .stopped, place := p'.worker.place })

theorem Lull.isLooping {place : Place (PollPoint α) (DrainPoint α)} (hl : Lull place es) :
    place.isLooping := by
  cases hl <;> rfl

theorem Deed.passage (hd : Deed p b es p' b') : Passage p p' := by
  cases hd with
  | leave hp hs => exact .leaves (by rw [hp]; rfl) hs rfl rfl
  | wait hp | take _ hp | served _ hp | quit hp | rouse _ hp | burst hp =>
      exact .loops (by rw [hp]; rfl) rfl rfl
  | miss hp hs hq hl | unserved hp hq hl | late hp hq hl =>
      exact .loops (by rw [hp]; rfl) hl.isLooping rfl
  | handled hp hh => exact .loops (by rw [hp]; rfl) rfl (by simp)
  | drain hp => exact .drains (by rw [hp]; rfl) rfl rfl
  | drained hp hh => exact .drains (by rw [hp]; rfl) rfl (by simp)
  | finish hp | shattered hp => exact .ends (by rw [hp]; rfl) rfl rfl

/-- A poller whose loop has ended does nothing. -/
theorem Deed.not_finished (hd : Deed p b es p' b') : p.worker.place.isFinished = false := by
  cases hplace : p.worker.place with
  | finished reason => cases hd.passage <;> simp_all [Place.isLooping, Place.isLeaving]
  | unstarted | between aside | inside point | leaving reason point => rfl

theorem Deed.sound (hd : Deed p b es p' b') (hs : p.worker.Sound) : p'.worker.Sound := by
  cases hs with
  | running hp hstop hl =>
      cases hd.passage with
      | loops _ hl' hw => exact .running (by rw [hw]; exact hp) (by rw [hw]; exact hstop) hl'
      | leaves _ hs hl' hw => rw [hstop] at hs; cases hs
      | drains hl₁ | ends hl₁ =>
          revert hl hl₁
          cases p.worker.place <;> simp [Place.isLooping, Place.isLeaving]
  | told hp hstop hl =>
      cases hd.passage with
      | loops _ hl' hw =>
          exact .told (by rw [hw]; exact hp) (by rw [hw]; exact hstop) (.inl hl')
      | leaves _ hs hl' hw | drains hs hl' hw =>
          exact .told (by rw [hw]; exact hp) (by rw [hw]; exact hstop) (.inr hl')
      | ends _ hl' hw => exact .stopped (by rw [hw]) (by rw [hw]; exact hstop) hl'
  | stopped hp hstop hl =>
      rw [hd.not_finished] at hl
      cases hl

theorem Evolves.sound (h : Evolves p q) (hs : p.worker.Sound) : q.worker.Sound := by
  induction h with
  | refl => exact hs
  | told _ ih => exact sound_told ih
  | nudged _ ih => exact sound_nudge ih
  | acts _ hd ih => exact hd.sound ih

/-- A stopped poller stays stopped. -/
theorem Evolves.stopped (h : Evolves p q) (hs : p.worker.Sound) (hp : p.worker.phase = .stopped) :
    q.worker.phase = .stopped := by
  induction h with
  | refl => exact hp
  | told _ ih => simp [Poller.told, Worker.requestStop, ih]
  | nudged _ ih => rw [phase_nudge, ih]
  | acts h hd ih =>
      cases h.sound hs with
      | running hp' | told hp' => simp [ih] at hp'
      | stopped hp' hs' hl =>
          rw [hd.not_finished] at hl
          cases hl

/-- A stopped poller has nothing in hand. -/
theorem held_of_stopped (hs : p.worker.Sound) (hp : p.worker.phase = .stopped) : p.held = [] := by
  have hfinished := hs.isFinished hp
  simp only [held]
  cases hplace : p.worker.place <;> simp_all [Place.isFinished, Place.held]

end Poller

end Backpressure
