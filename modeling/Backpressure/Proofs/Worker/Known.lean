import Backpressure.Proofs.Worker.Trace

/-!
# What the events of a worker tell about it

The phase, the stop flag and the place of the loop are changed by different tasks.
`Known` says what the events so far tell about the three.

*Where the loop stands.*  A worker that was not started stands idle.  One that was
started loops, then leaves through the hook, then is done, and never goes back.

*Actions.*  Each action of a worker keeps `Known`, and its events are permitted after
those before it (`Continues`): there is one lemma for each.  Events that tell nothing
about the loop (`Quiet`) or about the phase and the flag (`Inner`) need no more than
that.
-/

namespace Backpressure.Vigil

variable {ι η : Type}

/-- Where the loop of a worker stands, as its events tell. -/
inductive Stands (es : List Event) (w : Worker ι η) : Prop where
  /-- It was not started. -/
  | idle (hp : w.place = .unstarted) (hphase : w.phase = .created ∨ w.phase = .stopped)
      (hs : .started ∉ es) (hl : ¬ Leaves es) (he : ∀ m, lastEnd es ≠ some (.failed (.fatal m)))
  /-- It was started, and no iteration has failed for good. -/
  | loops (hp : w.place.isLooping) (hphase : w.phase = .running ∨ w.phase = .stopRequested)
      (hs : .started ∈ es) (hl : ¬ Leaves es) (he : ∀ m, lastEnd es ≠ some (.failed (.fatal m)))
  /-- It is in the hook. -/
  | leaves (hp : w.place.isLeaving) (hphase : w.phase = .running ∨ w.phase = .stopRequested)
      (hs : .started ∈ es) (hl : Leaves es) (hd : .left ∉ es)
  /-- It has ended. -/
  | done (hp : w.place.isFinished) (hphase : w.phase = .stopped)
      (hs : .started ∈ es) (hl : Leaves es) (hd : .left ∈ es)

/-- What the events of a worker tell about it. -/
structure Known (es : List Event) (w : Worker ι η) : Prop where
  phase : lastPhase es = w.phase
  stop : w.stop = true ↔ .told ∈ es ∨ .dropped ∈ es
  told : .told ∈ es → w.phase = .stopRequested ∨ w.phase = .stopped
  left : .left ∈ es → Leaves es
  stands : Stands es w

/-- The events of an action may happen, and tell about the worker after it. -/
def Continues (es fs : List Event) (w : Worker ι η) : Prop := Goes es fs ∧ Known (es ++ fs) w


variable {es fs gs : List Event} {w w' : Worker ι η}

theorem Continues.append (h : Continues es fs w) (h' : Continues (es ++ fs) gs w') :
    Continues es (fs ++ gs) w' :=
  ⟨(goes_append _ _ _).mpr ⟨h.1, h'.1⟩, List.append_assoc es fs gs ▸ h'.2⟩

@[simp] theorem leaves_append : Leaves (es ++ fs) ↔ Leaves es ∨ Leaves fs := by
  simp only [Leaves, List.mem_append, exists_or]

@[simp] theorem leaves_nil : ¬ Leaves [] := by
  rintro ⟨reason, h⟩
  cases h

@[simp] theorem leaves_cons {e : Event} :
    Leaves (e :: fs) ↔ (∃ reason, e = .leaving reason) ∨ Leaves fs := by
  simp only [Leaves, List.mem_cons, exists_or, eq_comm]

/-! ## Events that leave the loop where it is -/

/-- Events that tell nothing about the place of the loop. -/
structure Quiet (fs : List Event) : Prop where
  start : .started ∉ fs
  leaving : ¬ Leaves fs
  left : .left ∉ fs
  ended : ∀ r, fs.foldl Event.iterationEnd r = r

theorem Stands.quiet (h : Stands es w) (hq : Quiet fs) : Stands (es ++ fs) w := by
  have hlast : lastEnd (es ++ fs) = lastEnd es := by rw [lastEnd_append, hq.ended]
  have hstart : .started ∈ es ++ fs ↔ .started ∈ es := by simp [hq.start]
  have hleaves : Leaves (es ++ fs) ↔ Leaves es := by simp [hq.leaving]
  have hleft : .left ∈ es ++ fs ↔ .left ∈ es := by simp [hq.left]
  cases h with
  | idle hp hphase hs hl he =>
      exact .idle hp hphase (hstart.not.mpr hs) (hleaves.not.mpr hl) (hlast ▸ he)
  | loops hp hphase hs hl he =>
      exact .loops hp hphase (hstart.mpr hs) (hleaves.not.mpr hl) (hlast ▸ he)
  | leaves hp hphase hs hl hd =>
      exact .leaves hp hphase (hstart.mpr hs) (hleaves.mpr hl) (hleft.not.mpr hd)
  | done hp hphase hs hl hd =>
      exact .done hp hphase (hstart.mpr hs) (hleaves.mpr hl) (hleft.mpr hd)

/-- Events that tell nothing about the phase and the flag. -/
structure Inner (fs : List Event) : Prop where
  phase : ∀ p, fs.foldl Event.phase p = p
  told : .told ∉ fs
  dropped : .dropped ∉ fs
  left : .left ∉ fs

theorem Known.inner (hk : Known es w) (hi : Inner fs) (hphase : w'.phase = w.phase)
    (hstop : w'.stop = w.stop) (hstands : Stands (es ++ fs) w') : Known (es ++ fs) w' := by
  refine ⟨?_, ?_, ?_, ?_, hstands⟩
  · rw [lastPhase_append, hi.phase, hphase]
    exact hk.phase
  · simpa [hi.told, hi.dropped, hstop] using hk.stop
  · simpa [hi.told, hphase] using hk.told
  · intro h
    have hleft : .left ∈ es := by simpa [hi.left] using h
    rw [leaves_append]
    exact .inl (hk.left hleft)

theorem Known.refused (hk : Known es w) (h : w.start = none) :
    Continues es [.refused w.phase] w := by
  have hp : w.phase ≠ .created := by
    intro hp
    simp [Worker.start, hp] at h
  have hq : Quiet [.refused w.phase] := by constructor <;> simp
  exact ⟨⟨⟨hk.phase, hp⟩, trivial⟩,
    hk.inner (by constructor <;> simp) rfl rfl (hk.stands.quiet hq)⟩

/-- A shutdown succeeds when the worker is stopped. -/
theorem Known.answered {call : CallId} {r : Except WorkerError Unit} (hk : Known es w)
    (hr : r = .ok () → w.phase = .stopped) : Continues es [.answered call r] w := by
  have hq : Quiet [.answered call r] := by constructor <;> simp
  refine ⟨⟨?_, trivial⟩, hk.inner (by constructor <;> simp) rfl rfl (hk.stands.quiet hq)⟩
  cases r with
  | error _ => trivial
  | ok u =>
      have hp := hr rfl
      refine ⟨hk.phase.trans hp, fun hs => ?_⟩
      cases hk.stands with
      | idle _ _ hs' => exact absurd hs hs'
      | loops _ hphase | leaves _ hphase => rcases hphase with h | h <;> simp [hp] at h
      | done _ _ _ _ hd => exact hd

theorem passage_self (p : Place ι η) : passage p p = [] := by
  cases p <;> rfl

theorem Stands.drop (h : Stands es w) : Stands es w.drop := by
  cases h with
  | idle hp hphase hs hl he => exact .idle hp hphase hs hl he
  | loops hp hphase hs hl he => exact .loops hp hphase hs hl he
  | leaves hp hphase hs hl hd => exact .leaves hp hphase hs hl hd
  | done hp hphase hs hl hd => exact .done hp hphase hs hl hd

theorem Known.drop (hk : Known es w) :
    Continues es (observe (.drop : Worker.Action ι η) w w.drop) w.drop := by
  have hevents : observe (.drop : Worker.Action ι η) w w.drop = [.dropped] := by
    simp [observe, deed, Worker.drop, passage_self]
  have hq : Quiet [.dropped] := by constructor <;> simp
  rw [hevents]
  refine ⟨⟨trivial, trivial⟩, ?_, ?_, ?_, ?_, hk.stands.drop.quiet hq⟩
  · rw [lastPhase_append]
    exact hk.phase
  · simp [Worker.drop]
  · intro h
    exact hk.told (by simpa using h)
  · simpa using hk.left

/-! ## Starts and stops -/

theorem Known.start (hk : Known es w) (h : w.start = some w') :
    Continues es (observe (.start : Worker.Action ι η) w w') w' := by
  simp only [Worker.start, Option.ite_none_right_eq_some, Option.some.injEq] at h
  obtain ⟨hp, rfl⟩ := h
  have hphase := hk.phase
  have htold : .told ∉ es := by
    intro htold
    rcases hk.told htold with h | h <;> simp [hp] at h
  cases hk.stands with
  | idle hplace _ hs hl he =>
      simp only [observe, deed, hplace, passage, hp, reduceCtorEq, if_false, List.append_nil,
        List.cons_append, List.nil_append]
      refine ⟨⟨⟨by rw [hphase, hp], hs⟩, ?_, trivial⟩, ?_, ?_, ?_, ?_, ?_⟩
      · rw [Permitted, lastPhase_append, hphase, hp]
        exact .start
      · rw [lastPhase_append]
        rfl
      · simpa using hk.stop
      · intro h
        exact absurd (by simpa using h) htold
      · intro h
        have hleft := hk.left (by simpa using h)
        exact absurd hleft hl
      · refine .loops rfl (.inl rfl) (by simp) (by simpa using hl) ?_
        rw [lastEnd_append]
        exact he
  | loops _ hphase' | leaves _ hphase' => rcases hphase' with h | h <;> simp [hp] at h
  | done _ hphase' => simp [hp] at hphase'

theorem Stands.requestStop (h : Stands es w) : Stands es w.requestStop := by
  cases h with
  | idle hp hphase hs hl he =>
      refine .idle hp (.inr ?_) hs hl he
      rcases hphase with h | h <;> simp [Worker.requestStop, h]
  | loops hp hphase hs hl he =>
      refine .loops hp (.inr ?_) hs hl he
      rcases hphase with h | h <;> simp [Worker.requestStop, h]
  | leaves hp hphase hs hl hd =>
      refine .leaves hp (.inr ?_) hs hl hd
      rcases hphase with h | h <;> simp [Worker.requestStop, h]
  | done hp hphase hs hl hd => exact .done hp (by simp [Worker.requestStop, hphase]) hs hl hd

theorem observe_requestStop (w : Worker ι η) :
    observe (.requestStop : Worker.Action ι η) w w.requestStop =
      .told :: if w.requestStop.phase = w.phase then [] else [.became w.requestStop.phase] := by
  simp [observe, deed, Worker.requestStop, passage_self]

/-- A request to stop changes the phase of a worker that is new or runs. -/
theorem Known.requestStop (hk : Known es w) :
    Continues es (observe (.requestStop : Worker.Action ι η) w w.requestStop) w.requestStop := by
  rw [observe_requestStop]
  have hquiet : Quiet (.told ::
      if w.requestStop.phase = w.phase then [] else [.became w.requestStop.phase]) := by
    split <;> constructor <;> simp
  have hphase := hk.phase
  refine ⟨⟨trivial, ?_⟩, ?_, ?_, ?_, ?_, hk.stands.requestStop.quiet hquiet⟩
  · cases hp : w.phase <;>
      simp [Goes, Permitted, Worker.requestStop, hp, hphase, WorkerPhase.Follows.neverStart,
        WorkerPhase.Follows.tell]
  · cases hp : w.phase <;> simp [Worker.requestStop, hp, hphase]
  · simp [Worker.requestStop]
  · intro _
    cases hp : w.phase <;> simp [Worker.requestStop, hp]
  · intro h
    rw [leaves_append]
    rcases List.mem_append.mp h with h | h
    · exact .inl (hk.left h)
    · exact absurd h hquiet.left

/-! ## The loop and the hook -/

theorem observe_place (a : Worker.Action ι η) (w : Worker ι η) (p : Place ι η) :
    observe a w { w with place := p } = deed a ++ passage w.place p := by
  simp [observe]

theorem turn_cases {first : ι} {hook : η} (h : w.turn first hook = some w') :
    ∃ aside, w.place = .between aside ∧
      (w.stop = true ∧ w' = { w with place := .leaving .stopRequested hook } ∨
        w.stop = false ∧ w' = { w with place := .inside first }) := by
  simp only [Worker.turn] at h
  split at h
  · next aside hplace =>
      cases h
      refine ⟨aside, hplace, ?_⟩
      cases hstop : w.stop with
      | true => exact .inl ⟨rfl, by rw [if_pos rfl]⟩
      | false => exact .inr ⟨rfl, by rw [if_neg Bool.false_ne_true]⟩
  · cases h

theorem finish_cases {how : IterationEnd} {hook : η} (h : w.finish how hook = some w') :
    ∃ point, w.place = .inside point ∧
      ((∃ aside, (∀ m, how ≠ .failed (.fatal m)) ∧ w' = { w with place := .between aside }) ∨
        ∃ m, how = .failed (.fatal m) ∧ w' = { w with place := .leaving (.fatal m) hook }) := by
  simp only [Worker.finish] at h
  split at h
  · next point hplace =>
      cases h
      refine ⟨point, hplace, ?_⟩
      cases how with
      | done => exact .inl ⟨false, by simp, rfl⟩
      | panicked => exact .inl ⟨true, by simp, rfl⟩
      | failed fault =>
          cases fault with
          | recoverable m => exact .inl ⟨true, by simp, rfl⟩
          | fatal m => exact .inr ⟨m, rfl, rfl⟩
  · cases h

/-- What is known of a worker whose loop has not ended. -/
theorem Known.of_looping (hk : Known es w) (hp : w.place.isLooping) :
    (w.phase = .running ∨ w.phase = .stopRequested) ∧ lastPhase es ≠ .stopped ∧ .started ∈ es ∧
      ¬ Leaves es ∧ ∀ m, lastEnd es ≠ some (.failed (.fatal m)) := by
  cases hk.stands with
  | idle hp' => simp [hp', Place.isLooping] at hp
  | leaves hp' | done hp' =>
      cases hplace : w.place <;>
        simp [hplace, Place.isLooping, Place.isLeaving, Place.isFinished] at hp hp'
  | loops _ hphase hs hl he =>
      refine ⟨hphase, ?_, hs, hl, he⟩
      rw [hk.phase]
      rcases hphase with h | h <;> simp [h]

/-- The loop goes on. -/
theorem Known.loop {p : Place ι η} (hk : Known es w) (hp : w.place.isLooping) (hp' : p.isLooping)
    (hi : Inner fs) (hl : ¬ Leaves fs) (he : ∀ m, lastEnd (es ++ fs) ≠ some (.failed (.fatal m))) :
    Known (es ++ fs) { w with place := p } := by
  obtain ⟨hphase, -, hs, hnot, -⟩ := hk.of_looping hp
  refine hk.inner hi rfl rfl (.loops hp' hphase (List.mem_append_left _ hs) ?_ he)
  rw [leaves_append]
  exact not_or.mpr ⟨hnot, hl⟩

/-- The loop ends. -/
theorem Known.depart {p : Place ι η} (hk : Known es w) (hp : w.place.isLooping) (hp' : p.isLeaving)
    (hi : Inner fs) (hl : Leaves fs) : Known (es ++ fs) { w with place := p } := by
  obtain ⟨hphase, -, hs, hnot, -⟩ := hk.of_looping hp
  refine hk.inner hi rfl rfl (.leaves hp' hphase (List.mem_append_left _ hs) ?_ ?_)
  · exact leaves_append.mpr (.inr hl)
  · intro h
    rcases List.mem_append.mp h with h | h
    · exact hnot (hk.left h)
    · exact hi.left h

/-- The loop looks at the flag. -/
theorem Known.turn {first : ι} {hook : η} (hk : Known es w) (h : w.turn first hook = some w') :
    Continues es (observe (.turn first hook) w w') w' := by
  obtain ⟨aside, hplace, hnext⟩ := turn_cases h
  have hp : w.place.isLooping := by rw [hplace]; rfl
  obtain ⟨-, hnot, hs, hl, he⟩ := hk.of_looping hp
  rcases hnext with ⟨hstop, rfl⟩ | ⟨hstop, rfl⟩
  · have hreason : ∀ m, ExitReason.stopRequested = .fatal m ↔
        lastEnd es = some (.failed (.fatal m)) := fun m => iff_of_false (by simp) (he m)
    rw [observe_place, hplace]
    refine ⟨⟨⟨hs, hl, hnot, hreason, fun _ => hk.stop.mp hstop⟩, trivial⟩, ?_⟩
    exact hk.depart hp rfl (by constructor <;> simp [deed, passage]) (by simp [deed, passage])
  · -- an iteration begins, so the flag was down when the loop looked
    have htold : .told ∉ es := by
      intro h
      rw [hk.stop.mpr (.inl h)] at hstop
      cases hstop
    rw [observe_place, hplace]
    refine ⟨⟨⟨hs, htold, hl, hnot⟩, trivial⟩, ?_⟩
    refine hk.loop hp rfl (by constructor <;> simp [deed, passage]) (by simp [deed, passage]) ?_
    rw [lastEnd_append]
    exact he

theorem Known.move {point : ι} (hk : Known es w) (h : w.move point = some w') :
    Continues es (observe (.move point : Worker.Action ι η) w w') w' := by
  simp only [Worker.move] at h
  split at h
  · next hplace =>
      cases h
      have hp : w.place.isLooping := by rw [hplace]; rfl
      obtain ⟨-, -, -, -, he⟩ := hk.of_looping hp
      rw [observe_place, hplace]
      refine ⟨trivial, ?_⟩
      refine hk.loop hp rfl (by constructor <;> simp [deed, passage]) (by simp [deed, passage]) ?_
      rw [lastEnd_append]
      exact he
  · cases h

/-- An iteration ends: the loop goes on unless it failed for good. -/
theorem Known.finish {how : IterationEnd} {hook : η} (hk : Known es w)
    (h : w.finish how hook = some w') :
    Continues es (observe (.finish how hook : Worker.Action ι η) w w') w' := by
  obtain ⟨point, hplace, hnext⟩ := finish_cases h
  have hp : w.place.isLooping := by rw [hplace]; rfl
  obtain ⟨-, hnot, hs, hl, -⟩ := hk.of_looping hp
  rcases hnext with ⟨aside, hgo, rfl⟩ | ⟨m, rfl, rfl⟩
  · rw [observe_place, hplace]
    refine ⟨⟨⟨hs, hl⟩, trivial⟩, ?_⟩
    refine hk.loop hp rfl (by constructor <;> simp [deed, passage]) (by simp [deed, passage]) ?_
    intro m hm
    rw [lastEnd_append] at hm
    exact hgo m (Option.some.inj hm)
  · have hnot' : lastPhase (es ++ [.ended (.failed (.fatal m))]) ≠ .stopped := by
      rw [lastPhase_append]
      exact hnot
    have hreason : ∀ m', ExitReason.fatal m = .fatal m' ↔
        lastEnd (es ++ [.ended (.failed (.fatal m))]) = some (.failed (.fatal m')) := by
      intro m'
      simp
    rw [observe_place, hplace]
    refine ⟨⟨⟨hs, hl⟩, ⟨by simp [hs], by simpa using hl, hnot', hreason, nofun⟩, trivial⟩, ?_⟩
    exact hk.depart hp rfl (by constructor <;> simp [deed, passage]) (by simp [deed, passage])

theorem Known.moveHook {point : η} (hk : Known es w) (h : w.moveHook point = some w') :
    Continues es (observe (.moveHook point : Worker.Action ι η) w w') w' := by
  simp only [Worker.moveHook] at h
  split at h
  · next reason _ hplace =>
      cases h
      cases hk.stands with
      | idle hp | loops hp | done hp => simp [hplace, Place.isLooping, Place.isFinished] at hp
      | leaves hp hphase hs hl hd =>
          rw [observe_place, hplace]
          refine ⟨trivial, hk.inner (by constructor <;> simp [deed, passage]) rfl rfl ?_⟩
          exact .leaves rfl hphase (by simp [hs]) (by simp [hl]) (by simpa [deed, passage] using hd)
  · cases h

/-- The hook ends, whether it panicked or not. -/
theorem Known.finishHook (hk : Known es w) (h : w.finishHook = some w') :
    Continues es (observe (.finishHook : Worker.Action ι η) w w') w' := by
  simp only [Worker.finishHook] at h
  split at h
  · next reason _ hplace =>
      cases h
      cases hk.stands with
      | idle hp | loops hp | done hp => simp [hplace, Place.isLooping, Place.isFinished] at hp
      | leaves hp hphase hs hl hd =>
          have hchanged : WorkerPhase.stopped ≠ w.phase := by
            rcases hphase with h | h <;> simp [h]
          have hfollows : w.phase.Follows .stopped := by
            rcases hphase with h | h <;> rw [h]
            · exact .giveUp
            · exact .finish
          have hevents : observe (.finishHook : Worker.Action ι η) w
              { w with phase := .stopped, place := .finished reason } =
                [.left, .became .stopped] := by
            simp [observe, deed, hplace, passage, hchanged]
          rw [hevents]
          refine ⟨⟨⟨hl, hd⟩, ?_, trivial⟩, ?_, ?_, ?_, ?_, ?_⟩
          · rw [Permitted, lastPhase_append, hk.phase]
            exact hfollows
          · rw [lastPhase_append]
            rfl
          · simpa using hk.stop
          · exact fun _ => .inr rfl
          · exact fun _ => leaves_append.mpr (.inl hl)
          · exact .done rfl rfl (by simp [hs]) (leaves_append.mpr (.inl hl)) (by simp)
  · cases h

end Backpressure.Vigil
