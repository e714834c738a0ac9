import Backpressure.Proofs.Worker.Known

/-!
# The life of a worker

A worker is started, told to stop and shut down by its callers in any order, while its
loop begins and ends iterations and the hook; an iteration may end in any way.

*Atoms.*  The loop waits for nothing between its look at the flag and the begin of an
iteration, so the two are one action, `turn`; and a request to stop is one action too.

`Run.follows_lifecycle` says that along every run each event was permitted when it happened, that
the hook of a worker begins once before it is stopped, and that no error and no panic
ends the loop unless the iteration failed for good.
-/

namespace Backpressure.Vigil

variable {ι η : Type}

/-- A run of a worker with a name, from a moment to a moment, with what could be seen. -/
inductive Run (name : String) (t₀ : Instant) : List Event → Instant → Vigil ι η → Prop where
  /-- Nothing has happened. -/
  | here : Run name t₀ [] t₀ {}
  /-- An action happens. -/
  | act {es fs : List Event} {t : Instant} {v v' : Vigil ι η} {a : Action ι η} :
      Run name t₀ es t v → v.step name t a = some (fs, v') → Run name t₀ (es ++ fs) t v'
  /-- Time passes. -/
  | pass {es : List Event} {t t' : Instant} {v : Vigil ι η} :
      Run name t₀ es t v → t ≤ t' → Run name t₀ es t' v

/-- The actions of a script one after the other, each at its moment. -/
def play (name : String) : Instant → Vigil ι η → List (Instant × Action ι η) →
    Option (List Event × Instant × Vigil ι η)
  | t, v, [] => some ([], t, v)
  | t, v, (t', a) :: rest =>
    if t' < t then none
    else
      match v.step name t' a with
      | none => none
      | some (fs, v') => (play name t' v' rest).map fun (gs, u, r) => (fs ++ gs, u, r)

variable {name : String} {t₀ t now : Instant} {es fs : List Event} {v v' : Vigil ι η}
  {w w' : Worker ι η}

/-- A play goes on with a run. -/
theorem Run.play {script : List (Instant × Action ι η)} {u : Instant} {r : Vigil ι η}
    (run : Run name t₀ es t v) (hp : Vigil.play name t v script = some (fs, u, r)) :
    Run name t₀ (es ++ fs) u r := by
  induction script generalizing es fs t v with
  | nil =>
      cases hp
      rwa [List.append_nil]
  | cons head rest ih =>
      obtain ⟨t', a⟩ := head
      simp only [Vigil.play] at hp
      split at hp
      · cases hp
      · next hle =>
          split at hp
          · cases hp
          · next fs' v' hs =>
              obtain ⟨⟨gs, u', r'⟩, hrest, he⟩ := Option.map_eq_some_iff.mp hp
              cases he
              rw [← List.append_assoc]
              exact ih ((run.pass (Nat.le_of_not_lt hle)).act hs) hrest

/-! ## One action and a whole run -/

/-- What the loop does next is permitted, and known of it afterwards. -/
theorem Known.worker (hk : Known es w) {a : Worker.Action ι η} (h : w.step a = some w') :
    Continues es (observe a w w') w' := by
  cases a with
  | start => exact hk.start h
  | requestStop =>
      cases h
      exact hk.requestStop
  | drop =>
      cases h
      exact hk.drop
  | turn first hook => exact hk.turn h
  | move point => exact hk.move h
  | finish how hook => exact hk.finish h
  | moveHook point => exact hk.moveHook h
  | finishHook => exact hk.finishHook h

/-- A shutdown is told of success only by a worker that is stopped. -/
theorem stopped_of_result {c : StopWait} (h : v.result? name now c = some (.ok ())) :
    v.worker.phase = .stopped := by
  simp only [result?, Option.map_eq_some_iff] at h
  obtain ⟨stopped, hwait, hr⟩ := h
  cases stopped with
  | false => cases hr
  | true =>
      simp only [Worker.stopWait] at hwait
      split at hwait
      · assumption
      · split at hwait <;> cases hwait

/-- A shutdown is a request to stop, and a wait that may be over at once. -/
theorem shutdown_cases (name : String) (now : Instant) (limit : Duration) (v : Vigil ι η) :
    ∃ c r, (v.shutdown name now limit).1 = r ∧
      (v.shutdown name now limit).2.worker = v.worker.requestStop ∧
        (v.shutdown name now limit).2.result? name now c = r := by
  simp only [Vigil.shutdown]
  split
  · next r hr => exact ⟨_, _, rfl, rfl, hr⟩
  · next hr => exact ⟨_, _, rfl, rfl, hr⟩

/-- A shutdown that goes on looks at the worker and changes nothing. -/
theorem resume_cases {call : CallId} {r : Except WorkerError Unit}
    (h : v.resume name now call = some (r, v')) :
    v'.worker = v.worker ∧ ∃ c, v.result? name now c = some r := by
  simp only [Vigil.resume] at h
  split at h
  · cases h
  · next c _ =>
      simp only [Option.map_eq_some_iff] at h
      obtain ⟨r', hr, hv⟩ := h
      cases hv
      exact ⟨rfl, c, hr⟩

theorem Known.step {a : Action ι η} (hk : Known es v.worker)
    (h : v.step name now a = some (fs, v')) : Continues es fs v'.worker := by
  cases a with
  | worker a =>
      cases a with
      | start =>
          simp only [Vigil.step, Vigil.start] at h
          cases hw : v.worker.start with
          | none =>
              rw [hw] at h
              cases h
              exact hk.refused hw
          | some w =>
              rw [hw] at h
              cases h
              exact hk.start hw
      | _ =>
          simp only [Vigil.step, Option.map_eq_some_iff] at h
          obtain ⟨w, hw, hv⟩ := h
          cases hv
          exact hk.worker hw
  | shutdown limit =>
      simp only [Vigil.step, Option.some.injEq, Prod.mk.injEq] at h
      obtain ⟨rfl, rfl⟩ := h
      obtain ⟨c, r, hr, hw, hresult⟩ := shutdown_cases name now limit v
      rw [hr, hw]
      have htold := hk.requestStop
      cases r with
      | none => simpa using htold
      | some r =>
          refine htold.append (htold.2.answered ?_)
          rintro rfl
          rw [← hw]
          exact stopped_of_result hresult
  | resume call =>
      simp only [Vigil.step, Option.map_eq_some_iff] at h
      obtain ⟨⟨r, v₁⟩, hresume, hv⟩ := h
      cases hv
      obtain ⟨hw, c, hr⟩ := resume_cases hresume
      rw [hw]
      refine hk.answered ?_
      rintro rfl
      exact stopped_of_result hr

/-- Along every run what has happened was permitted, and tells where the worker stands. -/
theorem Run.known (h : Run name t₀ es t v) : Goes [] es ∧ Known es v.worker := by
  induction h with
  | here =>
      refine ⟨trivial, rfl, by simp, by simp, by simp, ?_⟩
      exact .idle rfl (.inl rfl) (by simp) (by simp) (by simp [lastEnd])
  | act _ hs ih =>
      obtain ⟨hgoes, hk⟩ := ih
      have hnext := hk.step hs
      exact ⟨(goes_append _ _ _).mpr ⟨hgoes, by simpa using hnext.1⟩, hnext.2⟩
  | pass _ _ ih => exact ih

/-- The lifecycle of a worker, as far as it can be seen. -/
structure Lifecycle (name : String) (es : List Event) (v : Vigil ι η) : Prop where
  /-- Each event was permitted when it happened. -/
  lawful : ∀ past e rest, es = past ++ e :: rest → Permitted past e
  /-- The events tell the phase. -/
  phase : lastPhase es = v.worker.phase
  /-- A stopped worker stays so. -/
  final : ∀ past rest, es = past ++ rest → lastPhase past = .stopped → v.worker.phase = .stopped
  /-- A start succeeds once at most. -/
  start : es.countP Event.isStart ≤ 1
  /-- The hook begins only if a start succeeded, and once at most. -/
  hook : es.countP Event.isLeaving ≤ es.countP Event.isStart
  /-- A worker that was started and is stopped has been through the hook. -/
  hook_of_stopped : v.worker.phase = .stopped →
    es.countP Event.isLeaving = es.countP Event.isStart
  /-- An iteration that ends in any way but a failure for good does not end the loop: unless
  somebody wants the worker to stop, the next one can begin. -/
  goes_on : .told ∉ es → .dropped ∉ es → ∀ now how hook fs v',
    v.step name now (.worker (.finish how hook)) = some (fs, v') →
      (∀ m, how ≠ .failed (.fatal m)) → ∀ first, ∃ v'',
        v'.step name now (.worker (.turn first hook)) = some ([.began], v'')

theorem Stands.hook_le (h : Stands es w) (hg : Goes [] es) :
    es.countP Event.isLeaving ≤ es.countP Event.isStart := by
  cases h with
  | idle _ _ _ hl | loops _ _ _ hl =>
      rw [countP_isLeaving.mpr hl]
      exact Nat.zero_le _
  | leaves _ _ hs | done _ _ hs =>
      have hone := hg.hook_le_one
      have hstart := countP_isStart_pos hs
      omega

/-- A worker that has stopped has been through its hook if it was ever started. -/
theorem Stands.hook_eq (h : Stands es w) (hg : Goes [] es) (hp : w.phase = .stopped) :
    es.countP Event.isLeaving = es.countP Event.isStart := by
  cases h with
  | idle _ _ hs hl => rw [countP_isLeaving.mpr hl, countP_isStart.mpr hs]
  | loops _ hphase | leaves _ hphase => rcases hphase with h | h <;> simp [hp] at h
  | done _ _ hs hl =>
      have hhook := hg.hook_le_one
      have hstart := hg.start_le_one
      have hpos := countP_isLeaving_pos hl
      have hpos' := countP_isStart_pos hs
      omega

/-- Only a request to stop, or a failure for good, ends the loop. -/
theorem Known.goes_on {how : IterationEnd} {hook : η} {first : ι} (hk : Known es v.worker)
    (htold : .told ∉ es) (hdropped : .dropped ∉ es) (hgo : ∀ m, how ≠ .failed (.fatal m))
    (h : v.step name now (.worker (.finish how hook)) = some (fs, v')) :
    ∃ v'', v'.step name now (.worker (.turn first hook)) = some ([.began], v'') := by
  have hstop : v.worker.stop = false := by
    rw [← Bool.not_eq_true, hk.stop]
    rintro (h | h)
    · exact htold h
    · exact hdropped h
  simp only [Vigil.step, Worker.step, Option.map_eq_some_iff] at h
  obtain ⟨w, hw, hv⟩ := h
  cases hv
  obtain ⟨point, hplace, ⟨aside, -, rfl⟩ | ⟨m, hm, -⟩⟩ := finish_cases hw
  · simp [Vigil.step, Worker.step, Worker.turn, put, hstop, observe, deed, passage]
  · exact absurd hm (hgo m)

/-- Along every run a worker follows its lifecycle: what happens to it is permitted then, its start
succeeds once at most, its hook begins once, and it stays stopped. -/
theorem Run.follows_lifecycle (h : Run name t₀ es t v) : Lifecycle name es v := by
  obtain ⟨hgoes, hk⟩ := h.known
  refine ⟨?_, hk.phase, ?_, hgoes.start_le_one, hk.stands.hook_le hgoes,
    hk.stands.hook_eq hgoes, ?_⟩
  · intro past e rest hes
    simpa using hgoes.permitted hes
  · rintro past rest rfl hp
    rw [← hk.phase]
    exact Goes.stopped ((goes_append _ _ _).mp hgoes).2 (by simpa using hp)
  · intro htold hdropped now how hook fs v' hstep hgo first
    exact hk.goes_on htold hdropped hgo hstep

/-- Two iterations, of which the first panics and the second fails for good; the stop is
requested while the worker is in the hook. -/
def givingUp : List (Instant × Action Unit Unit) :=
  [(0, .worker .start), (1, .worker (.turn () ())), (2, .worker (.finish .panicked ())),
    (2, .worker .start), (2, .worker (.turn () ())),
    (5, .worker (.finish (.failed (.fatal "disk is gone")) ())), (6, .shutdown 10),
    (8, .worker .finishHook), (8, .resume 0)]

theorem follows_lifecycle_of_givingUp : ∃ es t v,
    play "flusher" 0 {} givingUp = some (es, t, v) ∧
      es = [.started, .became .running, .began, .ended .panicked, .refused .running, .began,
        .ended (.failed (.fatal "disk is gone")), .leaving (.fatal "disk is gone"), .told,
        .became .stopRequested, .left, .became .stopped, .answered 0 (.ok ())] ∧
      v.worker.phase = .stopped ∧ Lifecycle "flusher" es v := by
  have hplay : (play "flusher" 0 {} givingUp).map (fun w => (w.1, w.2.2.worker.phase)) =
      some ([.started, .became .running, .began, .ended .panicked, .refused .running, .began,
        .ended (.failed (.fatal "disk is gone")), .leaving (.fatal "disk is gone"), .told,
        .became .stopRequested, .left, .became .stopped, .answered 0 (.ok ())], .stopped) := by
    rfl
  obtain ⟨⟨es, t, v⟩, hp, hread⟩ := Option.map_eq_some_iff.mp hplay
  simp only [Prod.mk.injEq] at hread
  have run : Run "flusher" 0 ([] ++ es) t v := Run.here.play hp
  exact ⟨es, t, v, hp, hread.1, hread.2, run.follows_lifecycle⟩

end Backpressure.Vigil

