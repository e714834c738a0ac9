import Backpressure.Proofs.Pool.Course
import Backpressure.Proofs.Pool.Ledger

/-!
# Who is left after a shutdown

A shutdown counts the active members that did not stop in time, and fails if there
are any.  It does not count the members that the scaler took out of the active
ones before: the scaler waits for each of them up to the shutdown timeout, and
lets go of it whether it has stopped by then or not.

So a shutdown that succeeds leaves nobody at work but members that the scaler took
out, or that it made after the shutdown had given up on it.  The course `accounts`
follows every member through the run: it is active, was taken out, is waited for, or
has stopped.
-/

namespace Backpressure.Pool

open Duration (ofMillis)

variable {α : Type}

/-- Every member is active, was taken out, is one of those waited for, or has stopped. -/
def Covered (p : Pool α) (out waited : List MemberId) : Prop :=
  ∀ i : Nat, i < p.crew.length → i ∈ p.active ∨ i ∈ out ∨ i ∈ waited ∨ p.HasStopped i

variable {env : Surroundings α} {now : Instant} {p q : Pool α} {a : Action α} {o : PoolOutcome α}
  {c : CallId} {graceful : Bool} {afterStart : Option PoolError} {h : History α}
  {out out' waited : List MemberId} {i : MemberId}

/-- The members that are active before, and those that join, are active after or taken out. -/
def Keeps (p q : Pool α) (out : List MemberId) : Prop :=
  ∀ i : Nat, i ∈ p.active ∨ p.crew.length ≤ i ∧ i < q.crew.length → i ∈ q.active ∨ i ∈ out

theorem Covered.step (hc : Covered p out waited) (hg : Grows p q) (hk : Keeps p q out')
    (ho : ∀ i ∈ out, i ∈ out') : Covered q out' waited := by
  intro i hi
  by_cases hlt : i < p.crew.length
  · rcases hc i hlt with hact | hout | hwait | hstop
    · exact (hk i (.inl hact)).imp_right .inl
    · exact .inr (.inl (ho i hout))
    · exact .inr (.inr (.inl hwait))
    · exact .inr (.inr (.inr (hstop.grows hg)))
  · exact (hk i (.inr ⟨Nat.le_of_not_lt hlt, hi⟩)).imp_right .inl

theorem Keeps.of_eq (ha : q.active = p.active) (hc : q.crew.length = p.crew.length) :
    Keeps p q out := by
  rintro i (hi | ⟨hle, hlt⟩)
  · exact .inl (ha ▸ hi)
  · omega

/-- Whom the scaler takes out is written down. -/
theorem Keeps.scaler (b : ScalerAction) : Keeps p q (p.scaledOut q (.scaler b)) := by
  intro i hi
  by_cases hq : i ∈ q.active
  · exact .inl hq
  · refine .inr (List.mem_filter.mpr ⟨?_, by simpa using hq⟩)
    rw [List.mem_append, List.mem_range'_1]
    exact hi.imp_right fun ⟨hle, hlt⟩ => ⟨hle, by omega⟩

theorem Keeps.mono (h : Keeps p q out) (ho : ∀ i ∈ out, i ∈ out') : Keeps p q out' :=
  fun i hi => (h i hi).imp_right (ho i)

theorem Keeps.trans (h : Keeps p q []) {r : Pool α} (k : Keeps q r []) : Keeps p r [] := by
  rintro i (hi | ⟨hle, hlt⟩)
  · cases h i (.inl hi) with
    | inl hq => exact k i (.inl hq)
    | inr hn => cases hn
  · by_cases hq : i < q.crew.length
    · cases h i (.inr ⟨hle, hq⟩) with
      | inl hq => exact k i (.inl hq)
      | inr hn => cases hn
    · exact k i (.inr ⟨Nat.le_of_not_lt hq, hlt⟩)

/-- Whoever joins is active. -/
theorem spawn_keeps (env : Surroundings α) (now : Instant) (p : Pool α) :
    Keeps p (p.spawn env now).2.pool [] := by
  simp only [spawn]
  split
  · exact .of_eq rfl rfl
  · rintro i (hi | ⟨hle, hlt⟩)
    · exact .inl (List.mem_append_left _ hi)
    · have hi : i = p.crew.length := by
        rw [List.length_append, List.length_singleton] at hlt
        omega
      exact .inl (List.mem_append_right _ (List.mem_singleton.mpr hi))

theorem spawnMany_keeps (env : Surroundings α) (now : Instant) (n : Nat) (p : Pool α) :
    Keeps p (p.spawnMany env now n).2.pool [] := by
  induction n generalizing p with
  | zero => exact .of_eq rfl rfl
  | succ n ih =>
      have hfirst := spawn_keeps env now p
      simp only [spawnMany]
      split
      · next hs =>
          rw [hs] at hfirst
          exact hfirst
      · next hs =>
          rw [hs] at hfirst
          exact hfirst.trans (ih _)

/-! ## Sweeping -/

/-- A member that was waited for and has stopped. -/
theorem hasStopped_of_stopWait {deadline : Instant} (hi : i < p.crew.length)
    (hsound : ∀ m ∈ p.crew, m.poller.worker.Sound)
    (hs : p.stopWait i deadline now = some true) : p.HasStopped i := by
  have hm := List.getElem?_eq_getElem hi
  simp only [stopWait, hm, Worker.stopWait] at hs
  split at hs
  · next hp => exact ⟨_, hm, hsound _ (List.getElem_mem hi), hp⟩
  · split at hs <;> cases hs

/-- When nobody was given up, whoever was waited for has stopped or is still waited for. -/
theorem sweep_covered {pending : List (MemberId × Instant)}
    (hc : Covered p out (pending.map (·.1))) (hsound : ∀ m ∈ p.crew, m.poller.worker.Sound)
    (hn : pending.countP (p.isStraggler now) = 0) :
    Covered (p.sweep now pending 0).2.pool out ((pending.filter (p.waitsFor now)).map (·.1)) := by
  have hchain := sweep_chain now pending 0 p
  have hleft : Covered p out ((pending.filter (p.waitsFor now)).map (·.1)) := by
    intro i hi
    rcases hc i hi with hact | hout | hwait | hstop
    · exact .inl hact
    · exact .inr (.inl hout)
    · obtain ⟨⟨i, deadline⟩, hw, rfl⟩ := List.mem_map.mp hwait
      cases hs : p.stopWait i deadline now with
      | none =>
          refine .inr (.inr (.inl (List.mem_map.mpr ⟨(i, deadline), ?_, rfl⟩)))
          exact List.mem_filter.mpr ⟨hw, by simp [waitsFor, hs]⟩
      | some stopped =>
          cases stopped with
          | true => exact .inr (.inr (.inr (hasStopped_of_stopWait hi hsound hs)))
          | false => exact absurd (by simp [isStraggler, hs]) (List.countP_eq_zero.mp hn _ hw)
    · exact .inr (.inr (.inr hstop))
  exact hleft.step hchain.staffing.grows (.of_eq (by simp) hchain.length_crew_eq) fun i hi => hi

/-! ## The books of the crew -/

/-- Every member is accounted for at each stage of a shutdown. -/
def accounts : Course α where
  before out p := Covered p out []
  during out _ p _ pending := Covered p out (pending.map (·.1))
  after out _ p _ := Covered p out []

/-- What does not steer keeps members active or writes down whom it takes out. -/
theorem Deed.keeps (hs : Deed env now p a o) (hst : ¬Steers env now p a) :
    Keeps p o.pool (p.scaledOut o.pool a) := by
  cases hs with
  | spurned | queued | follows | abandoned | restarted => exact .of_eq rfl rfl
  | accepted ho | returned ho => cases ho <;> exact .of_eq rfl rfl
  | followed hf => cases hf <;> exact .of_eq rfl rfl
  | opens ho | rushes ho => exact absurd ho.steers hst
  | gathers hc | sweeps hc => exact absurd ⟨_, mem_of_lookup hc, rfl⟩ hst
  | started hp hs hw | stuck hp hs hw =>
      have hspawn := spawnMany_keeps env now p.settings.minWorkers
        { p.named with phase := .running }
      rw [hs] at hspawn
      exact hspawn
  | flushed => exact .of_eq rfl (List.length_map _)
  | member => exact .of_eq rfl (List.length_modify _ _ _)
  | scaler hs => exact .scaler _

theorem Covered.aloof (hc : Covered p h.scaledOut waited) (hs : Deed env now p a o)
    (hst : ¬Steers env now p a) : Covered o.pool (h ++ .ofStep p a o).scaledOut waited :=
  hc.step hs.grows ((hs.keeps hst).mono fun _ => List.mem_append_right _) fun _ =>
    List.mem_append_left _

theorem Opening.keeps {es : List (PoolEvent α)} {p' : Pool α}
    (ho : Opening env now p a c graceful afterStart es p') : Keeps p p'.draining [] := by
  cases ho with
  | asked hp => exact .of_eq rfl rfl
  | failed hp hs =>
      have hspawn := spawnMany_keeps env now p.settings.minWorkers
        { p.named with phase := .running }
      rw [hs] at hspawn
      exact hspawn

theorem Covered.disbanded (hc : Covered p out []) :
    Covered (p.sealed graceful).pool.disbanded out ((p.leavers now).map (·.1)) := by
  have hgrows : Grows p (p.sealed graceful).pool.disbanded :=
    Grows.trans (q := (p.sealed graceful).pool) (.of_crew_eq (by simp)) disbanded_grows
  intro i hi
  rw [disbanded_chain.length_crew_eq, crew_sealed] at hi
  rcases hc i hi with hact | hout | hwait | hstop
  · refine .inr (.inr (.inl ?_))
    simpa [leavers] using hact
  · exact .inr (.inl hout)
  · cases hwait
  · exact .inr (.inr (.inr (hstop.grows hgrows)))

/-- The books of the crew are kept in any run. -/
theorem accounts_lawful (R : Regime α) (s : PoolSettings) : accounts.Lawful R s where
  first i hi := absurd hi (Nat.not_lt_zero i)
  aloof _ _ hs hst :=
    ⟨fun _ hc => hc.aloof hs hst, fun _ _ hc => hc.aloof hs hst, fun _ hc => hc.aloof hs hst⟩
  opening _ ho hc := hc.step ho.grows (ho.keeps.mono (by intro i h; cases h)) fun _ hi => hi
  await _ hc := hc.step (.of_crew_eq rfl) (.of_eq rfl rfl) fun _ hi => hi
  gather _ _ _ _ hc := hc.disbanded
  sweep hsound hn hc := sweep_covered hc hsound hn
  widen _ := ⟨fun _ hc => hc, fun hc => hc⟩
  calls _ hc := hc.step (.of_crew_eq rfl) (.of_eq rfl rfl) fun _ hi => hi
  close _ _ hc := hc.step (.of_crew_eq rfl) (.of_eq rfl rfl) fun _ hi => hi

/-! ## After a successful shutdown -/

/-- When everybody whom the scaler took out, or made later, has stopped, so has everybody. -/
theorem Covered.all_stopped (hc : Covered p out [])
    (hout : ∀ i ∈ out ++ p.active, ∀ m, p.crew[i]? = some m → m.phase = .stopped) :
    ∀ m ∈ p.crew, m.phase = .stopped := by
  intro m hm
  obtain ⟨i, hi⟩ := List.mem_iff_getElem?.mp hm
  rcases hc i (List.getElem?_eq_some_iff.mp hi).1 with hact | hmem | hwait | ⟨m', hm', -, hp⟩
  · exact hout i (List.mem_append_right _ hact) m hi
  · exact hout i (List.mem_append_left _ hmem) m hi
  · cases hwait
  · rw [hi] at hm'
    cases hm'
    exact hp

theorem inHand_eq_nil (hsound : ∀ m ∈ p.crew, m.poller.worker.Sound)
    (hs : ∀ m ∈ p.crew, m.phase = .stopped) : p.inHand = [] := by
  rw [inHand, List.flatMap_eq_nil_iff]
  exact fun m hm => Poller.held_of_stopped (hsound m hm) (hs m hm)

/-- From the moment at which the shutdown that moved the pool has succeeded, everybody has
stopped just when those have whom the scaler took out of the active members, or made later.
What was accepted is then handled, lost, thrown away, or in the hands of somebody who has
not stopped. -/
theorem Run.stopped_iff {R : Regime α} {t₀ t : Instant} {s : PoolSettings}
    (run : Run R t₀ (ofSettings s) h t p) (asked : ⟨c, .shutdown graceful, .running⟩ ∈ h.requests)
    (ok : (c, .ended (.ok ())) ∈ h.answers) :
    ((∀ m ∈ p.crew, m.phase = .stopped) ↔
        ∀ i ∈ h.scaledOut ++ p.active, ∀ m, p.crew[i]? = some m → m.phase = .stopped) ∧
      p.offered = p.bench.processed + p.bench.failed + h.lost.length + p.discarded +
        p.inHand.length ∧
      ((∀ m ∈ p.crew, m.phase = .stopped) → p.inHand = []) := by
  obtain ⟨hphase, hcovered⟩ := (run.onCourse (accounts_lawful R s)).succeeded asked rfl rfl ok
  refine ⟨⟨fun hs i _ m hm => hs m (List.mem_of_getElem? hm), hcovered.all_stopped⟩, ?_,
    inHand_eq_nil run.sound⟩
  have hoffered := run.ledger.offered_eq
  have hitems := (run.ends.stopped hphase).items
  rw [Queue.length, hitems, List.length_nil] at hoffered
  omega

/-- A member handles an item and is done before the pool shuts down. -/
def punctual : List (Instant × Action Nat) :=
  [(0, .start), (0, .offer 1 0), (0, .member 0 (.turn 0)), (0, .scaler .turn),
    (ofMillis 5, .member 0 (.handled .handled)), (ofMillis 5, .shutdown true),
    (ofMillis 5, .scaler .quit), (ofMillis 5, .scaler .turn), (ofMillis 5, .scaler .leave),
    (ofMillis 5, .resume 2), (ofMillis 5, .member 0 (.turn 0)), (ofMillis 5, .member 0 .drain),
    (ofMillis 5, .resume 2)]

theorem stopped_of_punctual : ∃ h t p, (ofSettings hasty).play calm 0 punctual = some (h, t, p) ∧
    (⟨2, .shutdown true, .running⟩ ∈ h.requests ∧ (2, .ended (.ok ())) ∈ h.answers) ∧
      (∀ m ∈ p.crew, m.phase = .stopped) ∧ p.offered = 1 ∧ p.bench.processed = 1 := by
  have hplay : ((ofSettings hasty).play calm 0 punctual).map
      (fun w => (w.1.requests[2]?, w.1.answers[2]?, w.1.scaledOut, w.2.2.active,
        w.2.2.offered, w.2.2.bench.processed)) =
      some (some ⟨2, .shutdown true, .running⟩, some (2, .ended (.ok ())), [], [], 1, 1) := by
    rfl
  obtain ⟨h, t, p, hp, he⟩ := play_of_map hplay
  simp only [Prod.mk.injEq] at he
  obtain ⟨hasked, hok, hout, hactive, hcounts⟩ := he
  have hrun : Run .any 0 _ h t p :=
    Run.play (fun _ _ _ => trivial) hp
  have hasked := List.mem_of_getElem? hasked
  have hok := List.mem_of_getElem? hok
  refine ⟨h, t, p, hp, ⟨hasked, hok⟩, ?_, hcounts⟩
  rw [(hrun.stopped_iff hasked hok).1, hout, hactive]
  exact (by intro i h; cases h)

/-- The factory finds those unfit who joined at the start. -/
def distrustful : Surroundings α where
  refusal _ := none
  isFit m := 0 < m.joined
  decide _ := .hold

/-- A member is taken out while it handles an item, and lets the pool shut down without it. -/
def abandonment : List (Instant × Action Nat) :=
  [(0, .start), (0, .offer 1 0), (0, .member 0 (.turn 0)), (0, .scaler .turn),
    (ofMillis 10, .scaler .evaluate), (ofMillis 30, .scaler .retired),
    (ofMillis 50, .shutdown true), (ofMillis 50, .scaler .turn), (ofMillis 50, .scaler .leave),
    (ofMillis 50, .resume 2), (ofMillis 50, .member 1 (.turn 0)), (ofMillis 50, .member 1 .drain),
    (ofMillis 50, .resume 2)]

/-- A shutdown can succeed while a member that was taken out still has an item in hand. -/
theorem straggler_of_abandonment : ∃ h t p,
    (ofSettings hasty).play distrustful 0 abandonment = some (h, t, p) ∧
      ⟨2, .shutdown true, .running⟩ ∈ h.requests ∧ (2, .ended (.ok ())) ∈ h.answers ∧
      p.phase = .stopped ∧ (∃ m ∈ p.crew, m.phase ≠ .stopped) ∧ p.inHand = [1] ∧
      p.offered ≠ p.bench.processed + p.bench.failed + p.discarded := by
  have hplay : ((ofSettings hasty).play distrustful 0 abandonment).map
      (fun w => (w.1.requests[2]?, w.1.answers[2]?, w.2.2.phase, w.2.2.crew.map Member.phase,
        w.2.2.inHand, w.2.2.offered,
        w.2.2.bench.processed + w.2.2.bench.failed + w.2.2.discarded)) =
      some (some ⟨2, .shutdown true, .running⟩, some (2, .ended (.ok ())), .stopped,
        [.stopRequested, .stopped], [1], 1, 0) := by
    rfl
  obtain ⟨h, t, p, hp, he⟩ := play_of_map hplay
  simp only [Prod.mk.injEq] at he
  obtain ⟨hasked, hok, hphase, hcrew, hhand, hoffered, hcounts⟩ := he
  refine ⟨h, t, p, hp, List.mem_of_getElem? hasked, List.mem_of_getElem? hok, hphase, ?_, hhand,
    by omega⟩
  have hmem : WorkerPhase.stopRequested ∈ p.crew.map Member.phase := by simp [hcrew]
  obtain ⟨m, hm, hphase⟩ := List.mem_map.mp hmem
  exact ⟨m, hm, by simp [hphase]⟩

end Backpressure.Pool
