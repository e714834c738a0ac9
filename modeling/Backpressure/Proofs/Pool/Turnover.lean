import Backpressure.Proofs.Pool.Leader
import Backpressure.Proofs.Pool.Order

/-!
# How members come and go

A member joins the active ones when it is made.  It leaves them together with others, is told to
stop, and then has to wait until it is its turn to be retired.  When its retirement begins it gets
a deadline, and when it has stopped or the deadline is over it is dismissed.

`Passage` lists these changes one by one.  What it is about is a pool with the members that are
*leaving*: they are active no longer and are not dismissed yet.  While an action goes on they are
in nobody's hands but those of the function that runs.  Between two actions they are those whom
the scaler retires in turn and those whom a shutdown waits for (`Pool.leaving`).

Every action is a sequence of such changes, from the members that were leaving before it to those
that are leaving after it (`Deed.turnover`).
-/

namespace Backpressure

variable {α : Type}

/-- Members that are leaving, with the deadlines of those whose retirement has begun. -/
abbrev Leaving := List (MemberId × Option Instant)

/-- The members that are retired in turn.  Only the first of them is waited for. -/
def Retirement.leaving (r : Retirement) : Leaving :=
  (r.member, some r.deadline) :: r.rest.map fun i => (i, none)

/-- The members that the scaler has in hand. -/
def ScalerPoint.leaving : ScalerPoint → Leaving
  | .sleeping _ => []
  | .replacing r | .shrinking r => r.leaving

/-- Members that are all waited for. -/
def awaited (pending : List (MemberId × Instant)) : Leaving := pending.map fun w => (w.1, some w.2)

/-- The members that a call has in hand. -/
def PoolErrand.leaving : PoolErrand α → Leaving
  | .shutdown _ (.retiring pending _) _ => awaited pending
  | .shutdown _ (.awaitingScaler _) _ | .shutdown _ (.awaitingOther _) _ | .offer _ _ _ => []

/-- How a member goes on: whatever it does, it keeps its name, and when it joined and was told to
stop or has stopped, that is so for good. -/
structure Member.Lasts (m m' : Member α) : Prop where
  name : m'.name = m.name
  joined : m'.joined = m.joined
  told : m.poller.worker.stop = true → m'.poller.worker.stop = true
  stopped : m.phase = .stopped → m'.phase = .stopped

namespace Member.Lasts

variable {m m' m'' : Member α}

theorem refl (m : Member α) : Lasts m m := ⟨rfl, rfl, id, id⟩

theorem trans (h : Lasts m m') (k : Lasts m' m'') : Lasts m m'' :=
  ⟨k.name.trans h.name, k.joined.trans h.joined, fun hs => k.told (h.told hs),
    fun hs => k.stopped (h.stopped hs)⟩

/-- A member that is told to stop is still the same, with its life ahead of it. -/
theorem requestStop (m : Member α) :
    Lasts m { m with poller.worker := m.poller.worker.requestStop } where
  name := rfl
  joined := rfl
  told _ := rfl
  stopped hs := by
    simp only [Member.phase] at hs
    simp [Member.phase, Worker.requestStop, hs]

end Member.Lasts

namespace PoolEvent

/-- The name for which the factory made a handler. -/
def created? : PoolEvent α → Option String
  | .created name => some name
  | _ => none

/-- The name of the member that the factory let go of. -/
def destroyed? : PoolEvent α → Option String
  | .destroyed name => some name
  | _ => none

end PoolEvent

namespace Pool

/-- The members that the scaler has in hand. -/
def line (p : Pool α) : Leaving :=
  match p.scaler.place with
  | .inside point => point.leaving
  | _ => []

/-- The members that the calls have in hand. -/
def departing (p : Pool α) : Leaving := p.calls.flatMap (·.2.leaving)

/-- The members that are active no longer and are not dismissed yet. -/
def leaving (p : Pool α) : Leaving := p.line ++ p.departing

/-- The name of the next worker. -/
def nextName (p : Pool α) : String := p.settings.workerLabel ++ "-" ++ toString p.nextNumber

/-- The names for which the factory made a handler. -/
def createdIn (es : List (PoolEvent α)) : List String := es.filterMap PoolEvent.created?

/-- The names of the members that the factory let go of. -/
def destroyedIn (es : List (PoolEvent α)) : List String := es.filterMap PoolEvent.destroyed?

@[simp] theorem createdIn_append (es fs : List (PoolEvent α)) :
    createdIn (es ++ fs) = createdIn es ++ createdIn fs := List.filterMap_append

@[simp] theorem destroyedIn_append (es fs : List (PoolEvent α)) :
    destroyedIn (es ++ fs) = destroyedIn es ++ destroyedIn fs := List.filterMap_append

/-- One change of a pool and of the members that are leaving it. -/
inductive Passage (now : Instant) :
    Pool α → Leaving → List (PoolEvent α) → Pool α → Leaving → Prop where
  /-- A worker is made and joins. -/
  | join {p : Pool α} {w : Leaving} :
      Passage now p w [.created p.nextName] (p.hired p.nextName now) w
  /-- The factory has no handler. -/
  | refuse {p : Pool α} {w : Leaving} :
      Passage now p w [.refused p.nextName] { p with nextNumber := p.nextNumber + 1 } w
  /-- Some of the active members leave. -/
  | leave {p : Pool α} {w : Leaving} (stay gone : List MemberId)
      (hp : p.active.Perm (stay ++ gone)) :
      Passage now p w [] { p with active := stay } (gone.map (fun i => (i, none)) ++ w)
  /-- A member that is leaving is told to stop. -/
  | tell {p : Pool α} {w : Leaving} {i : MemberId} {d : Option Instant} (hi : (i, d) ∈ w) :
      Passage now p w [] (p.requestStop i) w
  /-- The retirement of a member begins. -/
  | retire {p : Pool α} {w : Leaving} {i : MemberId}
      (told : ∀ m, p.crew[i]? = some m → m.poller.worker.stop = true) :
      Passage now p ((i, none) :: w) [] p ((i, some (p.patience now)) :: w)
  /-- The retirement of a member ends. -/
  | dismiss {p : Pool α} {w : Leaving} {i : MemberId} {d : Instant}
      (hover : p.stopWait i d now ≠ none) :
      Passage now p ((i, some d) :: w) (p.dismiss now i).events (p.dismiss now i).pool w
  /-- Those who are leaving are looked at in another order. -/
  | sort {p : Pool α} {w w' : Leaving} (hw : w.Perm w') : Passage now p w [] p w'
  /-- Members go on by themselves. -/
  | act {p : Pool α} {w : Leaving} {es : List (PoolEvent α)} (crew : List (Member α))
      (bench : Bench α) (hl : crew.length = p.crew.length)
      (hc : ∀ (i : MemberId) (m m' : Member α), p.crew[i]? = some m → crew[i]? = some m' →
        m.Lasts m' ∧ m'.dismissed = m.dismissed)
      (hes : ∀ e ∈ es, e.created? = none ∧ e.destroyed? = none) :
      Passage now p w es { p with crew, bench } w
  /-- The members are left alone. -/
  | aside {p q : Pool α} {w : Leaving} {es : List (PoolEvent α)} (hs : q.settings = p.settings)
      (hc : q.crew = p.crew) (ha : q.active = p.active) (hn : q.nextNumber = p.nextNumber)
      (hes : ∀ e ∈ es, e.created? = none ∧ e.destroyed? = none) : Passage now p w es q w

/-- One change after the other. -/
inductive Turnover (now : Instant) (p : Pool α) (w : Leaving) :
    List (PoolEvent α) → Pool α → Leaving → Prop where
  | refl : Turnover now p w [] p w
  | tail {es fs : List (PoolEvent α)} {q r : Pool α} {w' w'' : Leaving}
      (h : Turnover now p w es q w') (hp : Passage now q w' fs r w'') : Turnover now p w (es ++ fs) r w''

variable {env : Surroundings α} {now : Instant} {p q r : Pool α} {a : Action α} {o : PoolOutcome α}
  {es fs : List (PoolEvent α)} {w w' w'' : Leaving} {h : History α} {c : CallId} {graceful : Bool}
  {afterStart : Option PoolError}

namespace Turnover

theorem single (hp : Passage now p w es q w') : Turnover now p w es q w' := Turnover.refl.tail hp

theorem trans (h : Turnover now p w es q w') (k : Turnover now q w' fs r w'') :
    Turnover now p w (es ++ fs) r w'' := by
  induction k with
  | refl => rwa [List.append_nil]
  | tail _ hp ih =>
      rw [← List.append_assoc]
      exact ih.tail hp

theorem silent (h : Turnover now p w es q w') (hp : Passage now q w' [] r w'') :
    Turnover now p w es r w'' := by
  simpa using h.tail hp

/-- Changes after some that could not be seen. -/
theorem after (h : Turnover now p w [] q w') (k : Turnover now q w' fs r w'') :
    Turnover now p w fs r w'' := h.trans k

/-- Those who are leaving in the end, in another order. -/
theorem perm (h : Turnover now p w es q w') (hw : w'.Perm w'') : Turnover now p w es q w'' :=
  h.silent (.sort hw)

end Turnover

/-! ## Joining -/

/-- Making a member turns nobody out. -/
theorem spawn_turnover (env : Surroundings α) (now : Instant) (p : Pool α) (w : Leaving) :
    Turnover now p w (p.spawn env now).2.events (p.spawn env now).2.pool w := by
  simp only [spawn]
  split
  · exact .single .refuse
  · exact .single .join

theorem spawnMany_turnover (env : Surroundings α) (now : Instant) (n : Nat) (p : Pool α)
    (w : Leaving) :
    Turnover now p w (p.spawnMany env now n).2.events (p.spawnMany env now n).2.pool w := by
  induction n generalizing p with
  | zero => exact .refl
  | succ n ih =>
      have hfirst := spawn_turnover env now p w
      simp only [spawnMany]
      split
      · next hs =>
          rw [hs] at hfirst
          exact hfirst
      · next hs =>
          rw [hs] at hfirst
          exact hfirst.trans (ih _)

/-! ## Leaving -/

theorem told_requestStop (i : MemberId) :
    ∀ m, (p.requestStop i).crew[i]? = some m → m.poller.worker.stop = true := by
  intro m hm
  simp only [requestStop, modifyMember, List.getElem?_modify_eq] at hm
  obtain ⟨m', -, rfl⟩ := Option.map_eq_some_iff.mp hm
  rfl

/-- Members that are leaving are told to stop. -/
theorem foldl_requestStop_turnover {l : List MemberId} (hl : ∀ i ∈ l, ∃ d, (i, d) ∈ w) :
    Turnover now p w [] (l.foldl requestStop p) w := by
  induction l generalizing p with
  | nil => exact .refl
  | cons i l ih =>
      obtain ⟨d, hd⟩ := hl i List.mem_cons_self
      exact (Turnover.single (.tell hd)).after (ih fun j hj => hl j (List.mem_cons_of_mem _ hj))

/-- Members that are retired in turn leave one after the other, each waited for before it is let go
of. -/
theorem retireInTurn_turnover {l : List MemberId} {next : Option Retirement} (w : Leaving)
    (h : p.retireInTurn now l = (next, o)) :
    Turnover now p (l.map (fun i => (i, none)) ++ w) o.events o.pool
      (next.elim [] Retirement.leaving ++ w) := by
  induction l generalizing p next o with
  | nil =>
      cases h
      exact .refl
  | cons i l ih =>
      have hbegun : Turnover now p ((i, none) :: (l.map (fun i => (i, none)) ++ w)) []
          (p.requestStop i) ((i, some ((p.requestStop i).patience now)) ::
            (l.map (fun i => (i, none)) ++ w)) :=
        (Turnover.single (.tell List.mem_cons_self)).silent (.retire (told_requestStop i))
      simp only [retireInTurn] at h
      split at h
      · cases h
        exact hbegun
      · next hover =>
          cases h
          have hgone := hbegun.tail (.dismiss (by rw [hover]; exact Option.some_ne_none _))
          exact hgone.trans (ih rfl)

/-- When one has been let go of, the next is waited for. -/
theorem retireNext_turnover {r : Retirement} {next : Option Retirement} (w : Leaving)
    (h : p.retireNext now r = some (next, o)) :
    Turnover now p (r.leaving ++ w) o.events o.pool (next.elim [] Retirement.leaving ++ w) := by
  simp only [retireNext] at h
  obtain ⟨b, hover, he⟩ := Option.map_eq_some_iff.mp h
  cases he
  have hgone : Turnover now p (r.leaving ++ w) _ _ (r.rest.map (fun i => (i, none)) ++ w) :=
    .single (.dismiss (by rw [hover]; exact Option.some_ne_none _))
  exact hgone.trans (retireInTurn_turnover w rfl)

/-- A sweep lets go of those that it need not wait for any longer. -/
theorem sweep_turnover (now : Instant) (pending : List (MemberId × Instant)) (n : Nat) (p : Pool α)
    (w : Leaving) :
    Turnover now p (awaited pending ++ w) (p.sweep now pending n).2.events
      (p.sweep now pending n).2.pool (awaited (p.sweep now pending n).1.1 ++ w) := by
  induction pending generalizing n p w with
  | nil => exact .refl
  | cons v pending ih =>
      obtain ⟨i, d⟩ := v
      simp only [sweep]
      split
      · -- the member stays, and the others are looked at
        have hback : (awaited pending ++ (i, some d) :: w).Perm
            (awaited ((i, d) :: pending) ++ w) := List.perm_middle
        have hrest := ih n p ((i, some d) :: w)
        exact (Turnover.single (.sort hback.symm)).after (hrest.perm List.perm_middle)
      · next hover =>
          have hgone :
              Turnover now p (awaited ((i, d) :: pending) ++ w) _ _ (awaited pending ++ w) :=
            .single (.dismiss (by rw [hover]; exact Option.some_ne_none _))
          exact hgone.trans (ih _ _ w)

/-! ## The scaler -/

/-- Outside an iteration the scaler has nobody in hand. -/
theorem line_eq_nil (hp : ∀ point, p.scaler.place ≠ .inside point) : p.line = [] := by
  simp only [line]

theorem line_of_inside {point : ScalerPoint} (hp : p.scaler.place = .inside point) :
    p.line = point.leaving := by
  simp only [line, hp]

/-- Another place of the scaler changes nobody's standing. -/
theorem Passage.scaler (u : Worker ScalerPoint Unit) :
    Passage now p w [] { p with scaler := u } w :=
  .aside rfl rfl rfl rfl (List.forall_mem_nil _)

theorem Turnover.ends {how : IterationEnd} {o' : PoolOutcome α}
    (ht : Turnover now p w o.events o.pool w') (h : endScaling o how = some o') :
    Turnover now p w o'.events o'.pool (o'.pool.line ++ w') := by
  obtain ⟨u, rfl, hu⟩ := endScaling_eq_some h
  rw [line_eq_nil (by exact hu)]
  exact ht.silent (.scaler u)

theorem Turnover.moves (point : ScalerPoint) {o' : PoolOutcome α}
    (ht : Turnover now p w o.events o.pool (point.leaving ++ w'))
    (h : moveScaling o point = some o') :
    Turnover now p w o'.events o'.pool (o'.pool.line ++ w') := by
  obtain ⟨u, rfl, hu⟩ := moveScaling_eq_some h
  rw [show ({ o.pool with scaler := u } : Pool α).line = point.leaving from line_of_inside hu]
  exact ht.silent (.scaler u)

/-- Shrinking tells those who are too many to stop, and retires them in turn. -/
theorem shrink_turnover {n : Nat} {next : Option Retirement} (w : Leaving)
    (h : p.shrink now n = (next, o)) :
    Turnover now p w o.events o.pool (next.elim [] Retirement.leaving ++ w) := by
  simp only [shrink] at h
  generalize hkeep : max (p.active.length - n) p.settings.minWorkers = keep at h
  have hleft : Turnover now p w [] { p with active := p.active.take keep }
      ((p.active.drop keep).map (fun i => (i, none)) ++ w) :=
    .single (.leave _ _ (.of_eq (List.take_append_drop keep p.active).symm))
  have htold := hleft.after (foldl_requestStop_turnover (l := p.active.drop keep) fun i hi =>
    ⟨none, List.mem_append_left _ (List.mem_map_of_mem hi)⟩)
  exact htold.after (retireInTurn_turnover w h)

theorem followPolicy_turnover (w : Leaving) (h : p.followPolicy env now = some o) :
    Turnover now p w o.events o.pool (o.pool.line ++ w) := by
  simp only [followPolicy] at h
  have hseen : Turnover now p w [.observed (p.observe now)] p w :=
    .single (.aside rfl rfl rfl rfl (by simp [PoolEvent.created?, PoolEvent.destroyed?]))
  split at h
  · exact hseen.ends h
  · next n hd =>
      have hgrown :=
        spawnMany_turnover env now (min n (p.settings.maxWorkers - p.active.length)) p w
      split at h
      · next hg =>
          rw [show p.spawnMany env now _ = _ from hg] at hgrown
          exact Turnover.ends (hseen.trans hgrown) h
      · next hg =>
          rw [show p.spawnMany env now _ = _ from hg] at hgrown
          exact Turnover.ends (hseen.trans hgrown) h
  · next n hd =>
      split at h
      · next hs => exact Turnover.ends (hseen.trans (shrink_turnover w hs)) h
      · next hs => exact Turnover.moves _ (hseen.trans (shrink_turnover w hs)) h

theorem fillUp_turnover (w : Leaving) (h : p.fillUp env now = some o) :
    Turnover now p w o.events o.pool (o.pool.line ++ w) := by
  simp only [fillUp] at h
  have hfilled := spawnMany_turnover env now (p.settings.minWorkers - p.active.length) p w
  split at h
  · next hs =>
      rw [hs] at hfilled
      exact hfilled.ends h
  · next hs =>
      rw [hs] at hfilled
      obtain ⟨o₁, hf, rfl⟩ := Option.map_eq_some_iff.mp h
      exact hfilled.trans (followPolicy_turnover w hf)

theorem Turnover.afterRemoval {next : Option Retirement} {o' : PoolOutcome α}
    (ht : Turnover now p w o.events o.pool (next.elim [] Retirement.leaving ++ w'))
    (h : afterRemoval env now (next, o) = some o') :
    Turnover now p w o'.events o'.pool (o'.pool.line ++ w') := by
  cases next with
  | some r => exact Turnover.moves (.replacing r) ht h
  | none =>
      obtain ⟨o₁, hf, rfl⟩ := Option.map_eq_some_iff.mp h
      exact Turnover.trans ht (fillUp_turnover w' hf)

/-- The unfit leave the active members and are retired in turn. -/
theorem removeUnfit_turnover {next : Option Retirement} (w : Leaving)
    (h : p.removeUnfit env now = (next, o)) :
    Turnover now p w o.events o.pool (next.elim [] Retirement.leaving ++ w) := by
  simp only [removeUnfit, List.partition_eq_filter_filter] at h
  have hleft : Turnover now p w [] _ _ := .single (.leave _ _
    (List.filter_append_perm (fun i => (p.crew[i]?).any env.isFit) p.active).symm)
  exact hleft.after (retireInTurn_turnover w h)

/-- Whoever the scaler had in hand is let go of or still in its hands. -/
theorem ScalerDeed.turnover (w : Leaving) (h : ScalerDeed env now p o) :
    Turnover now p (p.line ++ w) o.events o.pool (o.pool.line ++ w) := by
  cases h with
  | @turns u hp hw =>
      rw [line_eq_nil hp]
      have hnone : ({ p with scaler := u } : Pool α).line = [] := by
        simp only [line]
        split
        · next point hplace =>
            obtain ⟨ends, rfl⟩ := hw point hplace
            rfl
        · rfl
      rw [hnone]
      exact .single (.scaler u)
  | rises hp he =>
      rw [line_of_inside hp]
      exact Turnover.ends (o := { pool := p }) .refl he
  | evaluates hp hr ha =>
      rw [line_of_inside hp]
      exact (removeUnfit_turnover w rfl).afterRemoval ha
  | replaces hp hn ha =>
      rw [line_of_inside hp]
      exact (retireNext_turnover w hn).afterRemoval ha
  | @shrinks r r' o₁ o' hp hn hm =>
      rw [line_of_inside hp]
      exact Turnover.moves (.shrinking r') (retireNext_turnover w hn) hm
  | shrunk hp hn he =>
      rw [line_of_inside hp]
      exact Turnover.ends (retireNext_turnover w hn) he

/-! ## Calls -/

/-- A call that is struck out gives up the members that it had in hand. -/
theorem Docket.departing_perm (hd : Docket h p) {e : PoolErrand α}
    (hc : p.calls.lookup c = some e) :
    p.departing.Perm (e.leaving ++ (p.calls.filter (·.1 != c)).flatMap (·.2.leaving)) :=
  (perm_cons_filter hd.nodup_calls (mem_of_lookup hc)).flatMap_right _

/-- A call with no members in hand is struck out. -/
theorem Docket.departing_struck (hd : Docket h p) {e : PoolErrand α}
    (hc : p.calls.lookup c = some e) (he : e.leaving = []) :
    p.departing.Perm ((p.calls.filter (·.1 != c)).flatMap (·.2.leaving)) := by
  have hperm := hd.departing_perm hc
  rwa [he] at hperm

theorem Docket.departing_fresh (hd : Docket h p) :
    p.departing.Perm ((p.calls.filter (·.1 != p.nextCall)).flatMap (·.2.leaving)) := by
  rw [filter_fresh hd]
  exact .refl _

theorem Turnover.answer {x : PoolAnswer} (ht : Turnover now p w o.events o.pool (o.pool.line ++ w'))
    (hw : w'.Perm ((o.pool.calls.filter (·.1 != c)).flatMap (·.2.leaving))) :
    Turnover now p w (Pool.answer o c x).events (Pool.answer o c x).pool
      (Pool.answer o c x).pool.leaving := by
  have hanswered : Passage now o.pool (o.pool.line ++ w') [.answered c x] (Pool.answer o c x).pool
      (o.pool.line ++ w') :=
    .aside rfl rfl rfl rfl (by simp [PoolEvent.created?, PoolEvent.destroyed?])
  exact (ht.tail hanswered).perm (hw.append_left _)

theorem Turnover.await {e : PoolErrand α}
    (ht : Turnover now p w o.events o.pool (o.pool.line ++ (e.leaving ++ w')))
    (hw : w'.Perm ((o.pool.calls.filter (·.1 != c)).flatMap (·.2.leaving))) :
    Turnover now p w (Pool.await o c e).events (Pool.await o c e).pool
      (Pool.await o c e).pool.leaving := by
  have hkept : Passage now o.pool (o.pool.line ++ (e.leaving ++ w')) [] (Pool.await o c e).pool
      (o.pool.line ++ (e.leaving ++ w')) := .aside rfl rfl rfl rfl (List.forall_mem_nil _)
  refine (ht.silent hkept).perm ?_
  have hdeparting : (Pool.await o c e).pool.departing =
      (o.pool.calls.filter (·.1 != c)).flatMap (·.2.leaving) ++ e.leaving := by
    simp [departing, Pool.await]
  rw [leaving, hdeparting]
  exact (List.perm_append_comm.trans (hw.append_right _)).append_left _

/-! ## Shutdown -/

/-- Whoever a shutdown waited for is let go of or still waited for. -/
theorem retireAll_turnover (pending : List (MemberId × Instant)) (n : Nat)
    (hw : w.Perm ((p.calls.filter (·.1 != c)).flatMap (·.2.leaving))) :
    Turnover now p (p.line ++ (awaited pending ++ w))
      (p.retireAll now c graceful afterStart pending n).events
      (p.retireAll now c graceful afterStart pending n).pool
      (p.retireAll now c graceful afterStart pending n).pool.leaving := by
  have hline : (p.sweep now pending n).2.pool.line = p.line := by
    rw [line, scaler_sweep, line]
  have hswept : Turnover now p (p.line ++ (awaited pending ++ w)) (p.sweep now pending n).2.events
      (p.sweep now pending n).2.pool
      ((p.sweep now pending n).2.pool.line ++
        (awaited (pending.filter (p.waitsFor now)) ++ w)) := by
    have hsweep := sweep_turnover now pending n p (p.line ++ w)
    rw [sweep_eq] at hsweep
    have hfront (v : Leaving) : (p.line ++ (v ++ w)).Perm (v ++ (p.line ++ w)) := by
      rw [← List.append_assoc, ← List.append_assoc]
      exact List.perm_append_comm.append_right w
    rw [hline]
    exact ((Turnover.single (.sort (hfront _))).after hsweep).perm (hfront _).symm
  by_cases hl : pending.filter (p.waitsFor now) = []
  · rw [retireAll_of_nil hl]
    rw [hl] at hswept
    have hcloses (q : Pool α) (v : Leaving) : Passage now q v q.closed.events q.closed.pool v :=
      .aside rfl rfl rfl rfl (by simp [closed, discardAll, PoolEvent.created?, PoolEvent.destroyed?])
    refine Turnover.answer (o := (p.sweep now pending n).2.pool.closed.after _)
      (hswept.tail (hcloses _ _)) ?_
    simpa [awaited, closed, discardAll, PoolOutcome.after] using hw
  · rw [retireAll_of_ne_nil hl]
    exact Turnover.await hswept (by simpa using hw)

/-- Members that were told to stop are retired together. -/
theorem retire_turnover {l : List MemberId}
    (told : ∀ i ∈ l, ∀ m, p.crew[i]? = some m → m.poller.worker.stop = true) (w : Leaving) :
    Turnover now p (l.map (fun i => (i, none)) ++ w) [] p
      (awaited (l.map fun i => (i, p.patience now)) ++ w) := by
  induction l generalizing w with
  | nil => exact .refl
  | cons i l ih =>
      have hfirst : Turnover now p ((i :: l).map (fun i => (i, none)) ++ w) [] p
          ((i, some (p.patience now)) :: (l.map (fun i => (i, none)) ++ w)) :=
        .single (.retire (told i List.mem_cons_self))
      have hrest := ih (fun j hj => told j (List.mem_cons_of_mem _ hj))
        ((i, some (p.patience now)) :: w)
      exact ((hfirst.perm List.perm_middle.symm).after hrest).perm List.perm_middle

/-- All active members are told to stop, and waited for. -/
theorem disbanded_turnover (w : Leaving) :
    Turnover now p w [] p.disbanded (awaited (p.leavers now) ++ w) := by
  have hleft : Turnover now p w [] { p with active := [] }
      (p.active.map (fun i => (i, none)) ++ w) := .single (.leave [] p.active (.refl _))
  have htold := hleft.after (foldl_requestStop_turnover (l := p.active) fun i hi =>
    ⟨none, List.mem_append_left _ (List.mem_map_of_mem hi)⟩)
  have hpatience : p.disbanded.patience now = p.patience now := by simp [patience]
  rw [leavers, ← hpatience]
  refine htold.after (retire_turnover (fun i hi m hm => ?_) w)
  obtain ⟨m', -, halike⟩ := (Tells.foldl p.active (p := { p with active := [] })).back hm
  rw [halike.stop, decide_eq_true hi, Bool.or_true]

theorem sealed_turnover (w : Leaving) :
    Turnover now p w (p.sealed graceful).events (p.sealed graceful).pool w := by
  refine .single (.aside (by simp) (by simp) ?_ ?_ ?_)
  · cases graceful <;> rfl
  · cases graceful <;> rfl
  · cases graceful <;> simp [sealed, discardAll, PoolEvent.created?, PoolEvent.destroyed?]

/-- A shutdown takes the whole crew in hand. -/
theorem retireCrew_turnover (hw : w.Perm ((p.calls.filter (·.1 != c)).flatMap (·.2.leaving))) :
    Turnover now p (p.line ++ w) (p.retireCrew now c graceful afterStart).events
      (p.retireCrew now c graceful afterStart).pool
      (p.retireCrew now c graceful afterStart).pool.leaving := by
  have hline : (p.sealed graceful).pool.disbanded.line = p.line := by
    rw [line, scaler_disbanded, scaler_sealed, line]
  have hleavers : (p.sealed graceful).pool.leavers now = p.leavers now := by
    cases graceful <;> rfl
  have hgathered : Turnover now p (p.line ++ w) ((p.sealed graceful).events ++ [])
      (p.sealed graceful).pool.disbanded
      (awaited ((p.sealed graceful).pool.leavers now) ++ (p.line ++ w)) :=
    (sealed_turnover _).trans (disbanded_turnover _)
  rw [hleavers, List.append_nil] at hgathered
  rw [retireCrew_eq]
  have hfront : (awaited (p.leavers now) ++ (p.line ++ w)).Perm
      (p.line ++ (awaited (p.leavers now) ++ w)) := by
    rw [← List.append_assoc, ← List.append_assoc]
    exact List.perm_append_comm.append_right w
  refine (hgathered.perm hfront).trans ?_
  rw [← hline]
  exact retireAll_turnover _ _ (by simpa using hw)

section Opening

variable {p' : Pool α} (ho : Opening env now p a c graceful afterStart es p')

include ho

theorem Opening.turnover (w : Leaving) : Turnover now p w es p'.draining w := by
  have hdrains (q : Pool α) : Passage now q w [] q.draining w :=
    .aside rfl rfl rfl rfl (List.forall_mem_nil _)
  cases ho with
  | asked hp =>
      have hnamed : Turnover now p w [] p.named w :=
        .single (.aside rfl rfl rfl rfl (List.forall_mem_nil _))
      exact hnamed.silent (hdrains p.named)
  | failed hp hs =>
      have hrunning : Turnover now p w [] { p.named with phase := .running } w :=
        .single (.aside rfl rfl rfl rfl (List.forall_mem_nil _))
      have hmade := spawnMany_turnover env now p.settings.minWorkers
        { p.named with phase := .running } w
      rw [hs] at hmade
      exact (hrunning.after hmade).silent (hdrains _)

theorem Opening.line_eq : p'.draining.line = p.line := by
  cases ho with
  | asked hp => rfl
  | @failed error o hp hs =>
      have hscaler := scaler_spawnMany env now p.settings.minWorkers
        { p.named with phase := .running }
      rw [hs] at hscaler
      have hplace : o.pool.draining.scaler.place = p.scaler.place :=
        congrArg (fun u => u.requestStop.place) hscaler
      rw [line, hplace, line]

/-- The opening of a shutdown leaves those who leave to whoever has them in hand. -/
theorem Opening.departing_perm (hd : Docket h p) :
    p.departing.Perm ((p'.draining.calls.filter (·.1 != c)).flatMap (·.2.leaving)) := by
  rw [draining, ho.calls_eq, ho.call_eq]
  exact hd.departing_fresh

end Opening

/-- A start makes members and turns nobody out. -/
theorem started_turnover {error : Option PoolError} (w : Leaving)
    (hs : spawnMany env now p.settings.minWorkers { p.named with phase := .running } = (error, o)) :
    Turnover now p w o.events o.pool w ∧ o.pool.scaler = p.scaler ∧ o.pool.calls = p.calls := by
  have hrunning : Turnover now p w [] { p.named with phase := .running } w :=
    .single (.aside rfl rfl rfl rfl (List.forall_mem_nil _))
  have hmade := spawnMany_turnover env now p.settings.minWorkers
    { p.named with phase := .running } w
  have hscaler := scaler_spawnMany env now p.settings.minWorkers { p.named with phase := .running }
  rw [hs] at hmade hscaler
  exact ⟨hrunning.after hmade, hscaler, (spawnMany_chain hs).calls_eq.1⟩

/-- Every action is a sequence of changes by which members come and go. -/
theorem Deed.turnover (hd : Docket h p) (he : Ends p)
    (hsound : ∀ m ∈ p.crew, m.poller.worker.Sound) (hs : Deed env now p a o) :
    Turnover now p p.leaving o.events o.pool o.pool.leaving := by
  have hnamed {q : Pool α} {es : List (PoolEvent α)} (hs : q.settings = p.settings)
      (hc : q.crew = p.crew) (ha : q.active = p.active) (hn : q.nextNumber = p.nextNumber)
      (hes : ∀ e ∈ es, e.created? = none ∧ e.destroyed? = none) :
      Turnover now p p.leaving es q (p.line ++ p.departing) :=
    .single (.aside hs hc ha hn hes)
  have hquiet := List.forall_mem_nil fun e : PoolEvent α => e.created? = none ∧ e.destroyed? = none
  cases hs with
  | spurned hp => exact Turnover.answer (hnamed rfl rfl rfl rfl hquiet) hd.departing_fresh
  | accepted ho hq hs =>
      cases ho with
      | new hp => exact Turnover.answer (hnamed rfl rfl rfl rfl hquiet) hd.departing_fresh
      | waited hc =>
          exact Turnover.answer (hnamed rfl rfl rfl rfl hquiet) (hd.departing_struck hc rfl)
  | returned ho hs =>
      have hturned :
          ∀ e ∈ [(.turnedAway : PoolEvent α)], e.created? = none ∧ e.destroyed? = none := by
        simp [PoolEvent.created?, PoolEvent.destroyed?]
      cases ho with
      | new hp => exact Turnover.answer (hnamed rfl rfl rfl rfl hturned) hd.departing_fresh
      | waited hc =>
          exact Turnover.answer (hnamed rfl rfl rfl rfl hturned) (hd.departing_struck hc rfl)
  | queued hp hs => exact Turnover.await (hnamed rfl rfl rfl rfl hquiet) hd.departing_fresh
  | followed hf hr =>
      cases hf with
      | new hp => exact Turnover.answer (hnamed rfl rfl rfl rfl hquiet) hd.departing_fresh
      | waited hc => exact Turnover.answer .refl (hd.departing_struck hc rfl)
  | follows hp => exact Turnover.await (hnamed rfl rfl rfl rfl hquiet) hd.departing_fresh
  | abandoned hp => exact Turnover.answer (hnamed rfl rfl rfl rfl hquiet) hd.departing_fresh
  | @opens _ c graceful afterStart es p' ho hw =>
      have hopened := ho.turnover p.leaving
      rw [leaving, ← ho.line_eq] at hopened
      rw [leaving, ← ho.line_eq]
      exact hopened.trans (Turnover.await (o := { pool := p'.draining })
        (e := .shutdown graceful (.awaitingScaler (p'.patience now)) afterStart) .refl
        (ho.departing_perm hd))
  | rushes ho hw =>
      have hopened := ho.turnover p.leaving
      rw [leaving, ← ho.line_eq] at hopened
      rw [leaving, ← ho.line_eq]
      exact hopened.trans (retireCrew_turnover (ho.departing_perm hd))
  | gathers hc hw => exact retireCrew_turnover (hd.departing_struck hc rfl)
  | sweeps hc =>
      have hperm : p.leaving.Perm (p.line ++ _) := (hd.departing_perm hc).append_left p.line
      exact (Turnover.single (.sort hperm)).after (retireAll_turnover _ _ (.refl _))
  | restarted hp => exact Turnover.answer (hnamed rfl rfl rfl rfl hquiet) hd.departing_fresh
  | @started o scaler hp hs' hw =>
      obtain ⟨hmade, hscaler, hcalls⟩ := started_turnover p.leaving hs'
      have hstruck : p.departing.Perm ((o.pool.calls.filter (·.1 != p.nextCall)).flatMap _) :=
        hcalls ▸ hd.departing_fresh
      refine Turnover.answer (o := { o with pool.scaler := scaler }) ?_ hstruck
      have hnew : p.scaler = {} := by
        obtain ⟨s, n, rejected, rfl⟩ := he.created hp
        rfl
      rw [hscaler, hnew] at hw
      cases hw
      have hline : p.line = [] := by rw [line, hnew]
      rw [leaving, hline] at hmade ⊢
      exact hmade.silent (.scaler _)
  | @stuck o error hp hs' hw =>
      obtain ⟨hmade, hscaler, hcalls⟩ := started_turnover p.leaving hs'
      have hstruck : p.departing.Perm ((o.pool.calls.filter (·.1 != p.nextCall)).flatMap _) :=
        hcalls ▸ hd.departing_fresh
      refine Turnover.answer ?_ hstruck
      rw [line, hscaler]
      exact hmade
  | flushed =>
      refine .single (.act _ p.bench (List.length_map _) (fun i m m' hm hm' => ?_) hquiet)
      rw [List.getElem?_map, hm] at hm'
      cases hm'
      exact ⟨⟨rfl, rfl, by simp, by simp [Member.phase]⟩, rfl⟩
  | @member i b m o hm hs' =>
      refine .single (.act _ o.bench (List.length_modify _ _ _) (fun j m₁ m₂ hm₁ hm₂ => ?_) ?_)
      · rcases getElem?_acted hm hm₂ with ⟨rfl, rfl⟩ | ⟨-, hm₂⟩
        · rw [hm] at hm₁
          cases hm₁
          have hmoved := Poller.step_deed hs'
          have hacts : Poller.Evolves m.poller o.poller := .acts .refl hmoved
          have hstopped := hacts.stopped (hsound m (List.mem_of_getElem? hm))
          exact ⟨⟨rfl, rfl, hmoved.stop_eq.trans, hstopped⟩, rfl⟩
        · rw [hm₁] at hm₂
          cases hm₂
          exact ⟨.refl _, rfl⟩
      · simp [PoolEvent.created?, PoolEvent.destroyed?]
  | scaler hs' =>
      have hdeparting : o.pool.departing = p.departing := by
        rw [departing, (scalerStep_chain hs').calls_eq.1, departing]
      rw [leaving, leaving, hdeparting]
      exact (scalerStep_deed hs').turnover p.departing

end Pool

end Backpressure
