import Backpressure.Proofs.Pool.Bounds
import Backpressure.Proofs.Pool.Roster

/-!
# The life of a member

Whatever the factory and the policy say, a member has one life.  It joins when the factory has made
a handler for it, under a name that nobody else ever has, and is active from then on.  Once it has
left the active ones it never comes back.  It is told to stop no later than the wait for its stop
begins, and it is dismissed once, when it has stopped or the wait for it is over.  The factory lets
go of it at that moment and at no other.

*One moment.*  `Standing` says how the members stand.  *Two moments.*  `Continues` says what stays
as it was between them.  *One action.*  Whoever is in the crew after it and was not before has
joined, and whoever has been dismissed after it and was not before had a reason to be.
-/

namespace Backpressure.Pool

open Duration (ofMillis)

variable {α : Type} {env : Surroundings α} {now t u t₀ : Instant} {p q p₀ : Pool α} {a : Action α}
  {o : PoolOutcome α} {es : List (PoolEvent α)} {h k : History α} {i : MemberId} {m : Member α}
  {R : Regime α} {s : PoolSettings}

/-- The wait for the stop of a member has begun and is not over. -/
def IsAwaited (p : Pool α) (i : MemberId) : Prop := ∃ d, (i, some d) ∈ p.leaving

/-- How the members of a pool stand. -/
structure Standing (h : History α) (p : Pool α) : Prop where
  /-- The members are those for whom the factory made a handler, in the order in which they
  joined. -/
  created : p.names = createdIn h.events
  /-- No two have the same name. -/
  distinct : p.names.Nodup
  /-- The factory let go of those who were dismissed, once each, and of nobody else. -/
  destroyed : p.departed.Perm (destroyedIn h.events)
  /-- Whoever is active has not been dismissed, and is not waited for. -/
  apart {i : MemberId} {m : Member α} (hi : i ∈ p.active) (hm : p.crew[i]? = some m) :
    m.dismissed = none ∧ ¬p.IsAwaited i
  /-- Whoever is waited for was told to stop, and so was whoever has been dismissed. -/
  told {i : MemberId} {m : Member α} (hm : p.crew[i]? = some m)
    (hi : p.IsAwaited i ∨ m.dismissed ≠ none) : m.poller.worker.stop = true

/-- What stays as it was from one moment to a later one. -/
structure Continues (q p : Pool α) : Prop where
  /-- A member stays the same, and was dismissed when it was. -/
  kept {i : MemberId} {m : Member α} (hm : q.crew[i]? = some m) :
    ∃ m', p.crew[i]? = some m' ∧ m'.name = m.name ∧ m'.joined = m.joined ∧
      (m.dismissed ≠ none → m'.dismissed = m.dismissed)
  /-- Nobody comes back. -/
  active {i : MemberId} (hi : i ∈ p.active) : i ∈ q.active ∨ q.crew.length ≤ i

/-! ## Who joins stays for a while -/

theorem Adds.fresh_active {n : Nat} (ha : Adds n p es q) (hi : p.crew.length ≤ i)
    (hlt : i < q.crew.length) : i ∈ q.active := by
  rw [ha.active]
  exact List.mem_append_right _ (List.mem_range'_1.mpr ⟨hi, ha.length_crew ▸ hlt⟩)

/-- Whoever is active stays, unless there are more than the fewest. -/
theorem Follows.active_mem (hf : Follows env now p es q) (hi : i ∈ p.active)
    (hle : p.active.length ≤ p.settings.minWorkers) : i ∈ q.active := by
  cases hf with
  | held hd ha hc => exact ha ▸ hi
  | grown hd ha => exact ha.active ▸ List.mem_append_left _ hi
  | stinted hd hk ha => exact ha.active ▸ List.mem_append_left _ hi
  | @shrunk n gone es q hd hs he =>
      have hnone : gone = [] := List.length_eq_zero_iff.mp (by rw [hs.number]; omega)
      have hsame := hs.active
      rw [hnone, List.append_nil] at hsame
      exact hsame ▸ hi

theorem Follows.fresh_active (hf : Follows env now p es q) (hi : p.crew.length ≤ i)
    (hlt : i < q.crew.length) : i ∈ q.active := by
  cases hf with
  | held hd ha hc => exact absurd (hc ▸ hlt) (Nat.not_lt.mpr hi)
  | grown hd ha => exact ha.fresh_active hi hlt
  | stinted hd hk ha => exact ha.fresh_active hi hlt
  | shrunk hd hs he => exact absurd (hs.crew ▸ hlt) (Nat.not_lt.mpr hi)

/-- Those who make up for the missing are needed, so the policy takes none of them away. -/
theorem Fills.fresh_active (hf : Fills env now p es q) (hi : p.crew.length ≤ i)
    (hlt : i < q.crew.length) : i ∈ q.active := by
  cases hf with
  | short hk ha => exact ha.fresh_active hi hlt
  | @full _ _ q₁ _ ha hl hs hf =>
      rcases Nat.lt_or_ge i q₁.crew.length with hnew | hnew
      · have hactive := ha.fresh_active hi hnew
        have hmade := ha.length_crew
        have hcount := ha.length_active
        have hfull : q₁.active.length ≤ q₁.settings.minWorkers := by
          rw [hs]
          omega
        exact hf.active_mem hactive hfull
      · exact hf.fresh_active hnew hlt

theorem Scales.fresh_active (hs : Scales env now p o) (hi : p.crew.length ≤ i)
    (hlt : i < o.pool.crew.length) : i ∈ o.pool.active := by
  cases hs with
  | rests hp hq ha hc => exact absurd (hc ▸ hlt) (Nat.not_lt.mpr hi)
  | waits hl ha hc => exact absurd (hc ▸ hlt) (Nat.not_lt.mpr hi)
  | goesOn hl ha hc hs he hn hf hr => exact hf.fresh_active (hc ▸ hi) hlt

theorem length_crew_retireCrew {c : CallId} {graceful : Bool} {afterStart : Option PoolError} :
    (p.retireCrew now c graceful afterStart).pool.crew.length = p.crew.length := by
  rw [retireCrew_eq, PoolOutcome.after, length_crew_retireAll, disbanded_chain.length_crew_eq]
  exact congrArg List.length crew_sealed

/-- Whoever has joined is active, unless the start failed. -/
theorem Deed.fresh_active {most : Nat} (hz : Sized most p) (hs : Deed env now p a o)
    (hi : p.crew.length ≤ i) (hlt : i < o.pool.crew.length) :
    i ∈ o.pool.active ∨ a = .start ∧ ∃ name, .refused name ∈ o.events := by
  have hopening {c : CallId} {graceful : Bool} {afterStart : Option PoolError} {p' : Pool α}
      {es fs : List (PoolEvent α)} (ho : Opening env now p a c graceful afterStart es p')
      (hnew : p.crew.length < p'.crew.length) :
      a = .start ∧ ∃ name, .refused name ∈ es ++ fs := by
    cases ho with
    | asked hp => exact absurd hnew (Nat.lt_irrefl _)
    | failed hp hspawn =>
        obtain ⟨k, made, name, hk, ha, hmade⟩ := spawnMany_short hspawn
        exact ⟨rfl, name, by simp [hmade]⟩
  have hsame (hc : o.pool.crew.length = p.crew.length) : i ∈ o.pool.active :=
    absurd (hc ▸ hlt) (Nat.not_lt.mpr hi)
  cases hs with
  | scaler hscaler =>
      exact .inl (((scalerStep_deed hscaler).scales hz.sorted hz.known).fresh_active hi hlt)
  | started hp hspawn hw | stuck hp hspawn hw =>
      exact .inl ((spawnMany_adds hspawn).fresh_active hi hlt)
  | spurned | queued | follows | abandoned | restarted => exact .inl (hsame rfl)
  | accepted ho | returned ho => cases ho <;> exact .inl (hsame rfl)
  | followed hf => cases hf <;> exact .inl (hsame rfl)
  | flushed => exact .inl (hsame (List.length_map _))
  | member => exact .inl (hsame (List.length_modify _ _ _))
  | sweeps => exact .inl (hsame (length_crew_retireAll _ _))
  | gathers hc hw => exact .inl (hsame length_crew_retireCrew)
  | opens ho hw => exact .inr (hopening ho (Nat.lt_of_le_of_lt hi hlt))
  | @rushes _ c graceful afterStart es p' ho hw =>
      refine .inr (hopening ho ?_)
      have hlength : (p'.draining.retireCrew now c graceful afterStart).pool.crew.length =
          p'.crew.length := length_crew_retireCrew
      exact Nat.lt_of_le_of_lt hi (hlength ▸ hlt)

/-! ## Two moments of a run -/

theorem Continues.refl (p : Pool α) : Continues p p where
  kept hm := ⟨_, hm, rfl, rfl, fun _ => rfl⟩
  active hi := .inl hi

theorem Continues.trans {r : Pool α} (h : Continues q p) (k : Continues p r)
    (hle : q.crew.length ≤ p.crew.length) : Continues q r where
  kept hm := by
    obtain ⟨m', hm', hname, hjoined, hgone⟩ := h.kept hm
    obtain ⟨m'', hm'', hname', hjoined', hgone'⟩ := k.kept hm'
    refine ⟨m'', hm'', hname'.trans hname, hjoined'.trans hjoined, fun hd => ?_⟩
    rw [hgone' (by rwa [hgone hd]), hgone hd]
  active hi := (k.active hi).elim h.active fun hnew => .inr (Nat.le_trans hle hnew)

theorem Turnover.continues {w w' : Leaving} (hr : Roster p w) (ht : Turnover now p w es q w') :
    Continues p q where
  kept {i m} hm := by
    obtain ⟨m', hm', hlasts⟩ := ht.stays hm
    refine ⟨m', hm', hlasts.name, hlasts.joined, fun hd => ?_⟩
    rw [← Pool.dismissedAt_eq hm] at hd ⊢
    rw [← Pool.dismissedAt_eq hm']
    exact (ht.dismissedAt hr i).resolve_right fun hnow => hd hnow.1
  active := ht.active

/-- Time never goes back. -/
theorem Run.le (run : Run R t₀ p₀ h t p) : t₀ ≤ t := by
  induction run with
  | here => exact Nat.le_refl t₀
  | act _ _ _ ih => exact ih
  | pass _ hle ih => exact Nat.le_trans ih hle

section Later

variable (earlier : Run R t₀ (ofSettings s) h u q)

include earlier

theorem Run.stays (later : Run R u q k t p) : Stays q p := by
  induction later with
  | here => exact .of_crew_eq rfl
  | act later _ hs ih => exact ih.trans ((earlier.trans later).turnover hs).stays
  | pass _ _ ih => exact ih

theorem Run.continues (later : Run R u q k t p) : Continues q p := by
  induction later with
  | here => exact .refl q
  | act later _ hs ih =>
      have run := earlier.trans later
      exact ih.trans ((run.turnover hs).continues run.roster) (earlier.stays later).length_le
  | pass _ _ ih => exact ih

/-- A wait that has begun since then lasts as long as the pool has patience. -/
theorem Run.deadline_le (later : Run R u q k t p) {d : Instant} (hi : (i, some d) ∈ p.leaving) :
    (i, some d) ∈ q.leaving ∨ u + s.shutdownTimeout ≤ d := by
  induction later with
  | here => exact .inl hi
  | act later _ hs ih =>
      have run := earlier.trans later
      rcases (run.turnover hs).deadlines hi with hold | hnow
      · exact ih hold
      · rw [patience, run.settings_eq] at hnow
        rw [hnow]
        exact .inr (Nat.le_trans (Nat.add_le_add_right later.le _) (Instant.le_afterWait _ _))
  | pass _ _ ih => exact ih hi

end Later

theorem Run.standing (run : Run R t₀ (ofSettings s) h t p) : Standing h p where
  created := run.names_eq
  distinct := run.nodup_names
  destroyed := run.departed_perm
  apart {i m} hi hm := by
    have hr := run.roster
    refine ⟨?_, fun ⟨d, hd⟩ => ?_⟩
    · rw [← Pool.dismissedAt_eq hm]
      exact hr.dismissedAt_eq (List.mem_append_left _ hi)
    · have hleaves : i ∈ p.leaving.map (·.1) := List.mem_map_of_mem (f := (·.1)) hd
      exact (List.nodup_append.mp hr.nodup).2.2 i hi i hleaves rfl
  told {i m} hm hi := by
    have htold : p.IsTold i := by
      cases hi with
      | inl hi => exact run.roster.told hi.choose_spec
      | inr hd => exact run.roster.gone (by rwa [Pool.dismissedAt_eq hm])
    obtain ⟨m', hm', hstop⟩ := htold
    rw [hm] at hm'
    cases hm'
    exact hstop

/-- Whoever has just been dismissed has stopped, or has had the time to since a moment at which
nobody waited for it. -/
theorem Run.reason (earlier : Run R t₀ (ofSettings s) h u q) (later : Run R u q k t p)
    (hs : p.step env t a = some o) (hgone : o.pool.dismissedAt i ≠ none)
    (hnone : p.dismissedAt i = none) :
    o.pool.dismissedAt i = some t ∧
      (o.pool.IsStopped i ∨ (¬q.IsAwaited i → u + s.shutdownTimeout ≤ t)) := by
  have run := earlier.trans later
  rcases (run.turnover hs).dismissedAt run.roster i with hsame | ⟨-, hnow, hover⟩
  · exact absurd (hsame.trans hnone) hgone
  · refine ⟨hnow, hover.imp_right fun ⟨d, hd, hwait⟩ hbefore => ?_⟩
    refine Nat.le_trans ?_ hd
    cases hwait with
    | inl hwait => exact (earlier.deadline_le later hwait).resolve_left fun hi => hbefore ⟨d, hi⟩
    | inr hnow =>
        rw [hnow, patience, run.settings_eq]
        exact Nat.le_trans (Nat.add_le_add_right later.le _) (Instant.le_afterWait _ _)

/-- Every member has one life: under a name of its own it joins, is active for a while, is told to
stop and waited for, and is dismissed when it has stopped or has had the time to. -/
theorem Run.lives (made : make s = .ok p₀) (earlier : Run R t₀ p₀ h u q) (later : Run R u q k t p) :
    Standing (h ++ k) p ∧ Continues q p ∧
      ∀ env a o, p.step env t a = some o → ∀ i m', o.pool.crew[i]? = some m' →
        (p.crew.length ≤ i → m'.joined = t ∧
          (i ∈ o.pool.active ∨ a = .start ∧ ∃ name, .refused name ∈ o.events)) ∧
        (m'.dismissed ≠ none → (∀ m, p.crew[i]? = some m → m.dismissed = none) →
          m'.dismissed = some t ∧
            (m'.phase = .stopped ∨ (¬q.IsAwaited i → u + s.shutdownTimeout ≤ t))) := by
  have hm := min_le_max_of_make made
  obtain ⟨rfl, -⟩ := make_eq_ok made
  have run := earlier.trans later
  refine ⟨run.standing, earlier.continues later, fun env a o hs i m' hm' => ⟨fun hi => ?_, ?_⟩⟩
  · have hlt := (List.getElem?_eq_some_iff.mp hm').1
    exact ⟨(run.turnover hs).joined hm' hi, (step_deed hs).fresh_active (run.sized hm) hi hlt⟩
  · intro hd hnone
    have hbefore : p.dismissedAt i = none := by
      cases hp : p.crew[i]? with
      | none => exact dismissedAt_of_le (List.getElem?_eq_none_iff.mp hp)
      | some m => exact (Pool.dismissedAt_eq hp).trans (hnone m hp)
    rw [← Pool.dismissedAt_eq hm'] at hd ⊢
    obtain ⟨hnow, hreason⟩ := earlier.reason later hs hd hbefore
    refine ⟨hnow, hreason.imp_left fun ⟨m, hm, hstopped⟩ => ?_⟩
    rw [hm'] at hm
    cases hm
    exact hstopped

/-- The first member is rejected, is dismissed because it has not stopped in 20 milliseconds, and
another takes its place. -/
theorem lives_of_rejection : ∃ h k q p o,
    make hastyTrio = .ok (ofSettings hastyTrio : Pool Nat) ∧
      Run .any 0 (ofSettings hastyTrio) h (ofMillis 10) q ∧
      Run .any (ofMillis 10) q k (ofMillis 30) p ∧
      p.step fickle (ofMillis 30) (.scaler .retired) = some o ∧ q.active = [0] ∧ p.IsAwaited 0 ∧
      o.pool.active = [1] ∧ o.pool.dismissedAt 0 = some (ofMillis 30) ∧
      Standing (h ++ k) p ∧ Continues q p := by
  have hplay : ((ofSettings hastyTrio).play fickle 0 (moods.take 2)).bind (fun v =>
      (v.2.2.play fickle (ofMillis 10) [(ofMillis 10, .scaler .evaluate)]).bind fun w =>
        (w.2.2.step fickle (ofMillis 30) (.scaler .retired)).map fun o =>
          (v.2.1, v.2.2.active, w.2.1, w.2.2.leaving, o.pool.active, o.pool.dismissedAt 0)) =
      some (0, [0], ofMillis 10, [(0, some (ofMillis 30))], [1], some (ofMillis 30)) := by
    rfl
  obtain ⟨⟨h, u, q⟩, hfirst, hplay⟩ := Option.bind_eq_some_iff.mp hplay
  obtain ⟨⟨k, t, p⟩, hnext, hplay⟩ := Option.bind_eq_some_iff.mp hplay
  obtain ⟨o, hstep, he⟩ := Option.map_eq_some_iff.mp hplay
  simp only [Prod.mk.injEq] at he
  obtain ⟨rfl, hactive, rfl, hleaving, hnew, hgone⟩ := he
  have hmade : make hastyTrio = .ok (ofSettings hastyTrio : Pool Nat) := by rfl
  have earlier : Run .any 0 _ h 0 q :=
    Run.play (fun _ _ _ => trivial) hfirst
  have later : Run .any (ofMillis 10) _ k (ofMillis 10) p :=
    Run.play (fun _ _ _ => trivial) hnext
  have earlier : Run .any 0 _ h (ofMillis 10) q := earlier.pass (Nat.zero_le _)
  have later : Run .any (ofMillis 10) _ k (ofMillis 30) p := later.pass (by decide)
  have hlives := Run.lives hmade earlier later
  refine ⟨h, k, q, p, o, hmade, earlier, later, hstep, hactive, ⟨ofMillis 30, ?_⟩, hnew,
    hgone, hlives.1, hlives.2.1⟩
  rw [hleaving]
  exact List.mem_cons_self

end Backpressure.Pool
