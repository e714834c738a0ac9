import Backpressure.Proofs.Pool.Course
import Backpressure.Proofs.Pool.Lives
import Backpressure.Proofs.Pool.Stragglers

/-!
# How many handlers run at once

A member handles one item at a time.  So the handlers that run are bounded by the members that
have not been dismissed, and those are at most as many as the pool may have: whoever leaves the
active ones is waited for before anybody takes its place.

*Overdue members.*  A member that was dismissed because it did not stop in time goes on with the
item that it has in hand.  Nobody waits for it any more, and its successor may already be at work.
So there can be more handlers than members that the pool may have, by as many as there are members
like this.  Each of them was told to stop and had the time to.

*The staff.*  The members that have not been dismissed are those that are active and those that are
leaving.  Only who joins adds to them (`Turnover.staff_le`), and the scaler makes workers when
nobody is left whom it waits for.
-/

namespace Backpressure

variable {α : Type}

/-- A call that does not lead has no members in hand. -/
theorem PoolErrand.leaving_eq_nil {e : PoolErrand α} (he : e.leads = false) : e.leaving = [] := by
  unfold PoolErrand.leads at he
  split at he <;> first | rfl | cases he

namespace Pool

open Duration (ofMillis)

variable {env : Surroundings α} {now t u t₀ : Instant} {p q p₀ : Pool α} {a : Action α}
  {o : PoolOutcome α} {es fs : List (PoolEvent α)} {h k : History α} {i : MemberId} {m : Member α}
  {R : Regime α} {s : PoolSettings} {w w' : Leaving}

/-- The members that have not been dismissed. -/
def present (p : Pool α) : List (Member α) := p.crew.filter (·.dismissed.isNone)

/-- The members that were dismissed and have an item in hand. -/
def overdue (p : Pool α) : List (Member α) :=
  p.crew.filter fun m => m.dismissed.isSome && !m.poller.held.isEmpty

/-! ## The staff -/

/-- Only who joins adds to the staff. -/
theorem Passage.staff_le (h : Passage now p w es q w') :
    q.active.length + w'.length + p.crew.length ≤ p.active.length + w.length + q.crew.length := by
  cases h with
  | join =>
      simp only [hired, List.length_append, List.length_singleton]
      omega
  | leave stay gone hp =>
      have hsplit := hp.length_eq
      simp only [List.length_append, List.length_map] at hsplit ⊢
      omega
  | @dismiss _ i d hover =>
      have hcrew : (p.dismiss now i).pool.crew.length = p.crew.length := List.length_modify _ _ _
      have hactive : (p.dismiss now i).pool.active = p.active := rfl
      rw [hcrew, hactive, List.length_cons]
      omega
  | tell => simp only [requestStop, modifyMember, List.length_modify, Nat.le_refl]
  | sort hw => exact Nat.le_of_eq (by rw [hw.length_eq])
  | act crew bench hl => exact Nat.le_of_eq (congrArg _ hl.symm)
  | aside hs hc ha => exact Nat.le_of_eq (by rw [hc, ha])
  | refuse | retire => exact Nat.le_refl _

theorem Turnover.staff_le (h : Turnover now p w es q w') :
    q.active.length + w'.length + p.crew.length ≤ p.active.length + w.length + q.crew.length := by
  induction h with
  | refl => exact Nat.le_refl _
  | tail _ hp ih =>
      have hone := hp.staff_le
      omega

/-- The members that have not been dismissed are those that are active or leaving. -/
theorem Roster.length_present (hr : Roster p w) :
    p.present.length = p.active.length + w.length := by
  let here (line : Option (Member α)) : Bool := line.any (·.dismissed.isNone)
  have hplaces : p.crew.map some = (List.range p.crew.length).map (p.crew[·]?) :=
    List.ext_getElem (by simp) fun i hi _ => by simp [List.length_map .. ▸ hi]
  have hpresent : p.present.length =
      ((List.range p.crew.length).filter fun i => here p.crew[i]?).length := by
    have hfiltered := congrArg (fun l => (l.filter here).length) hplaces
    simp only [List.filter_map, List.length_map] at hfiltered
    exact hfiltered
  have hperm : ((List.range p.crew.length).filter fun i => here p.crew[i]?).Perm
      (p.active ++ w.map (·.1)) := by
    refine (List.perm_ext_iff_of_nodup (List.nodup_range.filter _) hr.nodup).mpr fun i => ?_
    rw [hr.here i, List.mem_filter, List.mem_range]
    refine and_congr_right fun hi => ?_
    have hm := List.getElem?_eq_getElem hi
    rw [Pool.dismissedAt_eq hm, hm]
    exact Option.isNone_iff_eq_none
  rw [hpresent, hperm.length_eq, List.length_append, List.length_map]

/-! ## Nobody is replaced too early -/

/-- The members that the pool may have are enough for those that are active and those that the
scaler has in hand, and when nobody is active for those that a shutdown has in hand as well. -/
structure Fits (most : Nat) (p : Pool α) : Prop where
  line : p.active.length + p.line.length ≤ most
  departing : p.active = [] → p.line.length + p.departing.length ≤ most

/-- Without a leader nobody is in the hands of a shutdown. -/
theorem Led.departing_eq_nil (hl : Led p) (hp : p.phase ≠ .draining) : p.departing = [] := by
  refine List.flatMap_eq_nil_iff.mpr fun c hc => PoolErrand.leaving_eq_nil ?_
  have hnone := List.countP_eq_zero.mp (hl.countP_eq hp) c hc
  simpa using hnone

/-- The members that a shutdown has in hand are those of its leader. -/
theorem Led.departing_perm (hl : Led p) (hd : Docket h p) {c : CallId} {e : PoolErrand α}
    (hc : p.calls.lookup c = some e) (he : e.leads) : p.departing.Perm e.leaving := by
  have hperm := hd.departing_perm hc
  obtain ⟨-, hothers⟩ := Led.countP_filter hl hd hc he
  have hnone : (p.calls.filter (·.1 != c)).flatMap (·.2.leaving) = [] := by
    refine List.flatMap_eq_nil_iff.mpr fun v hv => PoolErrand.leaving_eq_nil ?_
    simpa using List.countP_eq_zero.mp hothers v hv
  rwa [hnone, List.append_nil] at hperm

/-! ## The scaler -/

section Scaler

variable {most : Nat}

/-- The pool is filled up and grows as far as it may. -/
theorem Follows.grown_le (hf : Follows env now p es q)
    (hle : p.active.length ≤ p.settings.maxWorkers) :
    p.active.length + q.crew.length ≤ p.settings.maxWorkers + p.crew.length := by
  cases hf with
  | held hd ha hc => omega
  | grown hd ha =>
      have hmade := ha.length_crew
      omega
  | stinted hd hk ha =>
      have hmade := ha.length_crew
      omega
  | shrunk hd hs he =>
      have hcrew := hs.crew
      omega

theorem Fills.grown_le (hm : p.settings.minWorkers ≤ p.settings.maxWorkers)
    (hle : p.active.length ≤ p.settings.maxWorkers) (hf : Fills env now p es q) :
    p.active.length + q.crew.length ≤ p.settings.maxWorkers + p.crew.length := by
  cases hf with
  | short hk ha =>
      have hmade := ha.length_crew
      omega
  | full ha hl hs hf =>
      have hmade := ha.length_crew
      have hactive := ha.length_active
      have hgrown := hf.grown_le (by rw [hs]; omega)
      rw [hs] at hgrown
      omega

/-- The policy takes nobody away whom the pool needs. -/
theorem Follows.least_le (hf : Follows env now p es q) :
    min p.active.length p.settings.minWorkers ≤ q.active.length := by
  cases hf with
  | held hd ha hc =>
      rw [ha]
      exact Nat.min_le_left _ _
  | grown hd ha | stinted hd hk ha =>
      have hactive := ha.length_active
      omega
  | shrunk hd hs he => exact hs.least

/-- Once the pool is filled up, somebody is active. -/
theorem Fills.active_eq_nil (hf : Fills env now p es q) (hmin : 0 < p.settings.minWorkers)
    (hq : q.active = []) : p.active = [] := by
  cases hf with
  | short hk ha => exact (List.append_eq_nil_iff.mp (ha.active.symm.trans hq)).1
  | full ha hl hs hf =>
      have hleast := hf.least_le
      rw [hq, List.length_nil, hs] at hleast
      omega

/-- The scaler waits for nobody any more, and fills up the pool. -/
inductive Restocks (env : Surroundings α) (now : Instant) (p : Pool α) : Pool α → Prop where
  | fills {q : Pool α} {o : PoolOutcome α} (hf : q.fillUp env now = some o)
      (hs : q.settings = p.settings) (ha : q.active.Sublist p.active)
      (hc : q.crew.length = p.crew.length) : Restocks env now p o.pool

theorem afterRemoval_restocks {next : Option Retirement} {o' : PoolOutcome α}
    (hq : Chain Parting q o.events o.pool) (hs : q.settings = p.settings)
    (ha : q.active.Sublist p.active) (hc : q.crew.length = p.crew.length)
    (h : afterRemoval env now (next, o) = some o') :
    o'.pool.crew.length = p.crew.length ∨ Restocks env now p o'.pool := by
  cases next with
  | some r =>
      obtain ⟨u, rfl, -⟩ := moveScaling_eq_some h
      exact .inl (hq.length_crew_eq.trans hc)
  | none =>
      obtain ⟨o₁, hf, rfl⟩ := Option.map_eq_some_iff.mp h
      have hfills : Restocks env now p o₁.pool :=
        .fills hf (hq.settings_eq.trans hs) (hq.active_eq ▸ ha) (hq.length_crew_eq.trans hc)
      exact .inr hfills

/-- Workers are made only when the scaler waits for nobody any more. -/
theorem ScalerDeed.restocks (hs : ScalerDeed env now p o) :
    o.pool.crew.length = p.crew.length ∨ Restocks env now p o.pool := by
  cases hs with
  | turns => exact .inl rfl
  | rises hp he =>
      obtain ⟨u, rfl, -⟩ := endScaling_eq_some he
      exact .inl rfl
  | evaluates hp hr ha =>
      simp only [removeUnfit, List.partition_eq_filter_filter] at ha
      exact afterRemoval_restocks
        (q := { p with active := p.active.filter fun i => (p.crew[i]?).any env.isFit })
        (retireInTurn_chain rfl) rfl List.filter_sublist rfl ha
  | replaces hp hn ha =>
      exact afterRemoval_restocks (retireNext_chain hn) rfl (List.Sublist.refl _) rfl ha
  | shrinks hp hn hm =>
      obtain ⟨u, rfl, -⟩ := moveScaling_eq_some hm
      exact .inl (retireNext_chain hn).length_crew_eq
  | shrunk hp hn he =>
      obtain ⟨u, rfl, -⟩ := endScaling_eq_some he
      exact .inl (retireNext_chain hn).length_crew_eq

/-- Whom the scaler waits for counts among the members that the pool may have. -/
theorem ScalerDeed.line_le (hm : p.settings.minWorkers ≤ p.settings.maxWorkers)
    (hz : Sized p.settings.maxWorkers p)
    (hle : p.active.length + p.line.length ≤ p.settings.maxWorkers) (hs : ScalerDeed env now p o) :
    o.pool.active.length + o.pool.line.length ≤ p.settings.maxWorkers := by
  rcases hs.restocks with hcrew | hfills
  · have hstaff := (hs.turnover []).staff_le
    simp only [List.append_nil] at hstaff
    omega
  · generalize o.pool = r at hfills
    obtain ⟨hf, hset, hact, hcrew⟩ := hfills
    have hstaff := (fillUp_turnover [] hf).staff_le
    have hzq := hz.narrow hact hcrew
    rw [← hset] at hzq hm ⊢
    have hgrown := (fillUp_fills hzq.sorted hzq.known hf).1.grown_le hm hzq.length_le
    simp only [List.append_nil, List.length_nil] at hstaff
    omega

/-- While the pool does not run, the scaler leaves nobody without work. -/
theorem Scales.active_eq_nil (hs : Scales env now p o) (hmin : 0 < p.settings.minWorkers)
    (hp : p.phase ≠ .running) (ho : o.pool.active = []) : p.active = [] := by
  cases hs with
  | rests hp hq ha hc he => exact ha ▸ ho
  | waits hl ha hc hq he hn =>
      cases hl with
      | now hplace hr => exact absurd hr hp
      | before hplace => exact ha ▸ ho
  | goesOn hl ha hc hs he hn hf hr =>
      cases hl with
      | now hplace hr => exact absurd hr hp
      | before hplace => exact ha ▸ hf.active_eq_nil (hs ▸ hmin) ho

end Scaler

/-! ## The pool -/

theorem IsNew.leaving_eq (hp : p.IsNew) : p.leaving = [] := by
  obtain ⟨s, n, rejected, rfl⟩ := hp
  rfl

theorem IsNew.length_spawned (hp : p.IsNew) {n : Nat} {error : Option PoolError}
    (hs : spawnMany env now n { p.named with phase := .running } = (error, o)) :
    o.pool.crew.length ≤ n := by
  have hnone : ({ p.named with phase := .running } : Pool α).crew.length = 0 := by
    obtain ⟨s, k, rejected, rfl⟩ := hp
    rfl
  cases error with
  | none =>
      have hmade := (spawnMany_adds hs).length_crew
      omega
  | some error =>
      obtain ⟨k, made, name, hk, ha, -⟩ := spawnMany_short hs
      have hmade := ha.length_crew
      omega

theorem line_retireAll {c : CallId} {graceful : Bool} {afterStart : Option PoolError}
    (pending : List (MemberId × Instant)) (n : Nat) :
    (p.retireAll now c graceful afterStart pending n).pool.line = p.line := by
  have hswept : (p.sweep now pending n).2.pool.line = p.line := by rw [line, scaler_sweep, line]
  by_cases hl : pending.filter (p.waitsFor now) = []
  · rw [retireAll_of_nil hl]
    exact hswept
  · rw [retireAll_of_ne_nil hl]
    exact hswept

section Fits

variable {most : Nat}

theorem Fits.of_staff (h : q.active.length + q.leaving.length ≤ most) : Fits most q := by
  rw [leaving, List.length_append] at h
  exact ⟨by omega, fun _ => by omega⟩

/-- The active members stay, and so do those whom the scaler has in hand. -/
theorem Fits.kept (hf : Fits most p) (ht : Turnover now p p.leaving es q q.leaving)
    (ha : q.active = p.active) (hl : q.line = p.line) (hc : q.crew.length = p.crew.length) :
    Fits most q where
  line := by
    rw [ha, hl]
    exact hf.line
  departing hq := by
    have hstaff := ht.staff_le
    have hle := hf.departing (ha ▸ hq)
    simp only [leaving, List.length_append] at hstaff
    rw [ha] at hstaff
    omega

/-- All active members leave together. -/
theorem Fits.gathered (hf : Fits most p) (ht : Turnover now p p.leaving es q q.leaving)
    (hd : p.departing = []) (hc : q.crew.length = p.crew.length) : Fits most q := by
  refine .of_staff ?_
  have hstaff := ht.staff_le
  have hle := hf.line
  have hleaving : p.leaving = p.line := by rw [leaving, hd, List.append_nil]
  rw [hleaving] at hstaff
  omega

/-- The start makes no more than the fewest members. -/
theorem Fits.first (hp : p.IsNew) (ht : Turnover now p p.leaving es q q.leaving)
    (hc : q.crew.length ≤ most) : Fits most q := by
  refine .of_staff ?_
  have hstaff := ht.staff_le
  rw [hp.active_eq, hp.leaving_eq, List.length_nil, List.length_nil] at hstaff
  omega

end Fits

/-- Every action leaves enough of the members that the pool may have. -/
theorem Deed.fits (hmin : 0 < p.settings.minWorkers)
    (hm : p.settings.minWorkers ≤ p.settings.maxWorkers) (hd : Docket h p) (he : Ends p)
    (hl : Led p) (hz : Sized p.settings.maxWorkers p) (hf : Fits p.settings.maxWorkers p)
    (ht : Turnover now p p.leaving o.events o.pool o.pool.leaving) (hs : Deed env now p a o) :
    Fits p.settings.maxWorkers o.pool := by
  cases hs with
  | spurned | queued | follows | restarted => exact hf.kept ht rfl rfl rfl
  | accepted ho | returned ho => cases ho <;> exact hf.kept ht rfl rfl rfl
  | followed hr => cases hr <;> exact hf.kept ht rfl rfl rfl
  | abandoned hp =>
      refine .first (he.created hp) ht ?_
      obtain ⟨s, n, rejected, rfl⟩ := he.created hp
      exact Nat.zero_le _
  | flushed => exact hf.kept ht rfl rfl (List.length_map _)
  | member => exact hf.kept ht rfl rfl (List.length_modify _ _ _)
  | opens ho hw =>
      have hline := ho.line_eq
      cases ho with
      | asked hp => exact hf.kept ht rfl hline rfl
      | failed hp hspawn =>
          have hspawned := (he.created hp).length_spawned hspawn
          exact .first (he.created hp) ht (Nat.le_trans hspawned hm)
  | rushes ho hw =>
      cases ho with
      | asked hp =>
          exact hf.gathered ht (hl.departing_eq_nil (by simp [hp])) length_crew_retireCrew
      | failed hp hspawn =>
          have hspawned := (he.created hp).length_spawned hspawn
          refine .first (he.created hp) ht (Nat.le_trans ?_ (Nat.le_trans hspawned hm))
          exact Nat.le_of_eq length_crew_retireCrew
  | gathers hc hw =>
      exact hf.gathered ht (List.perm_nil.mp (hl.departing_perm hd hc rfl)) length_crew_retireCrew
  | sweeps hc =>
      exact hf.kept ht (active_retireAll _ _) (line_retireAll _ _) (length_crew_retireAll _ _)
  | started hp hspawn hw | stuck hp hspawn hw =>
      have hspawned := (he.created hp).length_spawned hspawn
      exact .first (he.created hp) ht (Nat.le_trans hspawned hm)
  | scaler hscaler =>
      have hdeed := scalerStep_deed hscaler
      have hline := hdeed.line_le hm hz hf.line
      have hdeparting : o.pool.departing = p.departing := by
        rw [departing, (scalerStep_chain hscaler).calls_eq.1, departing]
      refine ⟨hline, fun hnone => ?_⟩
      rw [hdeparting]
      by_cases hrun : p.phase = .draining
      · have hscales := hdeed.scales hz.sorted hz.known
        have hempty := hscales.active_eq_nil hmin (by simp [hrun]) hnone
        -- Whoever joins stays, so nobody has joined.
        have hcrew : o.pool.crew.length ≤ p.crew.length := by
          refine Nat.le_of_not_lt fun hlt => ?_
          have hjoined := hscales.fresh_active (Nat.le_refl _) hlt
          rw [hnone] at hjoined
          cases hjoined
        have hstaff := (hdeed.turnover []).staff_le
        have hle := hf.departing hempty
        simp only [List.append_nil] at hstaff
        rw [hempty, List.length_nil] at hstaff
        omega
      · rw [hl.departing_eq_nil hrun, List.length_nil]
        omega

theorem Run.fits (hmin : 0 < s.minWorkers) (hm : s.minWorkers ≤ s.maxWorkers)
    (run : Run R t₀ (ofSettings s) h t p) : Fits s.maxWorkers p := by
  induction run with
  | here => exact .of_staff (Nat.zero_le _)
  | pass _ _ ih => exact ih
  | act run _ hs ih =>
      have hsettings := run.settings_eq
      have hsized := run.sized hm
      have hdeed := (step_deed hs).fits (hsettings ▸ hmin) (hsettings ▸ hm) run.docket run.ends
        run.led (hsettings ▸ hsized) (hsettings ▸ ih) (run.turnover hs)
      rwa [hsettings] at hdeed

/-! ## Handlers -/

theorem length_held_le (w : Poller α) : w.held.length ≤ 1 := by
  rw [Poller.held]
  unfold Place.held
  split <;> simp

/-- Every item in hand is in the hands of one member, dismissed or not. -/
theorem length_inHand_le (p : Pool α) : p.inHand.length ≤ p.present.length + p.overdue.length := by
  rw [inHand, present, overdue]
  induction p.crew with
  | nil => exact Nat.le_refl _
  | cons m crew ih =>
      have hone := length_held_le m.poller
      rw [List.flatMap_cons, List.length_append, List.filter_cons, List.filter_cons]
      cases hd : m.dismissed with
      | none =>
          simp only [Option.isNone_none, Option.isSome_none, Bool.false_and, if_true,
            Bool.false_eq_true, if_false, List.length_cons]
          omega
      | some d =>
          cases hheld : m.poller.held with
          | nil => simpa using ih
          | cons x rest =>
              rw [hheld] at hone
              simp only [Option.isNone_some, Option.isSome_some, Bool.true_and, List.isEmpty_cons,
                Bool.not_false, if_true, Bool.false_eq_true, if_false, List.length_cons] at hone ⊢
              omega

/-- Whoever has been dismissed has stopped, or has had the time to since a moment at which nobody
waited for it. -/
theorem Run.given_time (earlier : Run R t₀ (ofSettings s) h u q) (later : Run R u q k t p)
    (hgone : p.dismissedAt i ≠ none) (hthere : q.dismissedAt i = none) (hi : ¬q.IsAwaited i) :
    p.IsStopped i ∨ u + s.shutdownTimeout ≤ t := by
  induction later with
  | here => exact absurd hthere hgone
  | @act _ t p env a o later _ hs ih =>
      have run := earlier.trans later
      by_cases hbefore : p.dismissedAt i = none
      · exact (earlier.reason later hs hgone hbefore).2.imp_right fun htime => htime hi
      · exact (ih hbefore).imp_left (·.stays (run.turnover hs).stays)
  | pass _ hle ih => exact (ih hgone).imp_right (Nat.le_trans · hle)

/-- There are never more members that have not been dismissed than the pool may have, so there
are never more handlers than that, but for those of members that were dismissed because they did
not stop in the time that they had. -/
theorem Run.concurrency (made : make s = .ok p₀) (earlier : Run R t₀ p₀ h u q)
    (later : Run R u q k t p) (hone : p.active = [] ∨ p.departing = []) :
    p.present.length ≤ s.maxWorkers ∧ p.inHand.length ≤ s.maxWorkers + p.overdue.length ∧
      ∀ i m, p.crew[i]? = some m → m ∈ p.overdue → m.poller.worker.stop = true ∧
        (q.dismissedAt i = none → ¬q.IsAwaited i → u + s.shutdownTimeout ≤ t) := by
  have hm := min_le_max_of_make made
  obtain ⟨rfl, hmin⟩ := make_eq_ok made
  have run := earlier.trans later
  have hfits := run.fits hmin hm
  have hpresent : p.present.length ≤ s.maxWorkers := by
    rw [run.roster.length_present, leaving, List.length_append]
    cases hone with
    | inl hactive =>
        have hle := hfits.departing hactive
        rw [hactive, List.length_nil]
        omega
    | inr hdeparting =>
        have hle := hfits.line
        rw [hdeparting, List.length_nil]
        omega
  refine ⟨hpresent, ?_, fun i m hm hover => ?_⟩
  · have hhands := p.length_inHand_le
    omega
  · obtain ⟨-, hover⟩ := List.mem_filter.mp hover
    rw [Bool.and_eq_true, Option.isSome_iff_ne_none, Bool.not_eq_true',
      List.isEmpty_eq_false_iff] at hover
    obtain ⟨hgone, hbusy⟩ := hover
    refine ⟨run.standing.told hm (.inr hgone), fun hthere hi => ?_⟩
    rw [← Pool.dismissedAt_eq hm] at hgone
    refine (earlier.given_time later hgone hthere hi).resolve_left ?_
    rintro ⟨m', hm', hstopped⟩
    rw [hm] at hm'
    cases hm'
    exact hbusy (Poller.held_of_stopped (run.sound m (List.mem_of_getElem? hm)) hstopped)

/-- A member is rejected while it handles an item, and its successor takes another. -/
def relief : List (Instant × Action Nat) :=
  [(0, .start), (0, .offer 1 0), (0, .offer 2 0), (0, .member 0 (.turn 0)), (0, .scaler .turn),
    (ofMillis 10, .scaler .evaluate), (ofMillis 30, .scaler .retired),
    (ofMillis 30, .member 1 (.turn 0))]

/-- The rejected member has had 20 milliseconds, and only then there are two items in hand. -/
theorem concurrency_of_relief : ∃ (h k : History Nat) (q p : Pool Nat),
    make hasty = .ok (ofSettings hasty : Pool Nat) ∧
      Run .any 0 (ofSettings hasty) h (ofMillis 10) q ∧
      Run .any (ofMillis 10) q k (ofMillis 30) p ∧ (p.active = [] ∨ p.departing = []) ∧
      p.present.length ≤ 1 ∧ p.inHand.length ≤ 1 + p.overdue.length ∧ p.overdue.length = 1 := by
  have hplay : ((ofSettings hasty).play distrustful 0 (relief.take 5)).bind (fun v =>
      (v.2.2.play distrustful (ofMillis 10) (relief.drop 5)).map fun w =>
        (v.2.1, w.2.1, w.2.2.departing.length, w.2.2.overdue.length)) =
      some (0, ofMillis 30, 0, 1) := by
    rfl
  obtain ⟨⟨h, u, q⟩, hfirst, hplay⟩ := Option.bind_eq_some_iff.mp hplay
  obtain ⟨⟨k, t, p⟩, hnext, he⟩ := Option.map_eq_some_iff.mp hplay
  simp only [Prod.mk.injEq] at he
  obtain ⟨rfl, rfl, hdeparting, hoverdue⟩ := he
  have hmade : make hasty = .ok (ofSettings hasty : Pool Nat) := by rfl
  have earlier : Run .any 0 _ h 0 q :=
    Run.play (fun _ _ _ => trivial) hfirst
  have later : Run .any (ofMillis 10) _ k (ofMillis 30) p :=
    Run.play (fun _ _ _ => trivial) hnext
  have earlier : Run .any 0 _ h (ofMillis 10) q := earlier.pass (Nat.zero_le _)
  have hone : p.active = [] ∨ p.departing = [] := .inr (List.length_eq_zero_iff.mp hdeparting)
  have hbound := Run.concurrency hmade earlier later hone
  exact ⟨h, k, q, p, hmade, earlier, later, hone, hbound.1, hbound.2.1, hoverdue⟩

/-- A pool that may have one member can have two handlers at work. -/
theorem overdue_of_relief : ∃ (h : History Nat) (t : Instant) (p : Pool Nat),
    make hasty = .ok (ofSettings hasty : Pool Nat) ∧ Run .any 0 (ofSettings hasty) h t p ∧
      p.phase = .running ∧ hasty.maxWorkers = 1 ∧ p.inHand = [1, 2] := by
  have hplay : ((ofSettings hasty).play distrustful 0 relief).map
      (fun w => (w.2.2.phase, w.2.2.inHand)) = some (.running, [1, 2]) := by
    rfl
  obtain ⟨h, t, p, hp, he⟩ := play_of_map hplay
  simp only [Prod.mk.injEq] at he
  have hmade : make hasty = .ok (ofSettings hasty : Pool Nat) := by rfl
  have hrun : Run .any 0 _ h t p := Run.play (fun _ _ _ => trivial) hp
  exact ⟨h, t, p, hmade, hrun, he.1, rfl, he.2⟩

end Pool

end Backpressure
