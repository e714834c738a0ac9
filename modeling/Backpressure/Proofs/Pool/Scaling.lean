import Backpressure.Proofs.Pool.Order

/-!
# What the scaler does to the active members

An evaluation goes through three stages, and may end at each of them.

* *Looking*: those whom the factory rejects leave, and are let go of one after the other.
* *Filling up*: workers are made until there are the fewest that the pool may have.  If the
  factory refuses one, those made before stay, and the evaluation ends.
* *Asking the policy*: workers are made, up to the most that the pool may have, or the
  youngest leave, down to the fewest.

Only looking can take long.  So `Scales`, which says what one action of the scaler comes to,
has one case for an action after which somebody rejected is still waited for, and one for
what happens when nobody is.
-/

namespace Backpressure.Pool

variable {α : Type}

/-- Whether the factory finds a member fit to stay. -/
def fits (env : Surroundings α) (p : Pool α) (i : MemberId) : Bool := (p.crew[i]?).any env.isFit

/-! ## The stages -/

/-- Some workers were made, and joined one after the other. -/
structure Adds (k : Nat) (p : Pool α) (es : List (PoolEvent α)) (q : Pool α) : Prop where
  active : q.active = p.active ++ List.range' p.crew.length k
  crew : ∃ new, new.length = k ∧ (∀ m ∈ new, m.poller = .fresh p.settings.poller) ∧
    q.crew = p.crew ++ new
  created : ∃ names : List String, names.length = k ∧ es = names.map .created

/-- An attempt to make some workers. -/
inductive Hires (n : Nat) (p : Pool α) :
    Option PoolError → List (PoolEvent α) → Pool α → Prop where
  /-- All were made. -/
  | all {es : List (PoolEvent α)} {q : Pool α} (ha : Adds n p es q) : Hires n p none es q
  /-- The factory refused one, and those made before it stay. -/
  | some {k : Nat} {es : List (PoolEvent α)} {q : Pool α} (error : PoolError) (name : String)
      (hk : k < n) (ha : Adds k p es q) : Hires n p (.some error) (es ++ [.refused name]) q

/-- Some members were taken out because there were too many. -/
structure Shrunk (n : Nat) (p : Pool α) (gone : List MemberId) (q : Pool α) : Prop where
  active : p.active = q.active ++ gone
  number : gone.length = min n (p.active.length - p.settings.minWorkers)
  youngest : ∀ i ∈ q.active, ∀ j ∈ gone, i < j
  least : min p.active.length p.settings.minWorkers ≤ q.active.length
  crew : q.crew.length = p.crew.length

/-- The policy is asked. -/
inductive Follows (env : Surroundings α) (now : Instant) (p : Pool α) :
    List (PoolEvent α) → Pool α → Prop where
  /-- The number of members stays. -/
  | held {q : Pool α} (hd : env.decide (p.observe now) = .hold) (ha : q.active = p.active)
      (hc : q.crew.length = p.crew.length) : Follows env now p [.observed (p.observe now)] q
  /-- The pool grows as far as it may. -/
  | grown {n : Nat} {es : List (PoolEvent α)} {q : Pool α}
      (hd : env.decide (p.observe now) = .grow n)
      (ha : Adds (min n (p.settings.maxWorkers - p.active.length)) p es q) :
      Follows env now p (.observed (p.observe now) :: es) q
  /-- The factory refuses a worker. -/
  | stinted {n k : Nat} {es : List (PoolEvent α)} {q : Pool α} {name : String}
      (hd : env.decide (p.observe now) = .grow n)
      (hk : k < min n (p.settings.maxWorkers - p.active.length)) (ha : Adds k p es q) :
      Follows env now p (.observed (p.observe now) :: (es ++ [.refused name])) q
  /-- The pool shrinks as far as it may. -/
  | shrunk {n : Nat} {gone : List MemberId} {es : List (PoolEvent α)} {q : Pool α}
      (hd : env.decide (p.observe now) = .shrink n) (hs : Shrunk n p gone q)
      (he : ∀ e ∈ es, ∃ name, e = .destroyed name) :
      Follows env now p (.observed (p.observe now) :: es) q

/-- The pool is filled up. -/
inductive Fills (env : Surroundings α) (now : Instant) (p : Pool α) :
    List (PoolEvent α) → Pool α → Prop where
  /-- The factory refuses a worker. -/
  | short {k : Nat} {es : List (PoolEvent α)} {q : Pool α} {name : String}
      (hk : k < p.settings.minWorkers - p.active.length) (ha : Adds k p es q) :
      Fills env now p (es ++ [.refused name]) q
  /-- Nobody is missing any more, and the policy is asked. -/
  | full {es fs : List (PoolEvent α)} {q r : Pool α}
      (ha : Adds (p.settings.minWorkers - p.active.length) p es q)
      (hl : p.settings.minWorkers ≤ q.active.length) (hs : q.settings = p.settings)
      (hf : Follows env now q fs r) :
      Fills env now p (es ++ fs) r

/-- The members are looked at, or were before: those that stay and those that are let go of. -/
inductive Looks (env : Surroundings α) (p : Pool α) : List MemberId → List MemberId → Prop where
  /-- They are looked at now. -/
  | now {ends : Instant} (hp : p.scaler.place = .inside (.sleeping ends))
      (hr : p.phase = .running) :
      Looks env p (p.active.filter (p.fits env)) (p.active.filter fun i => !p.fits env i)
  /-- They were looked at before. -/
  | before {r : Retirement} (hp : p.scaler.place = .inside (.replacing r)) :
      Looks env p p.active r.members

/-- The scaler is not replacing anybody. -/
def Settled (p : Pool α) : Prop := ∀ r, p.scaler.place ≠ .inside (.replacing r)

/-- What one action of the scaler comes to. -/
inductive Scales (env : Surroundings α) (now : Instant) (p : Pool α) : PoolOutcome α → Prop where
  /-- The active members stay, and perhaps some who left before are let go of. -/
  | rests {o : PoolOutcome α} (hp : p.Settled) (hq : o.pool.Settled)
      (ha : o.pool.active = p.active) (hc : o.pool.crew.length = p.crew.length)
      (he : ∀ e ∈ o.events, ∃ name, e = .destroyed name) : Scales env now p o
  /-- Somebody rejected is waited for. -/
  | waits {stay leave : List MemberId} {r : Retirement} {o : PoolOutcome α}
      (hl : Looks env p stay leave) (ha : o.pool.active = stay)
      (hc : o.pool.crew.length = p.crew.length)
      (hq : o.pool.scaler.place = .inside (.replacing r))
      (he : ∀ e ∈ o.events, ∃ name, e = .destroyed name)
      (hn : o.events.length + r.members.length = leave.length) : Scales env now p o
  /-- Nobody rejected is waited for any more, and the pool is filled up. -/
  | goesOn {stay leave : List MemberId} {es fs : List (PoolEvent α)} {q r : Pool α}
      (hl : Looks env p stay leave) (ha : q.active = stay) (hc : q.crew.length = p.crew.length)
      (hs : q.settings = p.settings) (he : ∀ e ∈ es, ∃ name, e = .destroyed name)
      (hn : es.length = leave.length) (hf : Fills env now q fs r) (hr : r.Settled) :
      Scales env now p { events := es ++ fs, pool := r }

variable {env : Surroundings α} {now : Instant} {p q : Pool α} {o : PoolOutcome α}
  {es fs : List (PoolEvent α)} {n k : Nat}

/-! ## Making workers -/

theorem Adds.none : Adds 0 p [] p where
  active := by simp
  crew := ⟨[], rfl, by simp, by simp⟩
  created := ⟨[], rfl, rfl⟩

theorem Adds.cons {name : String} {t : Instant} (ha : Adds k (p.hired name t) es q) :
    Adds (k + 1) p (.created name :: es) q := by
  obtain ⟨new, hlength, hfresh, hcrew⟩ := ha.crew
  obtain ⟨names, hnames, rfl⟩ := ha.created
  let first : Member α := { name, poller := .fresh p.settings.poller, joined := t }
  refine ⟨?_, ⟨first :: new, ?_, ?_, ?_⟩, ⟨name :: names, ?_, rfl⟩⟩
  · rw [ha.active, List.range'_succ]
    simp [hired]
  · rw [List.length_cons, hlength]
  · intro m hm
    rcases List.mem_cons.mp hm with rfl | hm
    · rfl
    · exact hfresh m hm
  · rw [hcrew]
    exact List.append_cons p.crew first new ▸ rfl
  · rw [List.length_cons, hnames]

/-- Each new member is active. -/
theorem Adds.length_active (ha : Adds k p es q) : q.active.length = p.active.length + k := by
  rw [ha.active, List.length_append, List.length_range']

/-- Each new member joins the crew for good. -/
theorem Adds.length_crew (ha : Adds k p es q) : q.crew.length = p.crew.length + k := by
  obtain ⟨new, hlength, -, hcrew⟩ := ha.crew
  rw [hcrew, List.length_append, hlength]

theorem Hires.cons {name : String} {t : Instant} {error : Option PoolError}
    (hh : Hires n (p.hired name t) error es q) : Hires (n + 1) p error (.created name :: es) q := by
  cases hh with
  | all ha => exact .all ha.cons
  | some error name hk ha =>
      have hmore := Hires.some error name (Nat.succ_lt_succ hk) ha.cons
      exact hmore

/-- Members are made one after the other, up to the first that is refused. -/
theorem spawnMany_hires (env : Surroundings α) (now : Instant) (n : Nat) (p : Pool α) :
    Hires n p (p.spawnMany env now n).1 (p.spawnMany env now n).2.events
      (p.spawnMany env now n).2.pool := by
  induction n generalizing p with
  | zero => exact .all .none
  | succ n ih =>
      simp only [spawnMany]
      split
      · next error o hs =>
          simp only [spawn] at hs
          split at hs <;> cases hs
          show Hires (n + 1) p _ ([] ++ [_]) _
          exact .some _ _ (Nat.succ_pos n) ⟨by simp, ⟨[], rfl, by simp, by simp⟩, ⟨[], rfl, rfl⟩⟩
      · next o hs =>
          obtain ⟨name, rfl⟩ := spawn_eq_none hs
          exact (ih (p.hired name now)).cons

theorem spawnMany_adds (h : p.spawnMany env now n = (none, o)) : Adds n p o.events o.pool := by
  have hh := spawnMany_hires env now n p
  rw [h] at hh
  cases hh with
  | all ha => exact ha

/-- A refusal ends the making of members, and those made before stay. -/
theorem spawnMany_short {error : PoolError} (h : p.spawnMany env now n = (some error, o)) :
    ∃ k es name, k < n ∧ Adds k p es o.pool ∧ o.events = es ++ [.refused name] := by
  have hh := spawnMany_hires env now n p
  rw [h] at hh
  obtain ⟨events, pool⟩ := o
  cases hh with
  | some _ name hk ha => exact ⟨_, _, name, hk, ha, rfl⟩

/-! ## Letting go -/

/-- Everybody who is retired is let go of now, or is waited for. -/
theorem retireInTurn_count {l : List MemberId} {r : Option Retirement}
    (h : p.retireInTurn now l = (r, o)) :
    o.events.length + r.elim 0 (·.members.length) = l.length := by
  induction l generalizing p r o with
  | nil =>
      cases h
      rfl
  | cons i l ih =>
      simp only [retireInTurn] at h
      split at h
      · cases h
        simp [Retirement.members]
      · cases h
        have hrest := ih (p := ((p.requestStop i).dismiss now i).pool) rfl
        simp only [PoolOutcome.after, dismiss, List.length_append, List.length_cons,
          List.length_nil] at hrest ⊢
        omega

/-- Of those to retire each is let go of or still in hand. -/
theorem retireNext_count {r : Retirement} {next : Option Retirement}
    (h : p.retireNext now r = some (next, o)) :
    o.events.length + next.elim 0 (·.members.length) = r.members.length := by
  obtain ⟨-, -, he⟩ := Option.map_eq_some_iff.mp h
  cases he
  have hturn : (p.dismiss now r.member).pool.retireInTurn now r.rest = (_, _) := rfl
  have hrest := retireInTurn_count hturn
  simp only [PoolOutcome.after, dismiss, List.length_append, List.length_cons, List.length_nil,
    Retirement.members] at hrest ⊢
  omega

theorem Chain.settings_eq (h : Chain Parting p es q) : q.settings = p.settings := by
  rw [h.eq_crew]

/-- The rest of an evaluation, with another scaler. -/
theorem Follows.scaler {w : Worker ScalerPoint Unit} (hf : Follows env now p es q) :
    Follows env now p es { q with scaler := w } := by
  cases hf with
  | held hd ha hc => exact .held hd ha hc
  | grown hd ha => exact .grown hd ⟨ha.active, ha.crew, ha.created⟩
  | stinted hd hk ha => exact .stinted hd hk ⟨ha.active, ha.crew, ha.created⟩
  | shrunk hd hs he =>
      exact .shrunk hd ⟨hs.active, hs.number, hs.youngest, hs.least, hs.crew⟩ he

/-! ## One action -/

/-- Shrinking takes the youngest, and never more than the pool can spare. -/
theorem shrink_shrunk {r : Option Retirement} (hsorted : p.active.Pairwise (· < ·))
    (h : p.shrink now n = (r, o)) :
    (∃ gone, Shrunk n p gone o.pool) ∧ ∀ e ∈ o.events, ∃ name, e = .destroyed name := by
  simp only [shrink] at h
  generalize hkeep : max (p.active.length - n) p.settings.minWorkers = keep at h
  have htold := foldl_requestStop_chain (p := { p with active := p.active.take keep })
    (p.active.drop keep)
  have hgone := retireInTurn_chain h
  have hactive : o.pool.active = p.active.take keep := hgone.active_eq.trans htold.active_eq
  have hcrew : o.pool.crew.length = p.crew.length :=
    hgone.length_crew_eq.trans htold.length_crew_eq
  have hsplit := List.take_append_drop keep p.active
  refine ⟨⟨p.active.drop keep, ?_, ?_, ?_, ?_, hcrew⟩, fun e he => hgone.destroyed he⟩
  · rw [hactive, hsplit]
  · rw [List.length_drop]
    omega
  · rw [hactive]
    rw [← hsplit] at hsorted
    exact (List.pairwise_append.mp hsorted).2.2
  · rw [hactive, List.length_take]
    omega

theorem Follows.ends {how : IterationEnd} {o' : PoolOutcome α}
    (hf : Follows env now p o.events o.pool) (h : endScaling o how = some o') :
    Follows env now p o'.events o'.pool ∧ o'.pool.Settled := by
  obtain ⟨w, rfl, hw⟩ := endScaling_eq_some h
  exact ⟨hf.scaler, fun r => hw _⟩

/-- What the policy decides is followed at once, within the bounds. -/
theorem followPolicy_follows (hsorted : p.active.Pairwise (· < ·))
    (h : p.followPolicy env now = some o) :
    Follows env now p o.events o.pool ∧ o.pool.Settled := by
  simp only [followPolicy] at h
  split at h
  · next hd =>
      refine Follows.ends (o := { events := _, pool := p }) ?_ h
      exact .held hd rfl rfl
  · next n hd =>
      split at h
      · next grown hg =>
          refine Follows.ends ?_ h
          exact .grown hd (spawnMany_adds hg)
      · next error grown hg =>
          obtain ⟨k, made, name, hk, ha, hmade⟩ := spawnMany_short hg
          refine Follows.ends ?_ h
          rw [PoolOutcome.after, hmade]
          exact .stinted hd hk ha
  · next n hd =>
      split at h
      · next hs =>
          obtain ⟨⟨gone, hshrunk⟩, he⟩ := shrink_shrunk hsorted hs
          refine Follows.ends ?_ h
          exact .shrunk hd hshrunk he
      · next r hs =>
          -- The members are told, and the first of them is waited for.
          obtain ⟨w, rfl, hw⟩ := moveScaling_eq_some h
          obtain ⟨⟨gone, hshrunk⟩, he⟩ := shrink_shrunk hsorted hs
          exact ⟨(Follows.shrunk hd hshrunk he).scaler, fun r => by simp [hw]⟩

/-- Whoever joins is younger than those who were there. -/
theorem Adds.sorted (ha : Adds k p es q) (hsorted : p.active.Pairwise (· < ·))
    (hknown : ∀ i ∈ p.active, i < p.crew.length) : q.active.Pairwise (· < ·) := by
  rw [ha.active, List.pairwise_append]
  refine ⟨hsorted, List.pairwise_lt_range', fun i hi j hj => ?_⟩
  exact Nat.lt_of_lt_of_le (hknown i hi) (List.mem_range'_1.mp hj).1

/-- Missing members are made up for, and only then the policy is asked. -/
theorem fillUp_fills (hsorted : p.active.Pairwise (· < ·))
    (hknown : ∀ i ∈ p.active, i < p.crew.length) (h : p.fillUp env now = some o) :
    Fills env now p o.events o.pool ∧ o.pool.Settled := by
  simp only [fillUp] at h
  split at h
  · next error o₁ hs =>
      obtain ⟨w, rfl, hw⟩ := endScaling_eq_some h
      obtain ⟨k, made, name, hk, ha, hmade⟩ := spawnMany_short hs
      rw [hmade]
      exact ⟨.short hk ⟨ha.active, ha.crew, ha.created⟩, fun r => hw _⟩
  · next o₁ hs =>
      obtain ⟨o₂, hf, rfl⟩ := Option.map_eq_some_iff.mp h
      have ha := spawnMany_adds hs
      have hsettings := congrArg Pool.settings (spawnMany_chain hs).eq_staff
      have hleast : p.settings.minWorkers ≤ o₁.pool.active.length := by
        rw [ha.length_active]
        omega
      obtain ⟨hfollows, hsettled⟩ := followPolicy_follows (ha.sorted hsorted hknown) hf
      exact ⟨.full ha hleast hsettings hfollows, hsettled⟩

theorem afterRemoval_scales {stay leave : List MemberId} {next : Option Retirement}
    {o' : PoolOutcome α} (hsorted : p.active.Pairwise (· < ·))
    (hknown : ∀ i ∈ p.active, i < p.crew.length) (hl : Looks env p stay leave)
    (hsub : stay.Sublist p.active) (ha : o.pool.active = stay)
    (hc : o.pool.crew.length = p.crew.length) (hs : o.pool.settings = p.settings)
    (he : ∀ e ∈ o.events, ∃ name, e = .destroyed name)
    (hn : o.events.length + next.elim 0 (·.members.length) = leave.length)
    (h : afterRemoval env now (next, o) = some o') : Scales env now p o' := by
  cases next with
  | some r =>
      obtain ⟨w, rfl, hw⟩ := moveScaling_eq_some h
      exact .waits hl ha hc hw he hn
  | none =>
      obtain ⟨o₁, hf, rfl⟩ := Option.map_eq_some_iff.mp h
      have hsorted' : o.pool.active.Pairwise (· < ·) := ha ▸ hsorted.sublist hsub
      have hknown' : ∀ i ∈ o.pool.active, i < o.pool.crew.length := fun i hi =>
        hc ▸ hknown i (hsub.subset (ha ▸ hi))
      obtain ⟨hfills, hsettled⟩ := fillUp_fills hsorted' hknown' hf
      exact .goesOn hl ha hc hs he hn hfills hsettled

/-- Whatever the scaler does comes to one of these. -/
theorem ScalerDeed.scales (hsorted : p.active.Pairwise (· < ·))
    (hknown : ∀ i ∈ p.active, i < p.crew.length) (h : ScalerDeed env now p o) :
    Scales env now p o := by
  cases h with
  | turns hp hw =>
      refine .rests (fun r => hp _) (fun r hplace => ?_) rfl rfl (by intro e he; cases he)
      obtain ⟨ends, he⟩ := hw _ hplace
      cases he
  | rises hp he =>
      obtain ⟨w, rfl, hw⟩ := endScaling_eq_some he
      refine .rests (fun r => by simp [hp]) (fun r => hw _) rfl rfl (by intro e he; cases he)
  | evaluates hp hr ha =>
      have hremoved : p.removeUnfit env now =
          { p with active := p.active.filter (p.fits env) }.retireInTurn now
            (p.active.filter fun i => !p.fits env i) := by
        rw [removeUnfit, List.partition_eq_filter_filter]
        rfl
      generalize hq : p.removeUnfit env now = left at ha
      obtain ⟨next, o₁⟩ := left
      rw [hremoved] at hq
      have hchain := retireInTurn_chain hq
      exact afterRemoval_scales hsorted hknown (.now hp hr) List.filter_sublist
        hchain.active_eq hchain.length_crew_eq hchain.settings_eq
        (fun e he => hchain.destroyed he) (retireInTurn_count hq) ha
  | replaces hp hn ha =>
      have hchain := retireNext_chain hn
      exact afterRemoval_scales hsorted hknown (.before hp) (List.Sublist.refl _)
        hchain.active_eq hchain.length_crew_eq hchain.settings_eq
        (fun e he => hchain.destroyed he) (retireNext_count hn) ha
  | shrinks hp hn hm =>
      have hchain := retireNext_chain hn
      obtain ⟨w, rfl, hw⟩ := moveScaling_eq_some hm
      exact .rests (fun r => by simp [hp]) (fun r => by simp [hw]) hchain.active_eq
        hchain.length_crew_eq fun e he => hchain.destroyed he
  | shrunk hp hn he =>
      have hchain := retireNext_chain hn
      obtain ⟨w, rfl, hw⟩ := endScaling_eq_some he
      exact .rests (fun r => by simp [hp]) (fun r => hw _) hchain.active_eq
        hchain.length_crew_eq fun e he => hchain.destroyed he

end Backpressure.Pool
