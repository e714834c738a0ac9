import Backpressure.Proofs.Rate.Sleepers

/-!
# What a token bucket promises

Every permit that is granted has a slot, the moment at which it has flowed in.  Slots lie at
least one token apart, whoever asks and however long the calls would wait, and no slot lies
further back than a second before its permit was asked for.  That is all the burst there is.

A permit is delivered when it has been asked for and its slot is there.  So what is delivered
in a stretch of time has its slots in this stretch and the second before it, which is how the
number of deliveries is bounded (`Schedule.count_le`).

Calls that sleep are the ones whose slots lie ahead.  Their deliveries are the slots.
-/

namespace Backpressure.Rate

/-- Moments that lie apart are not many between two moments. -/
theorem length_mul_le_of_apart {xs : List ℚ} {gap lo hi : ℚ}
    (hapart : xs.Pairwise fun x y => x + gap ≤ y) (hlo : ∀ x ∈ xs, lo + gap ≤ x)
    (hhi : ∀ x ∈ xs, x ≤ hi) (hle : lo ≤ hi) : xs.length * gap ≤ hi - lo := by
  induction xs generalizing lo with
  | nil => simpa using hle
  | cons x xs ih =>
      obtain ⟨hx, hxs⟩ := List.pairwise_cons.mp hapart
      have hfirst := hlo x List.mem_cons_self
      have hrest : xs.length * gap ≤ hi - x :=
        ih hxs hx (fun y hy => hhi y (List.mem_cons_of_mem x hy)) (hhi x List.mem_cons_self)
      rw [List.length_cons, Nat.cast_add_one, add_one_mul]
      linarith

namespace Requests

variable {rate : ℕ} {start t : ℚ≥0} {r r' : Requests ℚ ℚ≥0} {a : Action ℚ≥0}
  {o : RequestsOutcome ℚ ℚ≥0} {h : List Act} {call : CallId} {m : Act}

/-! ## The slots -/

/-- A permit that was granted: when it was asked for, and when it has flowed in. -/
structure Grant where
  asked : ℚ≥0
  slot : ℚ

/-- The moment at which a permit is delivered. -/
def Grant.due (g : Grant) : ℚ := max g.asked g.slot

/-- The moments of the deliveries. -/
def moments (ds : List (CallId × ℚ≥0)) : List ℚ := ds.map fun d => d.2

/-- The permits that were granted in a run, with what is known of their slots. -/
structure Schedule (rate : ℕ) (gs : List Grant) (h : List Act) (r : Requests ℚ ℚ≥0) : Prop where
  apart : gs.Pairwise fun (g g' : Grant) => g.slot + 1 / rate ≤ g'.slot
  /-- The burst makes up for a second at most. -/
  early : ∀ g ∈ gs, (g.asked : ℚ) - 1 + 1 / rate ≤ g.slot
  spent : ∀ g ∈ gs, g.slot ≤ r.bucket.emptyAt
  owed : (gs.map Grant.due).Perm (moments (deliveries h) ++ moments (r.pending.map promise))

variable {gs : List Grant}

/-- An act that grants nothing. -/
theorem Schedule.keep (hs : Schedule rate gs h r)
    (howed : (moments (deliveries (h ++ [m])) ++ moments (r'.pending.map promise)).Perm
      (moments (deliveries h) ++ moments (r.pending.map promise)))
    (hempty : r.bucket.emptyAt ≤ r'.bucket.emptyAt) : Schedule rate gs (h ++ [m]) r' :=
  ⟨hs.apart, hs.early, fun g hg => (hs.spent g hg).trans hempty, hs.owed.trans howed.symm⟩

/-- An act that grants a permit, which is delivered at once or promised. -/
theorem Schedule.grant (hs : Schedule rate gs h r) (hrate : r.bucket.permitsPerSecond = rate)
    (howed : (moments (deliveries (h ++ [m])) ++ moments (r'.pending.map promise)).Perm
      (moments (deliveries h) ++ moments (r.pending.map promise) ++
        [Grant.due ⟨t, r.bucket.nextPermit t⟩]))
    (hempty : r'.bucket.emptyAt = r.bucket.nextPermit t) :
    Schedule rate (gs ++ [⟨t, r.bucket.nextPermit t⟩]) (h ++ [m]) r' := by
  have hgap := r.bucket.emptyAt_add_le t
  have hearly := r.bucket.sub_one_add_le t
  have hpos : (0 : ℚ) ≤ 1 / rate := by positivity
  rw [hrate] at hgap hearly
  refine ⟨?_, ?_, ?_, ?_⟩
  · rw [List.pairwise_append]
    refine ⟨hs.apart, List.pairwise_singleton _ _, fun g hg g' hg' => ?_⟩
    have hspent := hs.spent g hg
    rw [List.mem_singleton.mp hg']
    show g.slot + 1 / rate ≤ r.bucket.nextPermit t
    linarith
  · intro g hg
    rcases List.mem_append.mp hg with hg | hg
    · exact hs.early g hg
    · rw [List.mem_singleton.mp hg]
      exact hearly
  · intro g hg
    rw [hempty]
    rcases List.mem_append.mp hg with hg | hg
    · have hspent := hs.spent g hg
      linarith
    · exact (List.mem_singleton.mp hg ▸ le_refl _)
  · rw [List.map_append]
    exact (hs.owed.append_right _).trans howed.symm

theorem Schedule.deed (hrate : 0 < rate) (hs : Schedule rate gs h r) (hl : Lined rate h t r)
    (hb : Dated rate t r.bucket) (hd : Deed t r a o) :
    ∃ gs', Schedule rate gs' (h ++ [⟨t, a, r, o⟩]) o.requests := by
  have hpos : 0 < r.bucket.permitsPerSecond := hb.rate_eq ▸ hrate
  have htaken := TokenBucket.emptyAt_taken hpos hb.refilled
  have hrefill := TokenBucket.emptyAt_le_refill hpos hb.refilled
  cases hd with
  | taken ha hthere =>
      refine ⟨_, hs.grant hb.rate_eq ?_ htaken⟩
      rw [deliveries_concat, moments, List.map_append, Grant.due, max_eq_left hthere,
        List.append_assoc, List.append_assoc]
      exact List.perm_append_comm.append_left _
  | refused ha hlong =>
      refine ⟨gs, hs.keep ?_ hrefill⟩
      rw [deliveries_concat]
      exact List.Perm.of_eq (by simp [moments, Act.deliveries, PermitEvent.taken?])
  | promised ha ready hready hlate hwait =>
      refine ⟨_, hs.grant hb.rate_eq ?_ htaken⟩
      have hdue : Grant.due ⟨t, r.bucket.nextPermit t⟩ = ready := by
        rw [Grant.due, ← hready]
        exact max_eq_right (by exact_mod_cast hlate.le)
      rw [deliveries_concat, hdue]
      exact List.Perm.of_eq (by simp [moments, Act.deliveries, PermitEvent.taken?, promise])
  | woken call q hq hdue =>
      refine ⟨gs, hs.keep ?_ le_rfl⟩
      obtain ⟨rfl, rfl, hpend⟩ := hl.head hrate hq hdue
      have hmoments := congrArg (fun qs => moments (qs.map promise)) hpend
      rw [deliveries_concat, moments, List.map_append, List.append_assoc]
      exact List.Perm.of_eq (congrArg (moments (deliveries h) ++ ·) hmoments.symm)
  | looked =>
      refine ⟨gs, hs.keep ?_ hrefill⟩
      rw [deliveries_concat]
      exact List.Perm.of_eq (by simp [moments, Act.deliveries])

theorem Run.schedule (hrate : 0 < rate) (run : Run rate start h t r) :
    ∃ gs, Schedule rate gs h r := by
  induction run with
  | here => exact ⟨[], List.Pairwise.nil, by simp, by simp, List.Perm.nil⟩
  | act run hs ih =>
      obtain ⟨gs, hsched⟩ := ih
      have hb := run.dated hrate
      exact hsched.deed hrate (run.lined hrate) hb (step_deed_of_dated hrate hb hs)
  | pass run hle hpend ih => exact ih

/-- How many of some deliveries lie in a stretch of time that leaves out its first moment. -/
def count (ds : List (CallId × ℚ≥0)) (s u : ℚ≥0) : ℕ := ds.countP fun d => s < d.2 ∧ d.2 ≤ u

theorem Schedule.count_le (hrate : 1 ≤ rate) (hs : Schedule rate gs h r) {s u : ℚ≥0}
    (hle : s ≤ u) : (count (deliveries h) s u : ℚ) ≤ rate * (1 + (u - s)) := by
  have hone : (1 : ℚ) ≤ rate := by exact_mod_cast hrate
  have hsu : (s : ℚ) ≤ u := by exact_mod_cast hle
  have hgap : (1 : ℚ) / rate ≤ 1 := (div_le_one (by linarith)).mpr hone
  let within : ℚ → Bool := fun x => (s : ℚ) < x ∧ x ≤ u
  let slots := (gs.filter (within ∘ Grant.due)).map Grant.slot
  have hcount : count (deliveries h) s u ≤ slots.length :=
    calc count (deliveries h) s u
        = (moments (deliveries h)).countP within := by
          rw [moments, List.countP_map, count]
          refine List.countP_congr fun d _ => ?_
          simp [within]
      _ ≤ (moments (deliveries h) ++ moments (r.pending.map promise)).countP within := by
          rw [List.countP_append]
          exact Nat.le_add_right _ _
      _ = (gs.map Grant.due).countP within := (hs.owed.countP_eq within).symm
      _ = slots.length := by rw [List.countP_map, List.countP_eq_length_filter, List.length_map]
  have hslots : slots.length * ((1 : ℚ) / rate) ≤ u - (s - 1) := by
    refine length_mul_le_of_apart ?_ ?_ ?_ (by linarith)
    · exact List.pairwise_map.mpr (hs.apart.filter _)
    all_goals
      intro x hx
      obtain ⟨g, hg, rfl⟩ := List.mem_map.mp hx
      obtain ⟨hmem, hin⟩ := List.mem_filter.mp hg
      obtain ⟨hafter, hbefore⟩ : (s : ℚ) < g.due ∧ g.due ≤ u := by simpa [within] using hin
    · have hearly := hs.early g hmem
      rcases lt_max_iff.mp hafter with hasked | hslot
      · linarith
      · linarith
    · exact (le_max_right _ _).trans hbefore
  rw [mul_one_div, div_le_iff₀ (by linarith)] at hslots
  have hcast : (count (deliveries h) s u : ℚ) ≤ slots.length := by exact_mod_cast hcount
  linarith

/-! ## The promises -/

/-- A call that gets no permit ends when it is made, and leaves no trace in the bucket. -/
theorem Deed.refusal (hb : Dated rate t r.bucket) (hd : Deed t r a o)
    (hans : .answered call false ∈ o.events) :
    (call = r.nextCall ∧ ∃ wait, a.wait? = some wait) ∧ o.requests.pending = r.pending ∧
      ∀ u, t ≤ u → o.requests.bucket.refill .exact u = r.bucket.refill .exact u := by
  cases hd with
  | refused ha hlong =>
      refine ⟨?_, rfl, fun u hu => TokenBucket.refill_refill hb.refilled hu⟩
      cases List.mem_singleton.mp hans
      exact ⟨rfl, _, ha⟩
  | taken | promised | woken | looked => simp at hans

/-- What a bucket promises to those who ask it for permits. -/
structure Metered (rate : ℕ) (h : List Act) (t : ℚ≥0) (r : Requests ℚ ℚ≥0) : Prop where
  /-- In no stretch of time are there more deliveries than the burst and the rate allow. -/
  bounded : ∀ s u, s ≤ u → (count (deliveries h) s u : ℚ) ≤ rate * (1 + (u - s))
  /-- Calls that wait get their permits in the order in which they went to sleep, at the
  moments promised to them. -/
  inOrder : promised h = awaited h ++ r.pending.map promise
  /-- These moments lie apart. -/
  apart : (promised h).Pairwise fun p q => (p.2 : ℚ) + 1 / rate ≤ q.2
  /-- A call that gets no permit ends when it is made, and has consumed nothing. -/
  refused : ∀ m ∈ h, ∀ call, .answered call false ∈ m.outcome.events →
    (∃ wait, m.Asks call wait) ∧ m.outcome.requests.pending = m.found.pending ∧
      ∀ u, m.now ≤ u →
        m.outcome.requests.bucket.refill .exact u = m.found.bucket.refill .exact u
  /-- A permit is not delivered later than the wait of its call allows. -/
  inTime : ∀ m ∈ h, ∀ call wait, m.Asks call wait → ∀ d ∈ deliveries h, d.1 = call →
    m.now ≤ d.2 ∧ d.2 ≤ m.now + wait
  /-- No call goes without an answer for longer. -/
  answered : ∀ m ∈ h, ∀ call wait, m.Asks call wait →
    (∃ n ∈ h, n.Answers call) ∨ t ≤ m.now + wait

/-- Along every run a bucket that fills keeps its promises. -/
theorem Run.metered (hrate : 1 ≤ rate) (run : Run rate start h t r) : Metered rate h t r := by
  have hl := run.lined hrate
  have ht := run.timely hrate
  obtain ⟨gs, hs⟩ := run.schedule hrate
  refine ⟨fun s u => hs.count_le hrate, hl.inOrder, hl.apart.imp And.right, ?_, ht.served, ?_⟩
  · intro m hm call hans
    obtain ⟨hb, hd⟩ := run.deed hrate m hm
    obtain ⟨⟨hcall, wait, ha⟩, hpend, hbucket⟩ := hd.refusal hb hans
    exact ⟨⟨wait, hcall.symm, ha⟩, hpend, hbucket⟩
  · intro m hm call wait hasks
    rcases ht.settled m hm call wait hasks with hans | ⟨q, hq, hcall⟩
    · exact .inl hans
    · exact .inr ((hl.ahead q hq).trans (ht.held m hm call wait hasks q hq hcall).2)

/-! ## Scripts -/

/-- Lets an action happen at a millisecond, if no call sleeps beyond its moment. -/
def note (t : Instant) (r : Requests ℚ ℚ≥0) (a : Action ℚ≥0) :
    Option (Act × Requests ℚ ℚ≥0) :=
  let now : ℚ≥0 := t / 1000
  if r.pending.all fun q => now ≤ q.ready then
    (r.step .exact now a).map fun o => (⟨now, a, r, o⟩, o.requests)
  else none

/-- A script that can be enacted is a run. -/
theorem Run.enact {script : List (Instant × Action ℚ≥0)} {k : List Act} {u : Instant}
    {r' : Requests ℚ ℚ≥0} (run : Run rate start h t r) {n : Instant} (hn : t ≤ (n : ℚ≥0) / 1000)
    (hp : Backpressure.enact note n r script = some (k, u, r')) :
    ∃ t', Run rate start (h ++ k) t' r' := by
  obtain ⟨t', -, hrun⟩ : ∃ t' ≤ (u : ℚ≥0) / 1000, Run rate start (h ++ k) t' r' := by
    refine reach_of_enact (R := fun h n r => ∃ t ≤ (n : ℚ≥0) / 1000, Run rate start h t r)
      ?act ?pass ⟨t, hn, run⟩ hp
    case act =>
      intro h n r a m r' ⟨t, ht, run⟩ hm
      simp only [note] at hm
      split at hm
      · next hsleep =>
          obtain ⟨o, hs, he⟩ := Option.map_eq_some_iff.mp hm
          cases he
          exact ⟨_, le_rfl, (run.pass ht (by simpa using hsleep)).act hs⟩
      · cases hm
    case pass =>
      intro h n n' r ⟨t, ht, run⟩ hle
      have hmono : (n : ℚ≥0) / 1000 ≤ (n' : ℚ≥0) / 1000 := by gcongr
      exact ⟨t, ht.trans hmono, run⟩
  exact ⟨t', hrun⟩

/-- Two permits a second: two calls find one each, one does not want to wait long enough, two go
to sleep, and one more that does not wait at all is refused. -/
def queueing : List (Instant × Action ℚ≥0) :=
  [(0, .tryAcquire), (0, .acquire 1), (100, .acquire (3 / 10)), (100, .acquire 1),
    (200, .acquire 2), (300, .tryAcquire), (500, .resume 3), (900, .look), (1000, .resume 4)]

theorem metered_of_queueing : ∃ h t r u, enact note 0 (ofRate .exact 2 0) queueing = some (h, u, r) ∧
    Metered 2 h t r ∧ deliveries h = [(0, 0), (1, 0), (3, 1 / 2), (4, 1)] ∧
      awaited h = [(3, 1 / 2), (4, 1)] := by
  have hplay : (enact note 0 (ofRate .exact 2 0) queueing).map (fun w =>
      (deliveries w.1, awaited w.1)) =
        some ([(0, 0), (1, 0), (3, 1 / 2), (4, 1)], [(3, 1 / 2), (4, 1)]) := by
    decide +kernel
  obtain ⟨⟨h, u, r⟩, hp, hread⟩ := Option.map_eq_some_iff.mp hplay
  simp only [Prod.mk.injEq] at hread
  have begun : Run 2 0 [] 0 (ofRate .exact 2 0) := .here
  obtain ⟨t, run⟩ := begun.enact (by simp) hp
  exact ⟨h, t, r, u, hp, run.metered (by decide), hread⟩

end Requests

end Backpressure.Rate
