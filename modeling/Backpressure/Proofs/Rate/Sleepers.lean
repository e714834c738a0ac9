import Backpressure.Proofs.Rate.Requests

/-!
# The calls that sleep

Calls sleep in the order in which they reserved, and each wakes when the permit of the one
before it has been delivered and one more has flowed in.  So the moments promised to them lie
apart, only the first of them can be due, and the calls that had to wait and got their permits
are just those that something was promised to before (`Lined`).

Time does not pass beyond a moment that was promised, and no moment is promised that lies
beyond the wait of the call.  So nobody waits longer than that (`Timely`).
-/

namespace Backpressure.Rate

namespace TokenBucket

variable (b : TokenBucket ℚ ℚ≥0) (now : ℚ≥0)

theorem emptyAt_add_le : b.emptyAt + 1 / b.permitsPerSecond ≤ b.nextPermit now :=
  add_le_add_left (le_max_left _ _) _

theorem sub_one_add_le : (now : ℚ) - 1 + 1 / b.permitsPerSecond ≤ b.nextPermit now :=
  add_le_add_left (le_max_right _ _) _

variable {b : TokenBucket ℚ ℚ≥0} {now : ℚ≥0}

theorem emptyAt_le_refill (hpos : 0 < b.permitsPerSecond) (hle : b.refilledAt ≤ now) :
    b.emptyAt ≤ (b.refill .exact now).emptyAt := by
  rw [emptyAt_refill hpos hle]
  exact le_max_left _ _

end TokenBucket

namespace Requests

variable {rate : ℕ} {start t : ℚ≥0} {r r' : Requests ℚ ℚ≥0} {a : Action ℚ≥0}
  {o : RequestsOutcome ℚ ℚ≥0} {h : List Act} {call : CallId} {q : Reservation ℚ≥0} {m : Act}

/-! ## The calls that sleep -/

/-- The name of a call that sleeps, with the moment promised to it. -/
def promise (q : Reservation ℚ≥0) : CallId × ℚ≥0 := (q.call, q.ready)

/-- The calls that sleep are the last ones that something was promised to. -/
structure Lined (rate : ℕ) (h : List Act) (t : ℚ≥0) (r : Requests ℚ ℚ≥0) : Prop where
  ahead : ∀ q ∈ r.pending, t ≤ q.ready
  inOrder : promised h = awaited h ++ r.pending.map promise
  apart : (promised h).Pairwise fun p q => p.1 < q.1 ∧ (p.2 : ℚ) + 1 / rate ≤ q.2
  spent : ∀ p ∈ promised h, (p.2 : ℚ) ≤ r.bucket.emptyAt
  fresh : ∀ p ∈ promised h, p.1 < r.nextCall
  known : ∀ d ∈ deliveries h, d.1 < r.nextCall

theorem Lined.pending_apart (hl : Lined rate h t r) :
    r.pending.Pairwise fun q q' => q.call < q'.call ∧ (q.ready : ℚ) + 1 / rate ≤ q'.ready := by
  have hall := hl.apart
  rw [hl.inOrder] at hall
  exact List.pairwise_map.mp (List.pairwise_append.mp hall).2.1

/-- Only the first of the calls that sleep can be due. -/
theorem Lined.head (hrate : 0 < rate) (hl : Lined rate h t r)
    (hq : r.pending.find? (·.call == call) = some q) (hdue : q.ready ≤ t) :
    q.call = call ∧ q.ready = t ∧ r.pending = q :: r.pending.filter (·.call != call) := by
  have hgap : (0 : ℚ) < 1 / rate := by positivity
  have hcall : q.call = call := by simpa using List.find?_some hq
  have hmem := List.mem_of_find?_eq_some hq
  refine ⟨hcall, le_antisymm hdue (hl.ahead q hmem), ?_⟩
  have hapart := hl.pending_apart
  have hahead := hl.ahead
  cases hp : r.pending with
  | nil => simp [hp] at hmem
  | cons p ps =>
      rw [hp] at hmem hapart hahead
      obtain ⟨hfirst, -⟩ := List.pairwise_cons.mp hapart
      rcases List.mem_cons.mp hmem with rfl | hlast
      · have hkeep : ps.filter (·.call != call) = ps := by
          refine List.filter_eq_self.mpr fun q' hq' => ?_
          have hlt := (hfirst q' hq').1
          simpa [← hcall] using hlt.ne'
        rw [List.filter_cons_of_neg (by simp [hcall]), hkeep]
      · -- one behind the first wakes later than the first, which is not past
        have hbehind := (hfirst q hlast).2
        have hnow : (t : ℚ) ≤ p.ready := by exact_mod_cast hahead p List.mem_cons_self
        have hpast : (q.ready : ℚ) ≤ t := by exact_mod_cast hdue
        linarith

/-! ### What an act adds -/

theorem awaited_concat (m : Act) : awaited (h ++ [m]) =
    (deliveries h ++ m.deliveries).filter
      fun d => d.1 ∈ (promised h).map (·.1) ++ m.promises.map (·.1) := by
  rw [awaited, deliveries_concat, promised_concat, List.map_append]

/-- A call that did not have to wait is not among those that did. -/
theorem awaited_of_taken (hm : m.deliveries = [(call, t)]) (hnone : m.promises = [])
    (hcall : call ∉ (promised h).map (·.1)) : awaited (h ++ [m]) = awaited h := by
  rw [awaited_concat, hm, hnone, List.map_nil, List.append_nil, List.filter_append,
    List.filter_cons_of_neg (by simpa using hcall), List.filter_nil, List.append_nil]
  rfl

theorem awaited_of_woken (hm : m.deliveries = [(call, t)]) (hnone : m.promises = [])
    (hcall : call ∈ (promised h).map (·.1)) : awaited (h ++ [m]) = awaited h ++ [(call, t)] := by
  rw [awaited_concat, hm, hnone, List.map_nil, List.append_nil, List.filter_append,
    List.filter_cons_of_pos (by simpa using hcall), List.filter_nil]
  rfl

/-- What is promised now was not delivered before. -/
theorem awaited_of_promised (hnone : m.deliveries = [])
    (hfresh : ∀ d ∈ deliveries h, d.1 ∉ m.promises.map (·.1)) :
    awaited (h ++ [m]) = awaited h := by
  rw [awaited_concat, hnone, List.append_nil, awaited]
  refine List.filter_congr fun d hd => ?_
  simp [hfresh d hd]

/-- An act that neither delivers nor promises anything. -/
theorem Lined.keep (hl : Lined rate h t r) (hm : m.deliveries = []) (hnone : m.promises = [])
    (hpend : r'.pending = r.pending) (hempty : r.bucket.emptyAt ≤ r'.bucket.emptyAt)
    (hnext : r.nextCall ≤ r'.nextCall) : Lined rate (h ++ [m]) t r' := by
  have hp : promised (h ++ [m]) = promised h := by rw [promised_concat, hnone, List.append_nil]
  have hd : deliveries (h ++ [m]) = deliveries h := by
    rw [deliveries_concat, hm, List.append_nil]
  refine ⟨hpend ▸ hl.ahead, ?_, hp ▸ hl.apart, ?_, ?_, ?_⟩
  · rw [awaited, hp, hd, hpend]
    exact hl.inOrder
  · intro p hmem
    exact (hl.spent p (hp ▸ hmem)).trans hempty
  · intro p hmem
    exact (hl.fresh p (hp ▸ hmem)).trans_le hnext
  · intro d hmem
    exact (hl.known d (hd ▸ hmem)).trans_le hnext

theorem Lined.unnamed (hl : Lined rate h t r) : r.nextCall ∉ (promised h).map (·.1) := by
  intro hmem
  obtain ⟨p, hp, hname⟩ := List.mem_map.mp hmem
  exact (hl.fresh p hp).ne hname

/-- An act in which a call finds a permit. -/
theorem Lined.take (hl : Lined rate h t r) (hm : m.deliveries = [(r.nextCall, t)])
    (hnone : m.promises = []) (hpend : r'.pending = r.pending)
    (hempty : r.bucket.emptyAt ≤ r'.bucket.emptyAt) (hnext : r'.nextCall = r.nextCall + 1) :
    Lined rate (h ++ [m]) t r' := by
  have hp : promised (h ++ [m]) = promised h := by rw [promised_concat, hnone, List.append_nil]
  refine ⟨hpend ▸ hl.ahead, ?_, hp ▸ hl.apart, ?_, ?_, ?_⟩
  · rw [hp, awaited_of_taken hm hnone hl.unnamed, hpend]
    exact hl.inOrder
  · intro p hmem
    exact (hl.spent p (hp ▸ hmem)).trans hempty
  · intro p hmem
    exact hnext ▸ Nat.lt_succ_of_lt (hl.fresh p (hp ▸ hmem))
  · intro d hmem
    rw [deliveries_concat, hm] at hmem
    rcases List.mem_append.mp hmem with hmem | hmem
    · exact hnext ▸ Nat.lt_succ_of_lt (hl.known d hmem)
    · rw [List.mem_singleton.mp hmem, hnext]
      exact Nat.lt_succ_self _

/-- An act in which a call goes to sleep. -/
theorem Lined.sleep {ready : ℚ≥0} (hl : Lined rate h t r) (hm : m.deliveries = [])
    (hsleep : m.promises = [(r.nextCall, ready)])
    (hpend : r'.pending = r.pending ++ [⟨r.nextCall, ready⟩]) (hahead : t ≤ ready)
    (hgap : r.bucket.emptyAt + 1 / rate ≤ ready) (hempty : r'.bucket.emptyAt = ready)
    (hnext : r'.nextCall = r.nextCall + 1) : Lined rate (h ++ [m]) t r' := by
  have hp : promised (h ++ [m]) = promised h ++ [(r.nextCall, ready)] := by
    rw [promised_concat, hsleep]
  have hd : deliveries (h ++ [m]) = deliveries h := by
    rw [deliveries_concat, hm, List.append_nil]
  have hw : awaited (h ++ [m]) = awaited h := by
    refine awaited_of_promised hm fun d hmem => ?_
    rw [hsleep, List.map_singleton, List.mem_singleton]
    exact (hl.known d hmem).ne
  have hpos : (0 : ℚ) ≤ 1 / rate := by positivity
  refine ⟨?_, ?_, ?_, ?_, ?_, ?_⟩
  · intro q hq
    rw [hpend] at hq
    rcases List.mem_append.mp hq with hq | hq
    · exact hl.ahead q hq
    · exact List.mem_singleton.mp hq ▸ hahead
  · rw [hp, hw, hpend, List.map_append, ← List.append_assoc, ← hl.inOrder]
    rfl
  · rw [hp, List.pairwise_append]
    refine ⟨hl.apart, List.pairwise_singleton _ _, fun p hmem p' hmem' => ?_⟩
    rw [List.mem_singleton.mp hmem']
    have hspent := hl.spent p hmem
    exact ⟨hl.fresh p hmem, by linarith⟩
  · intro p hmem
    rw [hp] at hmem
    rcases List.mem_append.mp hmem with hmem | hmem
    · have hspent := hl.spent p hmem
      linarith
    · exact List.mem_singleton.mp hmem ▸ hempty.ge
  · intro p hmem
    rw [hp] at hmem
    rcases List.mem_append.mp hmem with hmem | hmem
    · exact hnext ▸ Nat.lt_succ_of_lt (hl.fresh p hmem)
    · rw [List.mem_singleton.mp hmem, hnext]
      exact Nat.lt_succ_self _
  · intro d hmem
    exact hnext ▸ Nat.lt_succ_of_lt (hl.known d (hd ▸ hmem))

/-- An act in which the first of the calls that sleep wakes. -/
theorem Lined.wake (hl : Lined rate h t r) (hm : m.deliveries = [(q.call, q.ready)])
    (hnone : m.promises = []) (hpend : r.pending = q :: r'.pending)
    (hbucket : r'.bucket = r.bucket) (hnext : r'.nextCall = r.nextCall) :
    Lined rate (h ++ [m]) t r' := by
  have hp : promised (h ++ [m]) = promised h := by rw [promised_concat, hnone, List.append_nil]
  have hq : promise q ∈ promised h := by
    rw [hl.inOrder, hpend]
    exact List.mem_append_right _ List.mem_cons_self
  have hw := awaited_of_woken hm hnone (List.mem_map_of_mem (f := (·.1)) hq)
  refine ⟨?_, ?_, hp ▸ hl.apart, ?_, ?_, ?_⟩
  · intro q' hq'
    exact hl.ahead q' (hpend ▸ List.mem_cons_of_mem q hq')
  · rw [hp, hw, hl.inOrder, hpend, List.append_assoc]
    rfl
  · intro p hmem
    exact hbucket ▸ hl.spent p (hp ▸ hmem)
  · intro p hmem
    exact hnext ▸ hl.fresh p (hp ▸ hmem)
  · intro d hmem
    rw [deliveries_concat, hm] at hmem
    rcases List.mem_append.mp hmem with hmem | hmem
    · exact hnext ▸ hl.known d hmem
    · rw [List.mem_singleton.mp hmem, hnext]
      exact hl.fresh (promise q) hq

theorem Lined.deed (hrate : 0 < rate) (hl : Lined rate h t r) (hb : Dated rate t r.bucket)
    (hd : Deed t r a o) : Lined rate (h ++ [⟨t, a, r, o⟩]) t o.requests := by
  have hpos : 0 < r.bucket.permitsPerSecond := hb.rate_eq ▸ hrate
  have htaken := TokenBucket.emptyAt_taken hpos hb.refilled
  have hrefill := TokenBucket.emptyAt_le_refill hpos hb.refilled
  have hgap := r.bucket.emptyAt_add_le t
  rw [hb.rate_eq] at hgap
  cases hd with
  | taken ha hthere =>
      have hinv : (0 : ℚ) ≤ 1 / rate := by positivity
      refine hl.take rfl rfl rfl ?_ rfl
      show _ ≤ TokenBucket.emptyAt _
      linarith
  | refused ha hlong => exact hl.keep rfl rfl rfl hrefill (Nat.le_succ _)
  | promised ha ready hready hlate hwait =>
      exact hl.sleep rfl rfl rfl hlate.le (hready ▸ hgap) (htaken.trans hready.symm) rfl
  | woken call q hq hdue =>
      obtain ⟨rfl, rfl, hpend⟩ := hl.head hrate hq hdue
      exact hl.wake rfl rfl hpend rfl rfl
  | looked => exact hl.keep rfl rfl rfl hrefill (Nat.le_refl _)

theorem Run.lined (hrate : 0 < rate) (run : Run rate start h t r) : Lined rate h t r := by
  induction run with
  | here =>
      refine ⟨?_, rfl, List.Pairwise.nil, ?_, ?_, ?_⟩
      all_goals exact fun _ hmem => absurd hmem List.not_mem_nil
  | act run hs ih =>
      have hb := run.dated hrate
      exact ih.deed hrate hb (step_deed_of_dated hrate hb hs)
  | pass run hle hpend ih => exact { ih with ahead := hpend }

/-! ## Waits -/

/-- A call that an act tells to have ended, with a permit or without one. -/
def Act.Answers (m : Act) (call : CallId) : Prop :=
  ∃ taken, PermitEvent.answered call taken ∈ m.outcome.events

/-- Whoever asked has been answered in time, or sleeps and will be. -/
structure Timely (h : List Act) (r : Requests ℚ ℚ≥0) : Prop where
  asked : ∀ m ∈ h, ∀ call wait, m.Asks call wait → call < r.nextCall
  served : ∀ m ∈ h, ∀ call wait, m.Asks call wait → ∀ d ∈ deliveries h, d.1 = call →
    m.now ≤ d.2 ∧ d.2 ≤ m.now + wait
  held : ∀ m ∈ h, ∀ call wait, m.Asks call wait → ∀ q ∈ r.pending, q.call = call →
    m.now ≤ q.ready ∧ q.ready ≤ m.now + wait
  settled : ∀ m ∈ h, ∀ call wait, m.Asks call wait →
    (∃ n ∈ h, n.Answers call) ∨ ∃ q ∈ r.pending, q.call = call

/-- An act that makes no call. -/
theorem Timely.keep (ht : Timely h r) (hask : ∀ call wait, ¬ m.Asks call wait)
    (hm : ∀ d ∈ m.deliveries, ∃ q ∈ r.pending, promise q = d)
    (hpend : ∀ q ∈ r'.pending, q ∈ r.pending)
    (hgone : ∀ q ∈ r.pending, q ∈ r'.pending ∨ m.Answers q.call) (hnext : r'.nextCall = r.nextCall) :
    Timely (h ++ [m]) r' := by
  have hold : ∀ n ∈ h ++ [m], ∀ call wait, n.Asks call wait → n ∈ h := by
    intro n hn call wait hasks
    rcases List.mem_append.mp hn with hn | hn
    · exact hn
    · exact absurd (List.mem_singleton.mp hn ▸ hasks) (hask call wait)
  refine ⟨?_, ?_, ?_, ?_⟩
  all_goals
    intro n hn call wait hasks
    have hmem := hold n hn call wait hasks
  · exact hnext ▸ ht.asked n hmem call wait hasks
  · intro d hd hcall
    rw [deliveries_concat] at hd
    rcases List.mem_append.mp hd with hd | hd
    · exact ht.served n hmem call wait hasks d hd hcall
    · obtain ⟨q, hq, rfl⟩ := hm d hd
      exact ht.held n hmem call wait hasks q hq hcall
  · exact fun q hq => ht.held n hmem call wait hasks q (hpend q hq)
  · rcases ht.settled n hmem call wait hasks with ⟨n', hn', hans⟩ | ⟨q, hq, rfl⟩
    · exact .inl ⟨n', List.mem_append_left _ hn', hans⟩
    · rcases hgone q hq with hstill | hans
      · exact .inr ⟨q, hstill, rfl⟩
      · exact .inl ⟨m, List.mem_append_right _ List.mem_cons_self, hans⟩

theorem Lined.pending_fresh (hl : Lined rate h t r) : ∀ q ∈ r.pending, q.call < r.nextCall := by
  intro q hq
  refine hl.fresh (promise q) ?_
  rw [hl.inOrder]
  exact List.mem_append_right _ (List.mem_map_of_mem hq)

/-- An act in which a call is made, which ends at once or goes to sleep. -/
theorem Timely.ask {wait : ℚ≥0} (ht : Timely h r) (hl : Lined rate h t r)
    (hask : ∀ call w, m.Asks call w → call = r.nextCall ∧ w = wait) (hnow : m.now = t)
    (hm : ∀ d ∈ m.deliveries, d = (r.nextCall, t)) {qs : List (Reservation ℚ≥0)}
    (hpend : r'.pending = r.pending ++ qs)
    (hqs : ∀ q ∈ qs, q.call = r.nextCall ∧ t ≤ q.ready ∧ q.ready ≤ t + wait)
    (hdone : m.Answers r.nextCall ∨ ∃ q ∈ qs, q.call = r.nextCall)
    (hnext : r'.nextCall = r.nextCall + 1) : Timely (h ++ [m]) r' := by
  have hwho : ∀ n ∈ h ++ [m], ∀ call w, n.Asks call w →
      n ∈ h ∨ m = n ∧ call = r.nextCall ∧ w = wait := by
    intro n hn call w hasks
    rcases List.mem_append.mp hn with hold | hnew
    · exact .inl hold
    · obtain rfl := List.mem_singleton.mp hnew
      exact .inr ⟨rfl, hask call w hasks⟩
  constructor
  case asked =>
    intro n hn call w hasks
    rcases hwho n hn call w hasks with hold | ⟨rfl, rfl, rfl⟩
    · exact hnext ▸ Nat.lt_succ_of_lt (ht.asked n hold call w hasks)
    · exact hnext ▸ Nat.lt_succ_self _
  case served =>
    intro n hn call w hasks d hd hcall
    rw [deliveries_concat] at hd
    rcases hwho n hn call w hasks with hold | ⟨rfl, rfl, rfl⟩
    · rcases List.mem_append.mp hd with hd | hd
      · exact ht.served n hold call w hasks d hd hcall
      · rw [hm d hd] at hcall
        exact absurd hcall (ht.asked n hold call w hasks).ne'
    · rcases List.mem_append.mp hd with hd | hd
      · exact absurd hcall (hl.known d hd).ne
      · rw [hm d hd, hnow]
        exact ⟨le_rfl, le_self_add⟩
  case held =>
    intro n hn call w hasks q hq hcall
    rw [hpend] at hq
    rcases hwho n hn call w hasks with hold | ⟨rfl, rfl, rfl⟩
    · rcases List.mem_append.mp hq with hq | hq
      · exact ht.held n hold call w hasks q hq hcall
      · rw [(hqs q hq).1] at hcall
        exact absurd hcall (ht.asked n hold call w hasks).ne'
    · rcases List.mem_append.mp hq with hq | hq
      · exact absurd hcall (hl.pending_fresh q hq).ne
      · exact hnow ▸ (hqs q hq).2
  case settled =>
    intro n hn call w hasks
    rw [hpend]
    rcases hwho n hn call w hasks with hold | ⟨rfl, rfl, rfl⟩
    · rcases ht.settled n hold call w hasks with ⟨n', hn', hans⟩ | ⟨q, hq, hcall⟩
      · exact .inl ⟨n', List.mem_append_left _ hn', hans⟩
      · exact .inr ⟨q, List.mem_append_left _ hq, hcall⟩
    · rcases hdone with hans | ⟨q, hq, hcall⟩
      · exact .inl ⟨m, hn, hans⟩
      · exact .inr ⟨q, List.mem_append_right _ hq, hcall⟩

theorem asks_eq {wait w : ℚ≥0} (ha : a.wait? = some wait)
    (hasks : Act.Asks ⟨t, a, r, o⟩ call w) : call = r.nextCall ∧ w = wait :=
  ⟨hasks.1.symm, Option.some.inj (hasks.2.symm.trans ha)⟩

theorem Timely.deed (hrate : 0 < rate) (ht : Timely h r) (hl : Lined rate h t r)
    (hd : Deed t r a o) : Timely (h ++ [⟨t, a, r, o⟩]) o.requests := by
  cases hd with
  | taken ha hthere =>
      refine ht.ask hl (fun _ _ => asks_eq ha) rfl ?_ (List.append_nil _).symm ?_ ?_ rfl
      · exact fun d hd => List.mem_singleton.mp hd
      · exact fun q hq => absurd hq List.not_mem_nil
      · exact .inl ⟨true, List.mem_cons_self⟩
  | refused ha hlong =>
      refine ht.ask hl (fun _ _ => asks_eq ha) rfl ?_ (List.append_nil _).symm ?_ ?_ rfl
      · exact fun d hd => absurd hd List.not_mem_nil
      · exact fun q hq => absurd hq List.not_mem_nil
      · exact .inl ⟨false, List.mem_cons_self⟩
  | promised ha ready hready hlate hwait =>
      refine ht.ask hl (fun _ _ => asks_eq ha) rfl ?_ rfl ?_ ?_ rfl
      · exact fun d hd => absurd hd List.not_mem_nil
      · exact fun q hq => List.mem_singleton.mp hq ▸ ⟨rfl, hlate.le, hwait⟩
      · exact .inr ⟨_, List.mem_cons_self, rfl⟩
  | woken call q hq hdue =>
      obtain ⟨rfl, rfl, hpend⟩ := hl.head hrate hq hdue
      refine ht.keep ?_ ?_ ?_ ?_ rfl
      · exact fun call w hasks => nomatch hasks.2
      · exact fun d hd => ⟨q, hpend ▸ List.mem_cons_self, (List.mem_singleton.mp hd).symm⟩
      · exact fun q' hq' => List.mem_of_mem_filter hq'
      · intro q' hq'
        rw [hpend] at hq'
        rcases List.mem_cons.mp hq' with rfl | hstill
        · exact .inr ⟨true, List.mem_cons_self⟩
        · exact .inl hstill
  | looked =>
      refine ht.keep ?_ ?_ (fun q hq => hq) (fun q hq => .inl hq) rfl
      · exact fun call w hasks => nomatch hasks.2
      · exact fun d hd => absurd hd List.not_mem_nil

theorem Run.timely (hrate : 0 < rate) (run : Run rate start h t r) : Timely h r := by
  induction run with
  | here =>
      refine ⟨?_, ?_, ?_, ?_⟩
      all_goals exact fun m hm => absurd hm List.not_mem_nil
  | act run hs ih =>
      exact ih.deed hrate (run.lined hrate) (step_deed_of_dated hrate (run.dated hrate) hs)
  | pass run hle hpend ih => exact ih

end Requests

end Backpressure.Rate
