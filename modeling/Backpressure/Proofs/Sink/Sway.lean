import Backpressure.Proofs.Registry
import Backpressure.Proofs.Sink.Motions

/-!
# What an action does to the cause of a shutdown

A sink goes down by a call of `shutDown` or by a flush that fails.  Which of the two it was
settles who is told to have done it and whether an alert is raised.

*Owing.*  A shutdown that brought the sink down is told so when it ends, which may be much
later.  Until then the answer is owed to it.  What is owed and what was told are one list
here, and `Sway` is what an action does to this list, to the reason and to the alerts.

*Names.*  What is owed to a call is found by its name, so the calls that wait must have
names of their own (`Registered`).
-/

namespace Backpressure

/-- A shutdown that brought the sink down. -/
def SinkErrand.claims : SinkErrand → Bool
  | .awaitingStop initiated _ => initiated
  | .awaitingPermit _ _ _ _ | .awaitingSlot _ _ _ _ => false

theorem SinkErrand.claims_of_isOffer {e : SinkErrand} (he : e.isOffer = true) :
    e.claims = false := by
  cases e with
  | awaitingStop => cases he
  | awaitingPermit | awaitingSlot => rfl

namespace Sink

variable {settings : SinkSettings} {t₀ t : Instant} {h : List Act} {clock : WallClock}
  {now : Instant} {s s' : Sink} {a : Action} {o : SinkOutcome} {call c : CallId} {e : SinkErrand}
  {mayDrop : Bool}

/-! ## Calls -/

/-- The calls that wait have names of their own. -/
structure Registered (s : Sink) : Prop where
  distinct : (s.calls.map (·.1)).Nodup
  known : ∀ c ∈ s.calls.map (·.1), c < s.nextCall

/-- The calls to which it is owed to be told that they brought the sink down. -/
def owed (s : Sink) : List CallId := (s.calls.filter (·.2.claims)).map (·.1)

theorem owed_filter (calls : List (CallId × SinkErrand)) (c : CallId) :
    ((calls.filter (·.1 != c)).filter (·.2.claims)).map (·.1) =
      ((calls.filter (·.2.claims)).map (·.1)).filter (· != c) := by
  rw [← map_fst_filter_ne, List.filter_filter, List.filter_filter]
  congr 2
  funext w
  exact Bool.and_comm _ _

/-- Whoever is answered is owed nothing any more. -/
theorem owed_answer (answered : SinkAnswer) :
    (answer o c answered).sink.owed = o.sink.owed.filter (· != c) := owed_filter _ c

/-- Whoever begins to wait is owed an answer if it brought the sink down. -/
theorem owed_await :
    (s.await c e).sink.owed = s.owed.filter (· != c) ++ if e.claims then [c] else [] := by
  simp only [owed, await, List.filter_append, List.map_append, owed_filter]
  cases he : e.claims <;> simp [he]

theorem filter_owed (hc : c ∉ s.owed) : s.owed.filter (· != c) = s.owed :=
  List.filter_eq_self.mpr fun _ hx => bne_iff_ne.mpr fun hxc => hc (hxc ▸ hx)

namespace Registered

theorem mem_names (hc : s.calls.lookup c = some e) : c ∈ s.calls.map (·.1) :=
  List.mem_map_of_mem (f := (·.1)) (mem_of_lookup hc)

/-- Nothing is owed to a call that has not begun. -/
theorem fresh (hr : Registered s) : s.nextCall ∉ s.owed := by
  intro hc
  obtain ⟨w, hw, hname⟩ := List.mem_map.mp hc
  have hlt := hr.known w.1 (List.mem_map_of_mem (List.mem_filter.mp hw).1)
  exact Nat.lt_irrefl _ (hname ▸ hlt)

/-- Whether something is owed to a call is a matter of its errand. -/
theorem mem_owed (hr : Registered s) (hc : s.calls.lookup c = some e) :
    c ∈ s.owed ↔ e.claims = true := by
  constructor
  · intro hm
    obtain ⟨⟨c', e'⟩, hw, rfl⟩ := List.mem_map.mp hm
    obtain ⟨hcalls, hclaims⟩ := List.mem_filter.mp hw
    rwa [eq_of_lookup hr.distinct hc hcalls] at hclaims
  · intro he
    exact List.mem_map.mpr ⟨(c, e), List.mem_filter.mpr ⟨mem_of_lookup hc, he⟩, rfl⟩

theorem answer (hr : Registered o.sink) (answered : SinkAnswer) :
    Registered (Sink.answer o c answered).sink where
  distinct := nodup_struck hr.distinct c
  known x hx := by
    have hbefore : x ∈ (o.sink.calls.map (·.1)).filter (· != c) := map_fst_filter_ne _ c ▸ hx
    exact hr.known x (List.mem_filter.mp hbefore).1

theorem await (hr : Registered s) (hc : c < s.nextCall) : Registered (s.await c e).sink where
  distinct := nodup_entered hr.distinct c e
  known x hx := by
    rw [Sink.await, List.map_append, List.mem_append, map_fst_filter_ne] at hx
    rcases hx with hx | hx
    · exact hr.known x (List.mem_filter.mp hx).1
    · exact List.mem_singleton.mp hx ▸ hc

/-- A step aside leaves the calls as they are registered. -/
theorem aside (hr : Registered s) (h : Aside s s') : Registered s' := by
  obtain ⟨_, _, _, _, hcall, _, rfl⟩ := h
  exact ⟨hr.distinct, fun x hx => Nat.lt_of_lt_of_le (hr.known x hx) hcall⟩

theorem named (hr : Registered s) : Registered s.named :=
  ⟨hr.distinct, fun x hx => Nat.lt_succ_of_lt (hr.known x hx)⟩

/-- An offer is registered while it waits. -/
theorem offering (hr : Registered s) (hc : call < s.nextCall) (h : Offering s call mayDrop o) :
    Registered o.sink := by
  cases h with
  | refuse s' why hs hwhy =>
      have hr' := hr.aside hs
      simp only [refuse]
      split <;> exact .answer ⟨hr'.distinct, hr'.known⟩ _
  | accept s' r hs hup =>
      have hr' := hr.aside hs
      exact .answer ⟨hr'.distinct, hr'.known⟩ _
  | wait s' e hs he =>
      obtain ⟨_, _, _, _, hcall, _, rfl⟩ := hs
      exact .await ⟨hr.distinct, fun x hx => Nat.lt_of_lt_of_le (hr.known x hx) hcall⟩
        (Nat.lt_of_lt_of_le hc hcall)

theorem dismissed (hr : Registered s) (reason : String) : Registered (s.dismissed reason) := by
  obtain ⟨_, _, -, heq⟩ := s.dismissed_eq reason
  exact heq ▸ ⟨hr.named.distinct, hr.named.known⟩

theorem nextCall_dismissed (reason : String) : (s.dismissed reason).nextCall = s.nextCall + 1 := by
  obtain ⟨_, _, -, heq⟩ := s.dismissed_eq reason
  rw [heq]
  rfl

theorem stride {w : FlushAction} (hr : Registered s) (h : Stride clock now s w o) :
    Registered o.sink := by
  cases h <;> exact ⟨hr.distinct, hr.known⟩

theorem motion (hr : Registered s) (h : Motion clock now s a o) : Registered o.sink := by
  cases h with
  | offer content permitWait slotWait mayDrop o ho =>
      exact hr.named.offering (Nat.lt_succ_self _) ho
  | offerOn call e mayDrop o hc he ho => exact hr.offering (hr.known call (mem_names hc)) ho
  | shutDown reason => exact .answer (hr.dismissed reason) _
  | shutDownWaits reason deadline =>
      exact .await (hr.dismissed reason) (by rw [nextCall_dismissed]; exact Nat.lt_succ_self _)
  | stopSeen call initiated deadline hc => exact .answer hr _
  | flush | enable | disable => exact ⟨hr.distinct, hr.known⟩
  | worker w o ho => exact hr.stride ho

end Registered

/-- Along every history each call that is under way is registered under a name of its own. -/
theorem History.registered (hist : History settings t₀ h t s) : Registered s := by
  induction hist with
  | here => exact ⟨List.nodup_nil, fun c hc => absurd hc List.not_mem_nil⟩
  | act hist hs ih => exact ih.motion (step_motion hist.steady hs)
  | pass hist hle ih => exact ih

/-! ## One step -/

theorem alarms_of_dealing {es : List SinkEvent} (hes : es.all SinkEvent.isDealing = true) :
    alarms es = [] :=
  filterMap_of_dealing (SinkEvent.read_dealing (fun _ => rfl) (fun _ => rfl) rfl) hes

/-- The flush worker deals, raises alerts and throws records away, and says nothing else. -/
theorem Stride.silent {β : Type} {f : SinkEvent → Option β} {w : FlushAction}
    (hdeal : ∀ e, e.isDealing = true → f e = none) (halert : ∀ x y, f (.alerted x y) = none)
    (hdis : ∀ rs, f (.discarded rs) = none) (h : Stride clock now s w o) :
    o.events.filterMap f = [] := by
  have hclose : f (.asked .close) = none := hdeal _ rfl
  cases h with
  | rest | heed | quit | idle | lose | loseLast => rfl
  | clearIdle | clearFatal => simp [hdis, hclose]
  | begin _ _ _ _ _ hes | beginLast _ _ hes | take _ _ _ _ _ _ _ hes | deliver _ _ _ _ _ hes
  | giveUp _ _ _ _ _ _ _ hes | warned _ _ _ _ _ hes | close _ _ _ _ _ hes =>
      exact filterMap_of_dealing hdeal hes
  | strike _ _ _ _ _ _ _ hes => simp [filterMap_of_dealing hdeal hes, halert]
  | deliverLast _ _ _ _ _ hes | giveUpLast _ _ _ _ _ _ hes =>
      simp [filterMap_of_dealing hdeal hes, hdis, hclose]

/-- The worker answers no shutdown. -/
theorem Stride.initiators_eq_nil {w : FlushAction} (h : Stride clock now s w o) :
    initiators o.events = [] :=
  h.silent (SinkEvent.read_dealing (fun _ => rfl) (fun _ => rfl) rfl) (fun _ _ => rfl) fun _ => rfl

/-- The alert of a sink that goes down for a reason, with its subject. -/
def alert (name reason : String) : String × String :=
  ("telemetry sink " ++ name ++ " shut down", reason)

/-- What an action does to the reason, to the alerts, and to the calls to which an answer is
owed. -/
inductive Sway (s : Sink) (a : Action) (o : SinkOutcome) : Prop where
  /-- Nothing is settled. -/
  | keep (hreason : o.sink.reason = s.reason)
      (hcalls : initiators o.events ++ o.sink.owed = s.owed) (halarms : alarms o.events = [])
  /-- A call brings the sink down. -/
  | order (reason : String) (ha : a = .shutDown reason) (hup : s.isDown = false)
      (hreason : o.sink.reason = some reason)
      (hcalls : initiators o.events ++ o.sink.owed = [s.nextCall]) (halarms : alarms o.events = [])
  /-- A flush that fails brings the sink down. -/
  | strike (b : Batch) (fault : FlushFault) (hfail : s.failureBy a = some (b, fault))
      (hup : s.isDown = false) (hreason : o.sink.reason = some fault.message)
      (hcalls : initiators o.events ++ o.sink.owed = s.owed)
      (halarms : alarms o.events = [alert s.settings.name fault.message])

/-- An offer brings no sink down and raises no alert. -/
theorem Offering.settles_nothing (hc : call ∉ s.owed) (h : Offering s call mayDrop o) :
    o.sink.reason = s.reason ∧ initiators o.events ++ o.sink.owed = s.owed ∧
      alarms o.events = [] := by
  refine ⟨h.untouched.reason, ?_⟩
  have hkeep := filter_owed hc
  cases h with
  | refuse s' why hs hwhy =>
      obtain ⟨_, _, _, _, _, _, rfl⟩ := hs
      simp only [Sink.refuse]
      split <;> exact ⟨(owed_answer _).trans hkeep, rfl⟩
  | accept s' r hs hup =>
      obtain ⟨_, _, _, _, _, _, rfl⟩ := hs
      exact ⟨(owed_answer _).trans hkeep, rfl⟩
  | wait s' e hs he =>
      obtain ⟨_, _, _, _, _, _, rfl⟩ := hs
      have howed := owed_await (s := s) (c := call) (e := e)
      rw [SinkErrand.claims_of_isOffer he, hkeep] at howed
      exact ⟨howed.trans (List.append_nil _), rfl⟩

/-- The worker brings a sink down only with the alert of a flush that fails. -/
theorem Stride.sway {w : FlushAction} (h : Stride clock now s w o) : Sway s (.worker w) o := by
  have hcalls : initiators o.events ++ o.sink.owed = s.owed := by
    rw [h.initiators_eq_nil]
    cases h <;> rfl
  cases h with
  | strike w b fault es hp hfail hup hes =>
      refine .strike b fault hfail hup rfl hcalls ?_
      rw [alarms_append, alarms_of_dealing hes]
      rfl
  | rest | heed | quit | idle | lose | loseLast | clearIdle | clearFatal =>
      exact .keep rfl hcalls rfl
  | begin _ _ _ _ _ hes | beginLast _ _ hes | take _ _ _ _ _ _ _ hes | deliver _ _ _ _ _ hes
  | giveUp _ _ _ _ _ _ _ hes | warned _ _ _ _ _ hes | close _ _ _ _ _ hes =>
      exact .keep rfl hcalls (alarms_of_dealing hes)
  | deliverLast _ _ _ _ _ hes | giveUpLast _ _ _ _ _ _ hes =>
      refine .keep rfl hcalls ?_
      rw [alarms_append, alarms_of_dealing hes]
      rfl

/-- A shutdown settles the cause if the sink is up, whether it ends at once or waits. -/
theorem dismissed_sway {reason : String} (hreason : o.sink.reason = (s.dismissed reason).reason)
    (hcalls : initiators o.events ++ o.sink.owed = if s.isDown then s.owed else [s.nextCall])
    (halarms : alarms o.events = []) : Sway s (.shutDown reason) o := by
  cases hd : s.isDown with
  | true =>
      rw [hd, if_pos rfl] at hcalls
      rw [dismissed_down hd] at hreason
      exact .keep hreason hcalls halarms
  | false =>
      rw [hd, if_neg Bool.false_ne_true] at hcalls
      rw [dismissed_up hd] at hreason
      exact .order reason rfl hd hreason hcalls halarms

theorem owed_dismissed (reason : String) : (s.dismissed reason).owed = s.owed := by
  obtain ⟨_, _, -, heq⟩ := s.dismissed_eq reason
  rw [heq]
  rfl

/-- A shutdown that waited is told what was owed to it. -/
theorem stopSeen_sway {initiated : Bool} {deadline : Instant} (hr : Registered s)
    (hone : s.owed.length ≤ 1)
    (hc : s.calls.lookup call = some (.awaitingStop initiated deadline)) :
    Sway s (.resume call) (answer { sink := s } call (.shutDown initiated)) := by
  have hmem := hr.mem_owed hc
  refine .keep rfl ?_ (by cases initiated <;> rfl)
  cases initiated with
  | false => exact (owed_answer _).trans (filter_owed fun hm => Bool.false_ne_true (hmem.mp hm))
  | true =>
      have hcall : call ∈ s.owed := hmem.mpr rfl
      obtain ⟨c, howed⟩ := List.length_eq_one_iff.mp
        (Nat.le_antisymm hone (List.length_pos_of_mem hcall))
      obtain rfl := List.mem_singleton.mp (howed ▸ hcall)
      have hnone : (answer { sink := s } call (.shutDown true)).sink.owed = [] := by
        rw [owed_answer]
        simp [howed]
      rw [hnone, howed]
      rfl

/-- Every motion settles nothing, or brings the sink down by an order or by a flush that fails. -/
theorem Motion.sway (hr : Registered s) (hidle : s.isDown = false → s.owed = [])
    (hone : s.owed.length ≤ 1) (h : Motion clock now s a o) : Sway s a o := by
  cases h with
  | offer content permitWait slotWait mayDrop o ho =>
      have hfresh : s.nextCall ∉ s.named.owed := hr.fresh
      obtain ⟨hreason, hcalls, halarms⟩ := ho.settles_nothing hfresh
      exact .keep hreason hcalls halarms
  | offerOn call e mayDrop o hc he ho =>
      have hnot : call ∉ s.owed := by
        intro hm
        have hclaims := (hr.mem_owed hc).mp hm
        rw [SinkErrand.claims_of_isOffer he] at hclaims
        cases hclaims
      obtain ⟨hreason, hcalls, halarms⟩ := ho.settles_nothing hnot
      exact .keep hreason hcalls halarms
  | shutDown reason =>
      refine dismissed_sway rfl ?_ rfl
      rw [owed_answer, owed_dismissed, filter_owed hr.fresh]
      cases hd : s.isDown with
      | true => rfl
      | false =>
          rw [hidle hd]
          rfl
  | shutDownWaits reason deadline =>
      refine dismissed_sway rfl ?_ rfl
      rw [owed_await, owed_dismissed, filter_owed hr.fresh]
      cases hd : s.isDown with
      | true => exact List.append_nil _
      | false =>
          rw [hidle hd]
          rfl
  | stopSeen call initiated deadline hc => exact stopSeen_sway hr hone hc
  | flush | enable | disable => exact .keep rfl rfl rfl
  | worker w o ho => exact ho.sway

end Sink

end Backpressure
