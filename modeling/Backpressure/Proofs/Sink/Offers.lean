import Backpressure.Proofs.Sink.Balance
import Backpressure.Proofs.Sink.Downfall

/-!
# What offers are answered

An offer ends with one answer, and the answer says which counter it is counted in.
`History.offers_answered` says so of every history, whoever else acts in between: callers that
flush, switch the sink on and off or shut it down, and a writer that fails, hangs or panics.

*Answers.*  `Reply` is an offer that ended, with how far it got and what went into the buffer
for it.  It is read off the act that ended it, and `Entry` is what one act adds: to the answers,
to the offers that wait, to the buffer and to the counters.

*Thrown away.*  The counter of what was dropped counts two things, offers that were answered so
and records that were thrown away when the flush worker left.  No act does both.
-/

namespace Backpressure

open Telemetry (Record)

namespace Sink

variable {settings : SinkSettings} {t₀ t : Instant} {h : List Act} {clock : WallClock}
  {now : Instant} {s s' : Sink} {a : Action} {o : SinkOutcome} {b : Bid} {far : Reach}
  {name : String} {m : Act}

/-! ## Refusals -/

/-- What a call is told whose offer is refused. -/
def refused (name : String) (mayDrop : Bool) (why : OfferRefusal) : Except CallError Bool :=
  if why.canDrop && mayDrop then .ok false else .error (why.error name)

theorem refuse_eq {call : CallId} {mayDrop : Bool} {why : OfferRefusal} :
    s.refuse call mayDrop why =
      answer { sink := if why.canDrop && mayDrop then { s with dropped := s.dropped + 1 }
          else { s with rejected := s.rejected + 1 } }
        call (.offered (refused s.settings.name mayDrop why)) := by
  simp only [refuse, refused]
  split <;> rfl

theorem refused_eq_dropped {mayDrop : Bool} {why : OfferRefusal} :
    refused name mayDrop why = .ok false ↔ why.canDrop = true ∧ mayDrop = true := by
  cases why <;> cases mayDrop <;> simp [refused, OfferRefusal.canDrop]

theorem refused_eq_overloaded {mayDrop : Bool} {why : OfferRefusal} :
    (∃ text, refused name mayDrop why = .error (.overloaded text)) ↔
      why.canDrop = true ∧ mayDrop = false := by
  cases why <;> cases mayDrop <;> simp [refused, OfferRefusal.canDrop, OfferRefusal.error]

theorem refused_eq_unavailable {mayDrop : Bool} {why : OfferRefusal} :
    (∃ text, refused name mayDrop why = .error (.unavailable text)) ↔ why.canDrop = false := by
  cases why <;> cases mayDrop <;> simp [refused, OfferRefusal.canDrop, OfferRefusal.error]

/-- At the door and where the buffer is sealed an offer is refused even if it may be dropped. -/
theorem canDrop_refusal : (s.refusal far).canDrop = false ↔
    far = .door ∨ far = .buffer ∧ s.buffer.isSealed = true := by
  cases far with
  | door => cases hd : s.isDown <;> simp [refusal, hd, OfferRefusal.canDrop]
  | limiter => simp [refusal, OfferRefusal.canDrop]
  | buffer => cases hs : s.buffer.isSealed <;> simp [refusal, hs, OfferRefusal.canDrop]

/-! ## Answers -/

/-- An offer that ended. -/
structure Reply where
  bid : Bid
  /-- How far it got. -/
  far : Reach
  /-- Whether the buffer was sealed by then. -/
  shut : Bool
  /-- The record that went into the buffer for it. -/
  record? : Option Record
  /-- What its call was told. -/
  result : Except CallError Bool

namespace Reply

def isAccepted (w : Reply) : Bool :=
  match w.result with
  | .ok true => true
  | _ => false

def isDropped (w : Reply) : Bool :=
  match w.result with
  | .ok false => true
  | _ => false

def isRejected (w : Reply) : Bool :=
  match w.result with
  | .error _ => true
  | .ok _ => false

/-- Each answer is counted once. -/
theorem length_eq (l : List Reply) :
    l.length = l.countP isAccepted + l.countP isDropped + l.countP isRejected := by
  induction l with
  | nil => rfl
  | cons w l ih =>
      have hone : (if w.isAccepted then 1 else 0) + (if w.isDropped then 1 else 0) +
          (if w.isRejected then 1 else 0) = 1 := by
        rcases w with ⟨_, _, _, _, _ | _ | _⟩ <;> rfl
      simp only [List.length_cons, List.countP_cons, ih]
      omega

/-- What an answer says about its offer. -/
structure Fair (name : String) (w : Reply) : Prop where
  accepted : w.result = .ok true ↔ w.record?.isSome = true
  content : ∀ r, w.record? = some r → r.content = w.bid.content
  dropped : w.result = .ok false → w.bid.mayDrop = true
  overloaded : (∃ text, w.result = .error (.overloaded text)) → w.bid.mayDrop = false
  /-- It came while the sink was down or switched off, or it got no place and the buffer was
  sealed. -/
  unavailable : (∃ text, w.result = .error (.unavailable text)) ↔
    w.far = .door ∨ w.far = .buffer ∧ w.shut = true ∧ w.record? = none
  errors : ∀ e, w.result = .error e → ∃ why : OfferRefusal, e = why.error name

end Reply

/-- The offer that an act begins. -/
def Act.bid? (m : Act) : Option Bid :=
  match m.action with
  | .offer content _ _ mayDrop => some ⟨m.found.nextCall, content, mayDrop⟩
  | _ => none

/-- An act ends an offer with a result. -/
def Act.reply (m : Act) (bid : Bid) (result : Except CallError Bool) : Reply where
  bid
  far := m.found.reach m.now m.action
  shut := m.found.buffer.isSealed
  record? := (accepted m.outcome.events).head?
  result

/-- The offer that an act ends. -/
def Act.reply? (m : Act) : Option Reply :=
  (m.found.bidOf m.action).bind fun bid =>
    (replies m.outcome.events).head?.map fun told => m.reply bid told.2

/-- The offers that began, in order. -/
def bids (h : List Act) : List Bid := h.filterMap Act.bid?

/-- The offers that ended, in order. -/
def answers (h : List Act) : List Reply := h.filterMap Act.reply?

/-- The offer that a call makes that waits. -/
def bidIn (c : CallId × SinkErrand) : Option Bid :=
  c.2.offer?.map fun (content, mayDrop) => ⟨c.1, content, mayDrop⟩

/-- The offers that wait. -/
def pending (s : Sink) : List Bid := s.calls.filterMap bidIn

/-! ## Offers that wait -/

theorem call_of_bidIn {c : CallId × SinkErrand} (hb : bidIn c = some b) : b.call = c.1 := by
  obtain ⟨_, -, rfl⟩ := Option.map_eq_some_iff.mp hb
  rfl

/-- Striking out a call strikes out its offer. -/
theorem filterMap_bidIn_filter (calls : List (CallId × SinkErrand)) (c : CallId) :
    (calls.filter (·.1 != c)).filterMap bidIn = (calls.filterMap bidIn).filter (·.call != c) := by
  induction calls with
  | nil => rfl
  | cons w calls ih =>
      cases hb : bidIn w with
      | none => by_cases hw : w.1 = c <;> simp [hw, hb, ih]
      | some b =>
          have hcall := call_of_bidIn hb
          by_cases hw : w.1 = c <;> simp [hw, hb, hcall, ih]

theorem pending_answer {c : CallId} (answered : SinkAnswer) :
    (answer o c answered).sink.pending = o.sink.pending.filter (·.call != c) :=
  filterMap_bidIn_filter _ c

theorem pending_await {c : CallId} {e : SinkErrand} :
    (s.await c e).sink.pending = s.pending.filter (·.call != c) ++ (bidIn (c, e)).toList := by
  simp only [pending, await, filterMap_append_singleton, filterMap_bidIn_filter]

theorem names_pending_sublist (s : Sink) :
    (s.pending.map (·.call)).Sublist (s.calls.map (·.1)) := by
  simp only [pending]
  induction s.calls with
  | nil => exact .slnil
  | cons w calls ih =>
      cases hb : bidIn w with
      | none => simpa [hb] using ih.cons w.1
      | some b => simpa [hb, call_of_bidIn hb] using ih

theorem Registered.nodup_pending (hr : Registered s) : (s.pending.map (·.call)).Nodup :=
  hr.distinct.sublist (names_pending_sublist s)

/-- Who waits with an offer waits for nothing else. -/
theorem Registered.offer_of_pending {c : CallId} {e : SinkErrand} (hr : Registered s)
    (hc : s.calls.lookup c = some e) (hp : c ∈ s.pending.map (·.call)) : e.offer?.isSome = true := by
  obtain ⟨b, hb, rfl⟩ := List.mem_map.mp hp
  obtain ⟨⟨c', e'⟩, hmem, hbid⟩ := List.mem_filterMap.mp hb
  obtain rfl : b.call = c' := call_of_bidIn hbid
  obtain rfl := eq_of_lookup hr.distinct hc hmem
  obtain ⟨_, he, -⟩ := Option.map_eq_some_iff.mp hbid
  exact Option.isSome_of_eq_some he

/-- No offer waits under the name of a call that has not begun. -/
theorem Registered.nextCall_notMem_pending (hr : Registered s) :
    s.nextCall ∉ s.pending.map (·.call) := fun hp =>
  Nat.lt_irrefl _ (hr.known _ ((names_pending_sublist s).subset hp))

theorem filter_pending {c : CallId} (hc : c ∉ s.pending.map (·.call)) :
    s.pending.filter (·.call != c) = s.pending :=
  List.filter_eq_self.mpr fun _ hb => bne_iff_ne.mpr fun hbc =>
    hc (hbc ▸ List.mem_map_of_mem hb)

/-- An offer that acts either begins or has waited. -/
theorem bidOf_cases (hb : m.found.bidOf m.action = some b) :
    m.bid? = some b ∧ b.call = m.found.nextCall ∨ m.bid? = none ∧ b ∈ m.found.pending := by
  cases ha : m.action with
  | offer content permitWait slotWait mayDrop =>
      rw [ha] at hb
      cases hb
      exact .inl ⟨by simp [Act.bid?, ha], rfl⟩
  | resume call =>
      simp only [ha, bidOf] at hb
      obtain ⟨e, hc, hb⟩ := Option.bind_eq_some_iff.mp hb
      exact .inr ⟨by simp [Act.bid?, ha], List.mem_filterMap.mpr ⟨(call, e), mem_of_lookup hc, hb⟩⟩
  | shutDown | flush | enable | disable | worker => simp [ha, bidOf] at hb

/-- An offer that acts is put in front of the others. -/
theorem perm_of_bidOf (hr : Registered m.found) (hb : m.found.bidOf m.action = some b) :
    (b :: m.found.pending.filter (·.call != b.call)).Perm (m.found.pending ++ m.bid?.toList) := by
  rcases bidOf_cases hb with ⟨hbegun, hcall⟩ | ⟨hwaits, hmem⟩
  · rw [hcall, filter_pending hr.nextCall_notMem_pending, hbegun]
    exact (List.perm_append_singleton b _).symm
  · rw [hwaits]
    simpa using (perm_cons_filter hr.nodup_pending hmem).symm

/-! ## One act -/

/-- What an act adds to the counters. -/
structure Counted (m : Act) : Prop where
  offered : m.outcome.sink.offered = m.found.offered + m.reply?.toList.countP Reply.isAccepted
  rejected : m.outcome.sink.rejected = m.found.rejected + m.reply?.toList.countP Reply.isRejected
  dropped : m.outcome.sink.dropped = m.found.dropped + m.reply?.toList.countP Reply.isDropped +
    (discarded m.outcome.events).length
  /-- No offer ends when records are thrown away. -/
  apart : m.reply?.isSome = true → discarded m.outcome.events = []

/-- What an act does to the offers. -/
structure Entry (name : String) (m : Act) : Prop extends Counted m where
  told : replies m.outcome.events = m.reply?.toList.map fun w => (w.bid.call, w.result)
  taken : accepted m.outcome.events = m.reply?.toList.filterMap (·.record?)
  fair : ∀ w, m.reply? = some w → w.Fair name
  door : m.found.reach m.now m.action = .door → m.reply?.isSome = true
  once : (m.reply?.toList.map (·.bid) ++ m.outcome.sink.pending).Perm
    (m.found.pending ++ m.bid?.toList)
  items : m.outcome.sink.buffer.items = m.found.buffer.items ++ accepted m.outcome.events ∨
    m.outcome.sink.buffer.items = [] ∧ accepted m.outcome.events = []

/-- What is in the buffer is the last part of what was accepted. -/
theorem Entry.suffix (he : Entry name m) (hk : m.found.buffer.items <:+ accepted (seen h)) :
    m.outcome.sink.buffer.items <:+ accepted (seen (h ++ [m])) := by
  rw [seen_append_singleton, accepted_append]
  rcases he.items with hitems | ⟨hitems, -⟩
  · obtain ⟨gone, hgone⟩ := hk
    exact ⟨gone, by rw [hitems, ← List.append_assoc, hgone]⟩
  · rw [hitems]
    exact List.nil_suffix

theorem reply_eq_none (h : m.found.bidOf m.action = none ∨ replies m.outcome.events = []) :
    m.reply? = none := by
  rcases h with h | h <;> simp [Act.reply?, h]

theorem Reply.fair_of_refused {w : Reply} (hrecord : w.record? = none)
    (hshut : w.shut = s.buffer.isSealed)
    (hresult : w.result = refused name w.bid.mayDrop (s.refusal w.far)) : w.Fair name where
  accepted := by
    rw [hresult, hrecord, refused]
    split <;> simp
  content r hr := by simp [hrecord] at hr
  dropped h := (refused_eq_dropped.mp (hresult ▸ h)).2
  overloaded h := (refused_eq_overloaded.mp (hresult ▸ h)).2
  unavailable := by
    rw [hresult, refused_eq_unavailable, canDrop_refusal, hshut, hrecord]
    simp
  errors e he := by
    rw [hresult, refused] at he
    split at he
    · cases he
    · cases he
      exact ⟨_, rfl⟩

theorem Reply.fair_of_accepted {w : Reply} {r : Record} (hrecord : w.record? = some r)
    (hresult : w.result = .ok true) (hfar : w.far = .buffer) (hcontent : r.content = w.bid.content) :
    w.Fair name where
  accepted := by simp [hresult, hrecord]
  content r' hr := by
    obtain rfl := Option.some.inj (hrecord.symm.trans hr)
    exact hcontent
  dropped h := by simp [hresult] at h
  overloaded h := by simp [hresult] at h
  unavailable := by simp [hresult, hrecord, hfar]
  errors e he := by simp [hresult] at he

theorem Aside.same (h : Aside s s') : s'.calls = s.calls ∧ s'.buffer.items = s.buffer.items ∧
    s'.settings = s.settings ∧ s'.offered = s.offered ∧ s'.rejected = s.rejected ∧
      s'.dropped = s.dropped := by
  obtain ⟨_, _, _, _, _, _, rfl⟩ := h
  exact ⟨rfl, rfl, rfl, rfl, rfl, rfl⟩

/-- An act that answers an offer. -/
theorem entry_of_told {result : Except CallError Bool} (hr : Registered m.found)
    (hb : m.found.bidOf m.action = some b)
    (htold : replies m.outcome.events = [(b.call, result)])
    (htaken : accepted m.outcome.events = (m.reply b result).record?.toList)
    (hkept : discarded m.outcome.events = []) (hfair : (m.reply b result).Fair name)
    (hcalls : m.outcome.sink.calls = m.found.calls.filter (·.1 != b.call))
    (hitems : m.outcome.sink.buffer.items = m.found.buffer.items ++ accepted m.outcome.events)
    (hoffered : m.outcome.sink.offered =
      m.found.offered + [m.reply b result].countP Reply.isAccepted)
    (hrejected : m.outcome.sink.rejected =
      m.found.rejected + [m.reply b result].countP Reply.isRejected)
    (hdropped : m.outcome.sink.dropped =
      m.found.dropped + [m.reply b result].countP Reply.isDropped) : Entry name m := by
  have hreply : m.reply? = some (m.reply b result) := by simp [Act.reply?, hb, htold]
  refine {
    told := ?told, taken := ?taken, fair := ?fair, door := ?door, once := ?once, items := .inl hitems
    offered := ?offered, rejected := ?rejected, dropped := ?dropped, apart := fun _ => hkept }
  case told =>
    rw [hreply, htold]
    rfl
  case taken =>
    rw [hreply, htaken]
    cases hrecord : (m.reply b result).record? <;> simp [hrecord]
  case fair =>
    intro w hw
    obtain rfl := Option.some.inj (hreply.symm.trans hw)
    exact hfair
  case door => simp [hreply]
  case once =>
    rw [hreply, pending, hcalls, filterMap_bidIn_filter]
    exact perm_of_bidOf hr hb
  case offered | rejected =>
    rw [hreply]
    assumption
  case dropped =>
    rw [hreply, hkept]
    exact hdropped

/-- An offer is refused. -/
theorem refuse_entry (hr : Registered m.found) (hb : m.found.bidOf m.action = some b)
    (hs : Aside m.found s')
    (ho : m.outcome = s'.refuse b.call b.mayDrop (m.found.refusal (m.found.reach m.now m.action))) :
    Entry m.found.settings.name m := by
  obtain ⟨hcalls, hitems, hsettings, hoffered, hrejected, hdropped⟩ := hs.same
  rw [refuse_eq, hsettings] at ho
  generalize hwhy : m.found.refusal (m.found.reach m.now m.action) = why at ho
  have htaken : accepted m.outcome.events = [] := by rw [ho]; rfl
  have hrecord : (m.reply b (refused m.found.settings.name b.mayDrop why)).record? = none := by
    simp [Act.reply, htaken]
  have hfair : (m.reply b (refused m.found.settings.name b.mayDrop why)).Fair
      m.found.settings.name := Reply.fair_of_refused hrecord rfl (hwhy ▸ rfl)
  refine entry_of_told hr hb (by rw [ho]; rfl) (by rw [htaken, hrecord]; rfl) (by rw [ho]; rfl)
    hfair ?calls ?items ?offered ?rejected ?dropped
  case items =>
    rw [htaken, List.append_nil, ho, ← hitems]
    simp only [answer]
    split <;> rfl
  case calls =>
    rw [ho, ← hcalls]
    simp only [answer]
    split <;> rfl
  case offered | rejected | dropped =>
    rw [ho]
    cases hd : why.canDrop && b.mayDrop <;>
      simp [answer, refused, Act.reply, hd, Reply.isAccepted, Reply.isDropped, Reply.isRejected,
        hoffered, hrejected, hdropped]

/-- An offer is accepted. -/
theorem accept_entry {r : Record} (hr : Registered m.found)
    (hb : m.found.bidOf m.action = some b) (hs : Aside m.found s')
    (hfar : m.found.reach m.now m.action = .buffer) (hcontent : r.content = b.content)
    (ho : m.outcome = { s' with buffer := s'.buffer.push r }.accept b.call r) : Entry name m := by
  obtain ⟨hcalls, hitems, -, hoffered, hrejected, hdropped⟩ := hs.same
  have htaken : accepted m.outcome.events = [r] := by rw [ho]; rfl
  have hrecord : (m.reply b (.ok true)).record? = some r := by simp [Act.reply, htaken]
  have hfair : (m.reply b (.ok true)).Fair name := Reply.fair_of_accepted hrecord rfl hfar hcontent
  refine entry_of_told hr hb (by rw [ho]; rfl) (by rw [htaken, hrecord]; rfl) (by rw [ho]; rfl)
    hfair (by rw [ho, ← hcalls]; rfl) (by rw [htaken, ho, ← hitems]; rfl) ?offered ?rejected ?dropped
  case offered =>
    rw [ho]
    exact congrArg (· + 1) hoffered
  case rejected =>
    rw [ho]
    exact hrejected
  case dropped =>
    rw [ho]
    exact hdropped

/-- An offer waits. -/
theorem wait_entry {e : SinkErrand} (hr : Registered m.found)
    (hb : m.found.bidOf m.action = some b) (hs : Aside m.found s')
    (hfar : m.found.reach m.now m.action = .buffer) (he : e.offer? = some (b.content, b.mayDrop))
    (ho : m.outcome = s'.await b.call e) : Entry name m := by
  obtain ⟨hcalls, hitems, -, hoffered, hrejected, hdropped⟩ := hs.same
  have hquiet : m.outcome.events = [] := by rw [ho]; rfl
  have hreply : m.reply? = none := reply_eq_none (.inr (by rw [hquiet]; rfl))
  refine {
    told := ?told, taken := ?taken, fair := ?fair, door := ?door, once := ?once, items := ?items
    offered := ?offered, rejected := ?rejected, dropped := ?dropped, apart := ?apart }
  case told | taken =>
    rw [hreply, hquiet]
    rfl
  case fair | apart => simp [hreply]
  case door => simp [hfar]
  case items =>
    rw [hquiet, ho]
    exact .inl (hitems.trans (List.append_nil _).symm)
  case once =>
    have hbid : bidIn (b.call, e) = some b := by simp [bidIn, he]
    rw [hreply, ho, pending_await, hbid, pending, hcalls]
    exact (List.perm_append_singleton b _).trans (perm_of_bidOf hr hb)
  case offered | rejected =>
    rw [hreply, ho]
    assumption
  case dropped =>
    rw [hreply, hquiet, ho]
    exact hdropped

/-- An act in which no offer has a part. -/
theorem entry_of_silent (hb : m.found.bidOf m.action = none)
    (htold : replies m.outcome.events = []) (htaken : accepted m.outcome.events = [])
    (hpending : m.outcome.sink.pending = m.found.pending)
    (hitems : m.outcome.sink.buffer.items = m.found.buffer.items ∨ m.outcome.sink.buffer.items = [])
    (hoffered : m.outcome.sink.offered = m.found.offered)
    (hrejected : m.outcome.sink.rejected = m.found.rejected)
    (hdropped : m.outcome.sink.dropped = m.found.dropped + (discarded m.outcome.events).length) :
    Entry name m := by
  have hreply : m.reply? = none := reply_eq_none (.inl hb)
  have hbid : m.bid? = none := by
    cases ha : m.action <;> simp_all [bidOf, Act.bid?]
  have hreach : m.found.reach m.now m.action = .buffer := by
    cases ha : m.action <;> simp_all [bidOf, reach]
  refine {
    told := ?told, taken := ?taken, fair := ?fair, door := ?door, once := ?once, items := ?items
    offered := ?offered, rejected := ?rejected, dropped := ?dropped, apart := ?apart }
  case told =>
    rw [hreply, htold]
    rfl
  case taken =>
    rw [hreply, htaken]
    rfl
  case fair | apart => simp [hreply]
  case door => simp [hreach]
  case once =>
    rw [hreply, hbid, hpending]
    simp
  case items => simpa [htaken] using hitems
  case offered | rejected | dropped =>
    rw [hreply]
    assumption

/-- The flush worker leaves the offers alone, and counts what it throws away. -/
theorem Stride.leaves {w : FlushAction} (hs : Steady s) (h : Stride clock now s w o) :
    o.sink.calls = s.calls ∧ o.sink.offered = s.offered ∧ o.sink.rejected = s.rejected ∧
      o.sink.dropped = s.dropped + (discarded o.events).length ∧
      (o.sink.buffer.items = s.buffer.items ∨ o.sink.buffer.items = []) := by
  have hdrained := hs.unpolled.drain.2.1
  cases h with
  | rest | heed | quit | lose | loseLast => exact ⟨rfl, rfl, rfl, rfl, .inl rfl⟩
  | idle => exact ⟨rfl, rfl, rfl, rfl, .inr hdrained⟩
  | begin _ _ _ _ _ hes | beginLast _ _ hes =>
      exact ⟨rfl, rfl, rfl, by rw [discarded_of_dealing hes]; rfl, .inr hdrained⟩
  | take _ _ _ _ _ _ _ hes | deliver _ _ _ _ _ hes | giveUp _ _ _ _ _ _ _ hes
  | warned _ _ _ _ _ hes | close _ _ _ _ _ hes =>
      exact ⟨rfl, rfl, rfl, by rw [discarded_of_dealing hes]; rfl, .inl rfl⟩
  | strike _ _ _ _ _ _ _ hes =>
      refine ⟨rfl, rfl, rfl, ?_, .inl rfl⟩
      rw [discarded_append, discarded_of_dealing hes]
      rfl
  | deliverLast _ _ _ _ _ hes | giveUpLast _ _ _ _ _ _ hes =>
      exact ⟨rfl, rfl, rfl, by rw [(clearance hes _).2]; rfl, .inr rfl⟩
  | clearIdle =>
      refine ⟨rfl, rfl, rfl, ?_, .inr rfl⟩
      show s.dropped + (s.buffer.drain s.buffer.length).2.items.length = s.dropped + 0
      rw [hdrained]
      rfl
  | clearFatal =>
      refine ⟨rfl, rfl, rfl, ?_, .inr rfl⟩
      show s.dropped + s.buffer.items.length = _
      simp [discarded, SinkEvent.thrownAway]

theorem bidOf_resume {call : CallId} {e : SinkErrand} (hc : s.calls.lookup call = some e)
    (hb : s.bidOf (.resume call) = none) : e.offer? = none := by
  simpa [bidOf, hc] using hb

/-- A shutdown is no offer. -/
theorem dismissed_leaves (reason : String) :
    (s.dismissed reason).calls = s.calls ∧ (s.dismissed reason).offered = s.offered ∧
      (s.dismissed reason).rejected = s.rejected ∧ (s.dismissed reason).dropped = s.dropped ∧
      (s.dismissed reason).buffer.items = s.buffer.items := by
  obtain ⟨_, _, hitems, heq⟩ := s.dismissed_eq reason
  rw [heq]
  exact ⟨rfl, rfl, rfl, rfl, hitems⟩

theorem motion_entry (hs : Steady s) (hr : Registered s) (hb : s.bidOf a = none)
    (h : Motion clock now s a o) : Entry name ⟨⟨s, o⟩, now, a⟩ := by
  cases h with
  | offer content permitWait slotWait mayDrop o ho => cases hb
  | offerOn call e mayDrop o hc he ho =>
      have hno := bidOf_resume hc hb
      cases e with
      | awaitingPermit | awaitingSlot => cases hno
      | awaitingStop => cases he
  | shutDown reason =>
      obtain ⟨hcalls, hoffered, hrejected, hdropped, hitems⟩ := s.dismissed_leaves reason
      refine entry_of_silent hb rfl rfl ?_ (.inl hitems) hoffered hrejected hdropped
      rw [pending_answer, pending, hcalls]
      exact filter_pending hr.nextCall_notMem_pending
  | shutDownWaits reason deadline =>
      obtain ⟨hcalls, hoffered, hrejected, hdropped, hitems⟩ := s.dismissed_leaves reason
      refine entry_of_silent hb rfl rfl ?_ (.inl hitems) hoffered hrejected hdropped
      rw [pending_await, pending, hcalls]
      exact (List.append_nil _).trans (filter_pending hr.nextCall_notMem_pending)
  | stopSeen call initiated deadline hc =>
      refine entry_of_silent hb rfl rfl ?_ (.inl rfl) rfl rfl rfl
      rw [pending_answer]
      exact filter_pending fun hp => Bool.false_ne_true (hr.offer_of_pending hc hp)
  | flush | enable | disable => exact entry_of_silent hb rfl rfl rfl (.inl rfl) rfl rfl rfl
  | worker w o ho =>
      obtain ⟨hcalls, hoffered, hrejected, hdropped, hitems⟩ := ho.leaves hs
      exact entry_of_silent hb ho.replies_eq_nil ho.accepted_eq_nil
        (congrArg (List.filterMap bidIn) hcalls) hitems hoffered hrejected hdropped

/-- What an act does to the offers. -/
theorem step_entry (hs : Steady s) (hr : Registered s) (h : s.step clock now a = some o) :
    Entry s.settings.name ⟨⟨s, o⟩, now, a⟩ := by
  cases hb : s.bidOf a with
  | none => exact motion_entry hs hr hb (step_motion hs h)
  | some b =>
      have hoffer := step_reception hb h
      cases hoffer with
      | refuse s' haside hup => exact refuse_entry (m := ⟨⟨s, _⟩, now, a⟩) hr hb haside rfl
      | accept s' r haside hfar hopen hcontent =>
          exact accept_entry (m := ⟨⟨s, _⟩, now, a⟩) hr hb haside hfar hcontent rfl
      | wait s' e haside hfar he =>
          exact wait_entry (m := ⟨⟨s, _⟩, now, a⟩) hr hb haside hfar he rfl

/-! ## Names -/

/-- A name that was given to an offer is not given again. -/
theorem Motion.nextCall_le (h : Motion clock now s a o) :
    s.nextCall + (Act.bid? ⟨⟨s, o⟩, now, a⟩).toList.length ≤ o.sink.nextCall := by
  cases h with
  | offer content permitWait slotWait mayDrop o ho => exact ho.untouched.nextCall
  | offerOn call e mayDrop o hc he ho => exact ho.untouched.nextCall
  | shutDown reason | shutDownWaits reason deadline =>
      exact Nat.le_of_lt (Nat.lt_of_lt_of_eq (Nat.lt_succ_self _)
        (Registered.nextCall_dismissed reason).symm)
  | stopSeen | flush | enable | disable => exact Nat.le_refl _
  | worker w o ho => cases ho <;> exact Nat.le_refl _

theorem call_of_bid {b : Bid} (hb : m.bid? = some b) : b.call = m.found.nextCall := by
  simp only [Act.bid?] at hb
  split at hb
  · cases hb
    rfl
  · cases hb

theorem bids_append_singleton (m : Act) : bids (h ++ [m]) = bids h ++ m.bid?.toList :=
  filterMap_append_singleton _ h m

theorem answers_append_singleton (m : Act) : answers (h ++ [m]) = answers h ++ m.reply?.toList :=
  filterMap_append_singleton _ h m

/-- The offers that began have names of their own. -/
theorem History.distinct_bids (hist : History settings t₀ h t s) :
    ((bids h).map (·.call)).Nodup ∧ ∀ c ∈ (bids h).map (·.call), c < s.nextCall := by
  induction hist with
  | here => exact ⟨List.nodup_nil, fun c hc => absurd hc List.not_mem_nil⟩
  | pass hist hle ih => exact ih
  | @act h t s a clock o hist hs ih =>
      obtain ⟨hdistinct, hknown⟩ := ih
      have hnext := (step_motion hist.steady hs).nextCall_le
      rw [bids_append_singleton]
      cases hb : Act.bid? ⟨⟨s, o⟩, t, a⟩ with
      | none =>
          rw [hb] at hnext
          simp only [Option.toList_none, List.append_nil]
          exact ⟨hdistinct, fun c hc => Nat.lt_of_lt_of_le (hknown c hc) hnext⟩
      | some b =>
          have hcall : b.call = s.nextCall := call_of_bid hb
          rw [hb] at hnext
          simp only [Option.toList_some, List.map_append, List.map_cons, List.map_nil]
          refine ⟨hdistinct.append (List.nodup_singleton _) ?_, ?_⟩
          · intro c hc hcb
            rw [List.mem_singleton.mp hcb, hcall] at hc
            exact Nat.lt_irrefl _ (hknown _ hc)
          · intro c hc
            rcases List.mem_append.mp hc with hc | hc
            · exact Nat.lt_of_lt_of_le (hknown c hc) (Nat.le_trans (Nat.le_add_right _ _) hnext)
            · rw [List.mem_singleton.mp hc, hcall]
              exact hnext

/-! ## A whole history -/

/-- What offers were answered, what they left behind, and what the counters say. -/
structure Tally (name : String) (h : List Act) (s : Sink) : Prop where
  /-- Whoever is answered has made an offer. -/
  told : replies (seen h) = (answers h).map fun w => (w.bid.call, w.result)
  /-- Every offer was answered once or still waits. -/
  once : ((answers h).map (·.bid) ++ s.pending).Perm (bids h)
  fair : ∀ w ∈ answers h, w.Fair name
  /-- What came into the buffer came from the offers, and what is in it is the last part of that. -/
  taken : accepted (seen h) = (answers h).filterMap (·.record?)
  kept : s.buffer.items <:+ accepted (seen h)
  offered : s.offered = (answers h).countP Reply.isAccepted
  rejected : s.rejected = (answers h).countP Reply.isRejected
  dropped : s.dropped = (answers h).countP Reply.isDropped + (discarded (seen h)).length

/-- What an act does is added to the tally. -/
theorem Tally.enter (ht : Tally name h s) (he : Entry name ⟨⟨s, o⟩, t, a⟩) :
    Tally name (h ++ [⟨⟨s, o⟩, t, a⟩]) o.sink where
  told := by
    rw [seen_append_singleton, answers_append_singleton, List.map_append, ← ht.told, ← he.told]
    exact List.filterMap_append
  taken := by
    rw [seen_append_singleton, answers_append_singleton, List.filterMap_append, accepted_append,
      ← ht.taken, ← he.taken]
  once := by
    rw [answers_append_singleton, bids_append_singleton, List.map_append, List.append_assoc]
    refine (he.once.append_left _).trans ?_
    rw [← List.append_assoc]
    exact ht.once.append_right _
  fair w hw := by
    rw [answers_append_singleton, List.mem_append, Option.mem_toList] at hw
    exact hw.elim (ht.fair w) (he.fair w)
  kept := he.suffix ht.kept
  offered := by
    rw [answers_append_singleton, List.countP_append, ← ht.offered]
    exact he.offered
  rejected := by
    rw [answers_append_singleton, List.countP_append, ← ht.rejected]
    exact he.rejected
  dropped := by
    rw [answers_append_singleton, List.countP_append, seen_append_singleton, discarded_append,
      List.length_append, he.dropped]
    have hbefore := ht.dropped
    simp only
    omega

theorem History.tally (hist : History settings t₀ h t s) : Tally settings.name h s := by
  induction hist with
  | here =>
      exact ⟨rfl, .refl _, fun w hw => absurd hw List.not_mem_nil, rfl, List.suffix_refl _, rfl, rfl,
        rfl⟩
  | pass hist hle ih => exact ih
  | act hist hs ih =>
      have hentry := step_entry hist.steady hist.registered hs
      rw [hist.settings_eq] at hentry
      exact ih.enter hentry

/-- Every offer is accounted for by its answer. -/
structure Answered (name : String) (h : List Act) (s : Sink) : Prop extends Tally name h s where
  /-- The offers have names of their own. -/
  distinct : ((bids h).map (·.call)).Nodup
  /-- An answer counts in one counter, and no counter changes but by an answer or because
  records are thrown away. -/
  each : ∀ m ∈ h, Counted m
  /-- An offer that begins while the sink is down or switched off is answered at once. -/
  door : ∀ m ∈ h, ∀ content permitWait slotWait mayDrop,
    m.action = .offer content permitWait slotWait mayDrop →
      m.found.isDown = true ∨ m.found.switch.enabled = false →
        ∃ w text, m.reply? = some w ∧ w.result = .error (.unavailable text)
  total : (replies (seen h)).length = s.offered + s.rejected + s.dropped -
    (discarded (seen h)).length

theorem reach_eq_door {content : Option Json.Value} {permitWait slotWait : Duration}
    {mayDrop : Bool} (ha : a = .offer content permitWait slotWait mayDrop)
    (hs : s.isDown = true ∨ s.switch.enabled = false) : s.reach now a = .door := by
  rcases hs with hs | hs <;> simp [ha, reach, hs]

/-- Along every history every offer is accounted for by its answer. -/
theorem History.offers_answered (hist : History settings t₀ h t s) : Answered settings.name h s := by
  have htally := hist.tally
  have hentry : ∀ m ∈ h, Entry settings.name m := hist.each fun hist' hs => by
    have hnow := step_entry hist'.steady hist'.registered hs
    rwa [hist'.settings_eq] at hnow
  refine { htally with
    distinct := hist.distinct_bids.1
    each := fun m hm => (hentry m hm).toCounted
    door := ?door
    total := ?total }
  case door =>
    intro m hm content permitWait slotWait mayDrop ha hs
    have hdoor : m.found.reach m.now m.action = .door := reach_eq_door ha hs
    obtain ⟨w, hw⟩ := Option.isSome_iff_exists.mp ((hentry m hm).door hdoor)
    have hfar : w.far = .door := by
      obtain ⟨_, -, hw'⟩ := Option.bind_eq_some_iff.mp hw
      obtain ⟨_, -, rfl⟩ := Option.map_eq_some_iff.mp hw'
      exact hdoor
    obtain ⟨text, hresult⟩ := ((hentry m hm).fair w hw).unavailable.mpr (.inl hfar)
    exact ⟨w, text, hw, hresult⟩
  case total =>
    have hsum := Reply.length_eq (answers h)
    have hoffered := htally.offered
    have hrejected := htally.rejected
    have hdropped := htally.dropped
    rw [htally.told, List.length_map]
    omega

/-- Nine calls overlap, with one place in the buffer and four permits.  One shuts the sink down, and
the others are offers that are let in at once or later, or come to nothing in each of the ways there
are.  Then a batch fails, and what is in the buffer is thrown away. -/
def beset : List (Instant × Action) :=
  [(0, .offer (some (.text "a")) 0 0 false), (0, .offer (some (.text "b")) 0 9 true),
    (0, .offer (some (.text "c")) 0 0 true), (0, .offer (some (.text "d")) 0 0 false),
    (0, .offer (some (.text "e")) 0 0 false), (0, .offer (some (.text "f")) 500000000 0 true),
    (0, .disable), (0, .offer (some (.text "g")) 0 0 true), (0, .flush), (0, .worker .turn),
    (0, .worker .notice), (0, .resume 1), (0, .enable), (500000000, .shutDown "deploy"),
    (500000000, .resume 5), (500000000, .offer none 0 0 false),
    (500000000, .worker (.reply (.failed .closed))), (500000000, .worker .leave)]

theorem answered_of_beset : ∃ h t s,
    enact (note ⟨0⟩) 0 (ofSettings { capacity := 1, permitsPerSecond := 4 } 0) beset =
        some (h, t, s) ∧
      Answered "telemetry" h s ∧
      (answers h).map (fun w => (w.bid.call, w.far)) = [(0, .buffer), (2, .buffer), (3, .buffer),
        (4, .limiter), (6, .door), (1, .buffer), (5, .buffer), (8, .door)] ∧
      s.offered = 2 ∧ s.rejected = 5 ∧ s.dropped = 2 ∧ (discarded (seen h)).length = 1 := by
  have hplay : (enact (note ⟨0⟩) 0 (ofSettings { capacity := 1, permitsPerSecond := 4 } 0)
      beset).map (fun w => ((answers w.1).map (fun w => (w.bid.call, w.far)), w.2.2.offered,
        w.2.2.rejected, w.2.2.dropped, (discarded (seen w.1)).length)) =
      some ([(0, .buffer), (2, .buffer), (3, .buffer), (4, .limiter), (6, .door), (1, .buffer),
        (5, .buffer), (8, .door)], 2, 5, 2, 1) := by
    decide +kernel
  obtain ⟨⟨h, t, s⟩, hp, hread⟩ := Option.map_eq_some_iff.mp hplay
  simp only [Prod.mk.injEq] at hread
  have hist := History.here.enact hp
  exact ⟨h, t, s, hp, hist.offers_answered, hread⟩

end Sink

end Backpressure
