import Backpressure.Proofs.Queue.Stock
import Backpressure.Sink.Machine

/-!
# What an offer comes to

An offer acts when it begins, when its permit is delivered, and when it runs while it waits for
a place.  Each time it is let in, refused, or made to wait, and it changes nothing else but the
stock of permits and places.  `step_reception` says which of the three, from how far the offer
gets (`Reach`).

*How far.*  An offer that begins while the sink is down or switched off gets no further than the
door, and one that finds no permit no further than the limiter.  Any other asks for a place, at
once or later, and a permit that was promised is never taken back.
-/

namespace Backpressure

open Telemetry (Record)

/-- What a call that waits offers, and whether that may be dropped. -/
def SinkErrand.offer? : SinkErrand → Option (Option Json.Value × Bool)
  | .awaitingPermit content _ _ mayDrop => some (content, mayDrop)
  | .awaitingSlot record _ _ mayDrop => some (record.content, mayDrop)
  | .awaitingStop _ _ => none

namespace Sink

variable {clock : WallClock} {now : Instant} {s s' s'' : Sink} {a : Action} {o : SinkOutcome}
  {r : Record}

/-! ## What offers change -/

/-- A sink that differs in names, permits and places for offers only. -/
def Aside (s s' : Sink) : Prop :=
  ∃ (call : CallId) (limiter : Rate.Limiter) (ticket : Ticket) (slots : Permits),
    s.nextCall ≤ call ∧ slots.closed = s.buffer.slots.closed ∧
      s' = { s with
        nextCall := call, limiter, nextTicket := ticket, buffer := { s.buffer with slots } }

theorem Aside.refl (s : Sink) : Aside s s :=
  ⟨s.nextCall, s.limiter, s.nextTicket, s.buffer.slots, Nat.le_refl _, rfl, rfl⟩

theorem Aside.named (s : Sink) : Aside s s.named :=
  ⟨s.nextCall + 1, s.limiter, s.nextTicket, s.buffer.slots, Nat.le_succ _, rfl, rfl⟩

theorem Aside.limiter (s : Sink) (limiter : Rate.Limiter) : Aside s { s with limiter } :=
  ⟨s.nextCall, limiter, s.nextTicket, s.buffer.slots, Nat.le_refl _, rfl, rfl⟩

/-- Who stands in line for a slot changes nothing that an offer looks at. -/
theorem Aside.slots {slots : Permits} (hc : slots.closed = s.buffer.slots.closed) :
    Aside s { s with buffer := { s.buffer with slots } } :=
  ⟨s.nextCall, s.limiter, s.nextTicket, slots, Nat.le_refl _, hc, rfl⟩

theorem Aside.trans (h : Aside s s') (h' : Aside s' s'') : Aside s s'' := by
  obtain ⟨call, limiter, ticket, slots, hcall, hc, rfl⟩ := h
  obtain ⟨call', limiter', ticket', slots', hcall', hc', rfl⟩ := h'
  exact ⟨call', limiter', ticket', slots', Nat.le_trans hcall hcall', hc'.trans hc, rfl⟩

theorem Aside.isDown_eq (h : Aside s s') : s'.isDown = s.isDown := by
  obtain ⟨_, _, _, _, _, _, rfl⟩ := h
  rfl

theorem Aside.isSealed_eq (h : Aside s s') : s'.buffer.isSealed = s.buffer.isSealed := by
  obtain ⟨_, _, _, slots, _, hc, rfl⟩ := h
  exact hc

/-! ## Offers -/

/-- An offer: the call that makes it, what it offers, and whether that may be dropped. -/
structure Bid where
  call : CallId
  content : Option Json.Value
  mayDrop : Bool

/-- The offer that goes on by an action. -/
def bidOf (s : Sink) : Action → Option Bid
  | .offer content _ _ mayDrop => some ⟨s.nextCall, content, mayDrop⟩
  | .resume call =>
    (s.calls.lookup call).bind fun e =>
      e.offer?.map fun (content, mayDrop) => ⟨call, content, mayDrop⟩
  | _ => none

/-- How far an offer gets. -/
inductive Reach where
  /-- It begins while the sink is down or switched off. -/
  | door
  /-- It gets no permit. -/
  | limiter
  /-- It has a permit, or is promised one, and asks for a place. -/
  | buffer
  deriving DecidableEq

/-- How far an offer gets by an action. -/
def reach (now : Instant) (s : Sink) : Action → Reach
  | .offer _ permitWait _ _ =>
    if s.isDown || !s.switch.enabled then .door
    else if (s.limiter.acquire .doubles now permitWait).1 = .refused then .limiter
    else .buffer
  | _ => .buffer

/-- Why an offer is refused that gets so far. -/
def refusal (s : Sink) : Reach → OfferRefusal
  | .door => if s.isDown then .shutDown else .disabled
  | .limiter => .noPermit
  | .buffer => if s.buffer.isSealed then .shutDown else .noSlot

/-- What an offer comes to that gets so far. -/
inductive Reception (s : Sink) (b : Bid) (far : Reach) : SinkOutcome → Prop where
  | refuse (s' : Sink) (hs : Aside s s') (hup : far = .limiter → s.isDown = false) :
      Reception s b far (s'.refuse b.call b.mayDrop (s.refusal far))
  | accept (s' : Sink) (r : Record) (hs : Aside s s') (hfar : far = .buffer)
      (hopen : s.buffer.isSealed = false) (hr : r.content = b.content) :
      Reception s b far ({ s' with buffer := s'.buffer.push r }.accept b.call r)
  | wait (s' : Sink) (e : SinkErrand) (hs : Aside s s') (hfar : far = .buffer)
      (he : e.offer? = some (b.content, b.mayDrop)) :
      Reception s b far (s'.await b.call e)

variable {b : Bid} {far : Reach}

/-- What an offer is refused for depends on the sink being down, switched off or sealed, and on
nothing else. -/
theorem Aside.refusal_eq (h : Aside s s') (far : Reach) : s'.refusal far = s.refusal far := by
  cases far <;> simp [refusal, h.isDown_eq, h.isSealed_eq]

/-- A reception may be told from before a step aside. -/
theorem Reception.aside (h : Aside s s') (hb : Reception s' b far o) : Reception s b far o := by
  cases hb with
  | refuse s'' hs hup =>
      rw [h.refusal_eq]
      exact .refuse s'' (h.trans hs) fun hfar => h.isDown_eq ▸ hup hfar
  | accept s'' r hs hfar hopen hr =>
      exact .accept s'' r (h.trans hs) hfar (h.isSealed_eq ▸ hopen) hr
  | wait s'' e hs hfar he => exact .wait s'' e (h.trans hs) hfar he

/-! ## At the buffer -/

/-- The buffer did not take the record. -/
theorem turnBack_reception {slots : Permits} (hc : slots.closed = s.buffer.slots.closed) :
    Reception s b .buffer
      ({ s with buffer := { s.buffer with slots } }.turnBack b.call b.mayDrop) := by
  have hsame : ({ s.buffer with slots } : Queue Record).isSealed = s.buffer.isSealed := hc
  rw [turnBack, hsame]
  exact .refuse _ (Aside.slots hc) nofun

/-- With a slot in hand the record enters the buffer. -/
theorem take_reception {slots : Permits} (hopen : s.buffer.slots.closed = false)
    (hc : slots.closed = s.buffer.slots.closed) (hr : r.content = b.content) :
    Reception s b .buffer
      ({ s with buffer := { s.buffer with slots }.push r }.accept b.call r) :=
  .accept { s with buffer := { s.buffer with slots } } r (Aside.slots hc) rfl hopen hr

theorem tryTake_reception {slots : Permits} (htake : s.buffer.slots.tryTake = some slots)
    (hr : r.content = b.content) :
    Reception s b .buffer
      ({ s with buffer := { s.buffer with slots }.push r }.accept b.call r) :=
  take_reception (Permits.tryTake_eq_some.mp htake).1 (Permits.closed_of_tryTake htake) hr

/-- An offer with its permit gets to the buffer: it is taken in, turned back, or waits there. -/
theorem enterBuffer_reception {wait : Duration} :
    Reception s b .buffer (s.enterBuffer clock now b.call b.content wait b.mayDrop) := by
  simp only [enterBuffer]
  split
  · split
    · next buffer htry =>
        obtain ⟨slots, htake, rfl⟩ := Queue.tryOffer_eq_true htry
        exact tryTake_reception htake rfl
    · next buffer htry =>
        rw [Queue.tryOffer_eq_false htry]
        exact turnBack_reception rfl
  · split
    · next buffer hoffer =>
        obtain ⟨slots, htake, rfl⟩ := Queue.tryOffer_eq_true (Queue.offer_eq_accepted hoffer)
        exact tryTake_reception htake rfl
    · next buffer hoffer =>
        rw [Queue.offer_eq_returned hoffer]
        exact turnBack_reception rfl
    · next buffer hoffer =>
        rw [Queue.offer_eq_waiting hoffer]
        refine .wait _ _ ⟨s.nextCall, s.limiter, s.nextTicket + 1, _, Nat.le_refl _, ?_, rfl⟩ rfl rfl
        exact Permits.closed_enroll

theorem resumeOffer_reception {ticket : Ticket} {deadline : Instant}
    (hr : r.content = b.content)
    (h : s.resumeOffer now b.call r ticket deadline b.mayDrop = some o) :
    Reception s b .buffer o := by
  simp only [resumeOffer] at h
  split at h
  · next buffer hresume =>
      cases h
      obtain ⟨hopen, -, rfl⟩ := Queue.resumeOffer_eq_accepted hresume
      exact take_reception hopen rfl hr
  · next buffer hresume =>
      cases h
      obtain ⟨-, rfl⟩ := Queue.resumeOffer_eq_returned hresume
      exact turnBack_reception Permits.closed_leave
  · next buffer hresume =>
      split at h
      · cases h
      · cases h
        rw [Queue.resumeOffer_eq_waiting hresume]
        exact turnBack_reception Permits.closed_leave

/-! ## All offers -/

/-- An offer that begins is refused at the door, at the limiter or at the buffer, or waits at one of
the last two. -/
theorem beginOffer_reception {permitWait slotWait : Duration} :
    Reception s b (s.reach now (.offer b.content permitWait slotWait b.mayDrop))
      (s.beginOffer clock now b.call b.content permitWait slotWait b.mayDrop) := by
  simp only [beginOffer, reach]
  have hrefused : Reception s b .door (s.refuse b.call b.mayDrop (s.refusal .door)) :=
    .refuse s (.refl s) nofun
  cases hdown : s.isDown with
  | true => simpa [refusal, hdown] using hrefused
  | false =>
      cases hoff : s.switch.enabled with
      | false => simpa [refusal, hdown] using hrefused
      | true =>
          simp only [Bool.not_true, Bool.or_false, Bool.false_eq_true, if_false]
          obtain ⟨permit, limiter⟩ := s.limiter.acquire .doubles now permitWait
          have hbuffer : ∀ {o}, Reception { s with limiter } b .buffer o → Reception s b .buffer o :=
            .aside (.limiter s limiter)
          cases permit with
          | refused => exact .refuse { s with limiter } (.limiter s limiter) fun _ => hdown
          | now => exact hbuffer enterBuffer_reception
          | later ready =>
              simp only [reduceCtorEq, if_false]
              split
              · exact hbuffer enterBuffer_reception
              · exact .wait _ _ (.limiter s limiter) rfl rfl

/-- What an offer comes to when it acts. -/
theorem step_reception (hb : s.bidOf a = some b) (h : s.step clock now a = some o) :
    Reception s b (s.reach now a) o := by
  cases a with
  | offer content permitWait slotWait mayDrop =>
      cases hb
      cases h
      exact .aside (.named s) (beginOffer_reception (s := s.named)
        (b := ⟨s.nextCall, content, mayDrop⟩))
  | resume call =>
      simp only [bidOf] at hb
      obtain ⟨e, hc, hb⟩ := Option.bind_eq_some_iff.mp hb
      obtain ⟨⟨content, mayDrop⟩, he, rfl⟩ := Option.map_eq_some_iff.mp hb
      simp only [step, resume, hc] at h
      cases e with
      | awaitingPermit content' ready wait mayDrop' =>
          cases he
          simp only at h
          split at h
          · cases h
          · cases h
            exact enterBuffer_reception (b := ⟨call, content, mayDrop⟩)
      | awaitingSlot record ticket deadline mayDrop' =>
          cases he
          exact resumeOffer_reception (b := ⟨call, record.content, mayDrop⟩) rfl h
      | awaitingStop initiated deadline => cases he
  | shutDown | flush | enable | disable | worker => cases hb

end Sink

end Backpressure
