import Backpressure.CallError
import Backpressure.Rate.TokenBucket

/-!
# The calls that ask for permits

A call that has to wait reserves its permit and sleeps until the permit is there; many may
sleep side by side.  No call that sleeps touches the bucket again, so all that is kept of it
is its name and the moment at which it wakes.

Somebody may also look at the permits at hand, which takes none but refills the bucket.
-/

namespace Backpressure.Rate

/-- A call that sleeps until its permit is there. -/
structure Reservation (τ : Type) where
  /-- The name of the call. -/
  call : CallId
  /-- The moment at which it wakes. -/
  ready : τ
  deriving DecidableEq, Repr

/-- What can be seen of the calls. -/
inductive PermitEvent (τ : Type) where
  /-- A call has reserved a permit, and wakes at a moment. -/
  | promised (call : CallId) (ready : τ)
  /-- A call ends, with a permit or without one. -/
  | answered (call : CallId) (taken : Bool)
  deriving DecidableEq, Repr

/-- A bucket with the calls that ask it for permits. -/
structure Requests (α τ : Type) where
  bucket : TokenBucket α τ
  /-- The calls that sleep, in the order in which they reserved. -/
  pending : List (Reservation τ) := []
  /-- The name of the next call. -/
  nextCall : CallId := 0

/-- A bucket with its calls after something, with what could be seen. -/
structure RequestsOutcome (α τ : Type) where
  /-- What could be seen. -/
  events : List (PermitEvent τ) := []
  /-- The bucket with its calls. -/
  requests : Requests α τ

namespace Requests

/-- What happens to a bucket and its calls. -/
inductive Action (τ : Type) where
  /-- Somebody asks for a permit at once. -/
  | tryAcquire
  /-- Somebody asks for a permit, and would wait for it. -/
  | acquire (wait : τ)
  /-- A call that sleeps wakes. -/
  | resume (call : CallId)
  /-- Somebody looks at the permits at hand. -/
  | look
  deriving DecidableEq, Repr

variable {α τ : Type}

/-- A full bucket, and no calls. -/
def ofRate (A : Arithmetic α τ) (permitsPerSecond : Nat) (start : τ) : Requests α τ :=
  { bucket := .full A permitsPerSecond start }

/-- A call after it has asked: it ends, or it goes to sleep. -/
def ask (A : Arithmetic α τ) (permit : Permit τ) (bucket : TokenBucket α τ)
    (r : Requests α τ) : RequestsOutcome α τ :=
  let call := r.nextCall
  let r := { r with bucket, nextCall := call + 1 }
  match permit with
  | .now => { events := [.answered call true], requests := r }
  | .refused => { events := [.answered call false], requests := r }
  | .later ready =>
    let ready := A.wakes ready
    { events := [.promised call ready]
      requests := { r with pending := r.pending ++ [⟨call, ready⟩] } }

/-- A call that sleeps wakes, if its moment has come. -/
def resume (A : Arithmetic α τ) (now : τ) (call : CallId) (r : Requests α τ) :
    Option (RequestsOutcome α τ) :=
  match r.pending.find? (·.call == call) with
  | none => none
  | some q =>
    if A.longer q.ready now then none
    else
      some {
        events := [.answered call true]
        requests := { r with pending := r.pending.filter (·.call != call) } }

/-- One action at a moment. -/
def step (A : Arithmetic α τ) (now : τ) (r : Requests α τ) :
    Action τ → Option (RequestsOutcome α τ)
  | .tryAcquire =>
    let (taken, bucket) := r.bucket.tryAcquire A now
    some (r.ask A (if taken then .now else .refused) bucket)
  | .acquire wait =>
    let (permit, bucket) := r.bucket.acquire A now wait
    some (r.ask A permit bucket)
  | .resume call => r.resume A now call
  | .look => some { requests := { r with bucket := r.bucket.refill A now } }

/-- A call whose moment has come, if there is one. -/
def due? (A : Arithmetic α τ) (now : τ) (r : Requests α τ) : Option CallId :=
  (r.pending.find? fun q => !A.longer q.ready now).map (·.call)

end Requests

end Backpressure.Rate
