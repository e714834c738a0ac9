import Backpressure.Time.Timer

/-!
# Permits from a token bucket

A bucket gains `rate` tokens per second up to `rate` of them, and starts full.  A
permit costs one token.  Who finds less than a token may wait for it: the token is
taken at once, so the bucket may owe tokens, and the permit is delivered when the
refill has made up for it.  A wait that would be too long is refused at once and
costs nothing.

The rule needs only a few operations on tokens and moments, so it is stated for
any arithmetic that has them.  `Arithmetic.doubles` is the one in use: tokens are
double-precision reals, a delay is rounded to whole nanoseconds, and a sleep ends
on a whole millisecond.
-/

namespace Backpressure.Rate

/-- Operations on tokens `α` and moments `τ`; lengths of time are moments too. -/
structure Arithmetic (α τ : Type) where
  /-- A whole number of tokens. -/
  ofNat : Nat → α
  /-- The tokens after one more was taken. -/
  takeOne : α → α
  /-- Whether there is at least one token. -/
  hasOne : α → Bool
  /-- The tokens after a refill: those at hand, the rate, the burst, the moment of
  the last refill and the present one. -/
  refill : α → α → α → τ → τ → α
  /-- How long it takes, with these tokens at this rate, until there is one. -/
  delay : α → α → τ
  /-- The moment some time later. -/
  later : τ → τ → τ
  /-- Whether a wait lasts no time. -/
  isZero : τ → Bool
  /-- Whether one length of time is longer than another. -/
  longer : τ → τ → Bool
  /-- The moment at which a sleep until a moment ends. -/
  wakes : τ → τ

/-- Tokens in double precision, time in whole nanoseconds. -/
def Arithmetic.doubles : Arithmetic Float Duration where
  ofNat := Float.ofNat
  takeOne := fun tokens => tokens - 1.0
  hasOne := fun tokens => tokens ≥ 1.0
  refill := fun tokens rate burst last now =>
    let sum := tokens + Duration.seconds (now - last) * rate
    if burst < sum then burst else sum
  delay := fun tokens rate => (Duration.ofSeconds? ((1.0 - tokens) / rate)).getD 0
  later := fun now d => now + d
  isZero := fun d => d == 0
  longer := fun d limit => limit < d
  wakes := Instant.ceilMilli

/-- A token bucket. -/
structure TokenBucket (α τ : Type) where
  permitsPerSecond : Nat
  /-- The tokens at hand; below zero when tokens are owed. -/
  tokens : α
  /-- The moment of the last refill. -/
  refilledAt : τ
  deriving Inhabited, Repr

/-- What a request for a permit comes to. -/
inductive Permit (τ : Type) where
  /-- The permit is delivered at once. -/
  | now
  /-- The permit is delivered later, at this moment. -/
  | later (ready : τ)
  /-- There is no permit. -/
  | refused
  deriving DecidableEq, Repr

namespace TokenBucket

variable {α τ : Type}

/-- A full bucket. -/
def full (A : Arithmetic α τ) (permitsPerSecond : Nat) (start : τ) : TokenBucket α τ :=
  { permitsPerSecond, tokens := A.ofNat permitsPerSecond, refilledAt := start }

/-- The bucket with what has flowed in since the last refill. -/
def refill (A : Arithmetic α τ) (b : TokenBucket α τ) (now : τ) : TokenBucket α τ :=
  let rate := A.ofNat b.permitsPerSecond
  { b with tokens := A.refill b.tokens rate rate b.refilledAt now, refilledAt := now }

/-- The bucket with one token less. -/
def takeOne (A : Arithmetic α τ) (b : TokenBucket α τ) : TokenBucket α τ :=
  { b with tokens := A.takeOne b.tokens }

/-- Takes a permit if there is one at once. -/
def tryAcquire (A : Arithmetic α τ) (b : TokenBucket α τ) (now : τ) : Bool × TokenBucket α τ :=
  let b := b.refill A now
  if A.hasOne b.tokens then (true, b.takeOne A) else (false, b)

/-- Takes a permit that is delivered within `wait`; a bucket that never fills has none later. -/
def acquire (A : Arithmetic α τ) (b : TokenBucket α τ) (now wait : τ) :
    Permit τ × TokenBucket α τ :=
  if A.isZero wait || b.permitsPerSecond == 0 then
    let (taken, b) := b.tryAcquire A now
    (if taken then .now else .refused, b)
  else
    let b := b.refill A now
    if A.hasOne b.tokens then (.now, b.takeOne A)
    else
      let delay := A.delay b.tokens (A.ofNat b.permitsPerSecond)
      if A.longer delay wait then (.refused, b)
      else (.later (A.later now delay), b.takeOne A)

end TokenBucket

/-- A token bucket in double precision. -/
abbrev Limiter := TokenBucket Float Duration

namespace Limiter

/-- A full limiter. -/
def ofRate (permitsPerSecond : Nat) (start : Instant) : Limiter :=
  TokenBucket.full .doubles permitsPerSecond start

/-- The whole permits at hand, with the refill that looking at them causes. -/
def available (b : Limiter) (now : Instant) : Nat × Limiter :=
  let b := b.refill .doubles now
  ((if b.tokens > 0.0 then b.tokens.toUInt32.toNat else 0), b)

end Limiter

end Backpressure.Rate
