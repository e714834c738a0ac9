import Backpressure.Time.Timestamp

/-!
# Events per second over a window

A counter has one bucket for each second of its window.  The bucket of a second is
the one at the second modulo the window length, so seconds that lie a whole number
of windows apart share a bucket, and the later one takes it over.

A bucket is one 64-bit word: the stamp, which is the second modulo `2 ^ 32`, in
the high half and the count in the low half.  A bucket whose stamp is another
second holds nothing for this one.

*Adding.*  An event for a second whose bucket has a larger stamp is dropped.  An
event that finds as many events as its cap, which is at most `2 ^ 32 - 1`, is
refused, so the count never runs over into the stamp.
-/

namespace Backpressure.Rate

/-- The number of values of half a word. -/
def halfWord : Nat := Nat.pow 2 32

/-- The largest count of a bucket. -/
def largestCount : Nat := halfWord - 1

/-- A bucket with a stamp and a count. -/
def pack (stamp count : Nat) : Nat := stamp * halfWord + count

/-- The stamp of a bucket. -/
def stampOf (word : Nat) : Nat := word / halfWord

/-- The count of a bucket. -/
def countOf (word : Nat) : Nat := word % halfWord

theorem stampOf_pack {stamp count : Nat} (h : count < halfWord) : stampOf (pack stamp count) = stamp := by
  simp only [stampOf, pack, halfWord, Nat.pow_eq] at *
  omega

theorem countOf_pack {stamp count : Nat} (h : count < halfWord) : countOf (pack stamp count) = count := by
  simp only [countOf, pack, halfWord, Nat.pow_eq] at *
  omega

/-- What adding an event comes to. -/
inductive Added where
  /-- The event is counted; this is the count of its second now. -/
  | counted (n : Nat)
  /-- The event is not counted; this is the count that stood in its way, or zero
  when the bucket belongs to a later second. -/
  | refused (n : Nat)
  deriving DecidableEq, Repr

/-- The count after an event that was counted. -/
def Added.count? : Added → Option Nat
  | .counted n => some n
  | .refused _ => none

/-- What a bucket becomes by an event with a stamp and a cap. -/
def addTo (word stamp cap : Nat) : Added × Nat :=
  if stamp < stampOf word then (.refused 0, word)
  else
    let count := if stampOf word = stamp then countOf word else 0
    if cap ≤ count then (.refused count, word)
    else (.counted (count + 1), pack stamp (count + 1))

/-- Counts of the seconds of a window. -/
structure Counter where
  /-- One word for each second of the window. -/
  buckets : Array Nat
  deriving Inhabited, Repr

/-- The counts of consecutive seconds. -/
structure WindowStats where
  /-- The counts, oldest first. -/
  counts : List Nat
  /-- Their sum. -/
  total : Nat
  /-- The newest of the seconds. -/
  endingAt : Nat
  deriving DecidableEq, Repr

/-- The events per second on average. -/
def WindowStats.mean (w : WindowStats) : Float :=
  if w.counts.isEmpty then 0.0 else Float.ofNat w.total / Float.ofNat w.counts.length

/-- The largest count. -/
def WindowStats.peak (w : WindowStats) : Nat := w.counts.foldl max 0

namespace Counter

/-- An empty counter over a window of at least one second. -/
def ofWindow (seconds : Nat) : Counter := { buckets := Array.replicate (max seconds 1) 0 }

/-- The length of the window. -/
def window (c : Counter) : Nat := c.buckets.size

/-- The place of a second's bucket. -/
def slot (c : Counter) (second : Nat) : Nat := second % c.window

/-- The stamp of a second. -/
def stamp (second : Nat) : Nat := second % halfWord

/-- The bucket of a second. -/
def word (c : Counter) (second : Nat) : Nat := c.buckets.getD (c.slot second) 0

/-- Counts an event of a second unless as many as `cap` are counted there. -/
def add (c : Counter) (second cap : Nat) : Added × Counter :=
  let (outcome, w) := addTo (c.word second) (stamp second) cap
  (outcome, { buckets := c.buckets.setIfInBounds (c.slot second) w })

/-- Counts an event of a second. -/
def increment (c : Counter) (second : Nat) : Added × Counter := c.add second largestCount

/-- The count of a second. -/
def countAt (c : Counter) (second : Nat) : Nat :=
  if stampOf (c.word second) = stamp second then countOf (c.word second) else 0

/-- The number of seconds that a request for `seconds` of them gets. -/
def clampWindow (c : Counter) (seconds : Nat) : Nat := min (max seconds 1) c.window

/-- The counts of the last seconds up to `second`; one before second zero counts nothing. -/
def windowAt (c : Counter) (second seconds : Nat) : WindowStats :=
  let counts := (List.range (c.clampWindow seconds)).reverse.map fun back =>
    if back ≤ second then c.countAt (second - back) else 0
  { counts, total := counts.foldl (· + ·) 0, endingAt := second }

end Counter

end Backpressure.Rate
