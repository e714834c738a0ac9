import Backpressure.Time.Duration

/-!
# Why a call is refused

Every refusal that a caller can see has exactly one cause here, so whether to try
again never depends on the wording.  A refused rate carries a hint: the
milliseconds to wait, `0` when the wait is not known, `-1` when no wait helps.
-/

namespace Backpressure

/-- The name of a call that is under way. -/
abbrev CallId := Nat

/-- Why a call did not give a result. -/
inductive CallError where
  /-- The component is switched off. -/
  | disabled
  /-- What the call needs is gone, or the component is shut down. -/
  | unavailable (reason : String)
  /-- More calls than the rate allows; `wait` is the hint in milliseconds. -/
  | rateExceeded (rate : Nat) (wait : Int)
  /-- No slot or permit came in time. -/
  | overloaded (reason : String)
  /-- The call used up its time. -/
  | cancelled (limit : Duration)
  /-- A failure of any other kind. -/
  | internal (reason : String)
  deriving DecidableEq, Repr, Inhabited

namespace CallError

/-- The name of the cause. -/
def kind : CallError → String
  | disabled => "disabled"
  | unavailable _ => "unavailable"
  | rateExceeded _ _ => "rate_exceeded"
  | overloaded _ => "overloaded"
  | cancelled _ => "cancelled"
  | internal _ => "internal"

/-- The wording. -/
def message : CallError → String
  | disabled => "disabled"
  | unavailable reason => "unavailable: " ++ reason
  | rateExceeded rate wait =>
    "rate of " ++ toString rate ++ "/s exceeded (retry in " ++ toString wait ++ "ms)"
  | overloaded reason => "overloaded: " ++ reason
  | cancelled limit => "cancelled after " ++ limit.text
  | internal reason => "internal error: " ++ reason

/-- Whether trying again later can help. -/
def isRetryable : CallError → Bool
  | disabled | internal _ => false
  | rateExceeded _ wait => 0 ≤ wait
  | unavailable _ | overloaded _ | cancelled _ => true

/-- How long to wait before trying again, when that is known. -/
def retryAfter : CallError → Option Duration
  | rateExceeded _ wait => if 0 < wait then some (Duration.ofMillis wait.toNat) else none
  | _ => none

end CallError

end Backpressure
