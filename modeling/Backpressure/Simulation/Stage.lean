import Backpressure.Time.Timer

/-!
# Running under a virtual clock

Nothing takes time except waiting.  A stage tells, of a state at a moment, one
thing that can be done now, and the next moment at which a wait ends.  Running a
stage means to *settle* the present moment, that is to do things as long as there
is one to do, and then to move the clock to the next end of a wait.  When the clock
arrives at a moment, a caller in the foreground whose wait ends then goes first.

The number of steps is bounded, so that running is total even for a stage that
never settles; `patience` is far above what a finite script needs.
-/

namespace Backpressure.Simulation

/-- What can happen in a state, and when. -/
structure Stage (σ : Type) where
  /-- The state after one thing that can be done at a moment, if there is one. -/
  step? : Instant → σ → Option σ
  /-- The next moment at which a wait ends. -/
  next? : σ → Option Instant
  /-- What comes first when the clock arrives at a moment. -/
  arrive : Instant → σ → σ := fun _ s => s

/-- A state at a moment. -/
structure Scene (σ : Type) where
  /-- The moment. -/
  now : Instant := 0
  state : σ
  deriving Inhabited

/-- The bound on the steps at one moment, and on the moments of one run. -/
def patience : Nat := 10000000

/-- The earlier of two moments that may be absent. -/
def earlier : Option Instant → Option Instant → Option Instant
  | none, b => b
  | a, none => a
  | some a, some b => some (min a b)

/-- The earliest of moments that may be absent. -/
def earliest (ts : List (Option Instant)) : Option Instant := ts.foldl earlier none

namespace Stage

variable {σ : Type} (S : Stage σ)

/-- Does things as long as there is one to do, at most `budget` of them. -/
def settleWithin : Nat → Instant → σ → σ
  | 0, _, s => s
  | budget + 1, now, s =>
    match S.step? now s with
    | none => s
    | some s => settleWithin budget now s

/-- Does everything that can be done now. -/
def settle (scene : Scene σ) : Scene σ :=
  { scene with state := S.settleWithin patience scene.now scene.state }

/-- Moves the clock to a moment. -/
def moveTo (t : Instant) (scene : Scene σ) : Scene σ :=
  let now := max t scene.now
  { now, state := S.arrive now scene.state }

/-- Runs up to and including a moment, through at most `budget` ends of waits. -/
def runWithin : Nat → Instant → Scene σ → Scene σ
  | 0, target, scene => { scene with now := target }
  | budget + 1, target, scene =>
    let scene := S.settle scene
    match S.next? scene.state with
    | some t =>
      if t ≤ target then runWithin budget target (S.moveTo t scene)
      else { scene with now := target }
    | none => { scene with now := target }

/-- Runs for a number of milliseconds. -/
def advance (millis : Nat) (scene : Scene σ) : Scene σ :=
  S.runWithin patience (scene.now + Duration.ofMillis millis) scene

/-- Runs until a condition holds at a settled moment, or nothing is left to wait for. -/
def awaitWithin (isDone : σ → Bool) : Nat → Scene σ → Scene σ
  | 0, scene => scene
  | budget + 1, scene =>
    let scene := S.settle scene
    if isDone scene.state then scene
    else
      match S.next? scene.state with
      | some t => awaitWithin isDone budget (S.moveTo t scene)
      | none => scene

/-- Runs until a condition holds at a settled moment. -/
def await (isDone : σ → Bool) (scene : Scene σ) : Scene σ := S.awaitWithin isDone patience scene

end Stage

/-! ## Calls that wait -/

/-- A result of a call that ran in the background. -/
structure Done (ρ : Type) where
  /-- When the call was done. -/
  moment : Instant
  /-- The name of the call. -/
  id : String
  result : ρ
  deriving Inhabited, Repr

/-- Whether one result stands before another: by moment, then by name. -/
def Done.before {ρ : Type} (a b : Done ρ) : Bool :=
  a.moment < b.moment || (a.moment == b.moment && a.id ≤ b.id)

/-- The answer to one step of a script. -/
structure Entry (α ρ : Type) where
  /-- The result of the step. -/
  result : α
  /-- The moment after the step. -/
  now : Instant
  /-- What was done in the background since the last entry. -/
  done : List (Done ρ) := []
  deriving Inhabited, Repr

/-- Goes through the steps of a script and gathers an answer for each. -/
def perform {σ ι α : Type} (act : σ → ι → α × σ) : σ → List ι → List α
  | _, [] => []
  | s, step :: rest =>
    let (a, s) := act s step
    a :: perform act s rest

end Backpressure.Simulation
