import Backpressure.Settings.Scaling

/-!
# Settings of a worker pool

A pool keeps between `minWorkers` and `maxWorkers` pollers on one queue.  It is
elastic when the two differ; only then do the settings of scaling matter, and
only then are they checked.

Pools without a name get a fresh one.  Which one is up to the caller, so a
default record is made by `PoolSettings.named`.
-/

namespace Backpressure

/-- The largest number of items that a queue can have room for. -/
def largestCapacity : Nat := Nat.pow 2 61 - 1

/-- Settings of a worker pool. -/
structure PoolSettings where
  /-- The name of the pool. -/
  name : String
  /-- The names of the workers start with this. -/
  workerLabel : String := "worker"
  /-- The workers started at once; scaling never goes below. -/
  minWorkers : Nat := 1
  /-- The most workers that scaling reaches. -/
  maxWorkers : Nat := 4
  queueCapacity : Nat := 1024
  /-- Settings of every poller. -/
  poller : PollerSettings := {}
  scaling : ScalingSettings := {}
  /-- How long each worker is waited for at a stop. -/
  shutdownTimeout : Duration := Duration.ofWholeSeconds 30
  deriving Inhabited, BEq, Repr

/-- Why settings of a pool are refused. -/
inductive PoolFault where
  /-- The smallest number of workers is zero. -/
  | noWorkers
  /-- The largest number of workers is below the smallest one. -/
  | workersReversed
  /-- The queue has no room. -/
  | noCapacity
  /-- The queue is larger than a queue can be. -/
  | capacityTooLarge
  /-- The settings of the pollers are refused. -/
  | poller (fault : PollerFault)
  /-- The settings of scaling are refused. -/
  | scaling (fault : ScalingFault)
  deriving DecidableEq, Repr

/-- The wording of a fault. -/
def PoolFault.message : PoolFault → String
  | .noWorkers => "min_workers must be at least 1"
  | .workersReversed => "max_workers must not be less than min_workers"
  | .noCapacity => "queue_capacity must be positive"
  | .capacityTooLarge => "queue_capacity must not exceed " ++ toString largestCapacity
  | .poller fault => fault.message
  | .scaling fault => fault.message

namespace PoolSettings

/-- The default settings under a name. -/
def named (name : String) : PoolSettings := { name }

/-- Sets what the names of the workers start with. -/
def withWorkerLabel (s : PoolSettings) (label : String) : PoolSettings :=
  { s with workerLabel := label }

/-- Sets the smallest and the largest number of workers. -/
def withWorkers (s : PoolSettings) (least most : Nat) : PoolSettings :=
  { s with minWorkers := least, maxWorkers := most }

/-- Sets the capacity of the queue. -/
def withQueueCapacity (s : PoolSettings) (n : Nat) : PoolSettings := { s with queueCapacity := n }

/-- Sets the settings of the pollers. -/
def withPoller (s : PoolSettings) (p : PollerSettings) : PoolSettings := { s with poller := p }

/-- Sets the settings of scaling. -/
def withScaling (s : PoolSettings) (p : ScalingSettings) : PoolSettings := { s with scaling := p }

/-- Sets how long each worker is waited for at a stop. -/
def withShutdownTimeout (s : PoolSettings) (d : Duration) : PoolSettings :=
  { s with shutdownTimeout := d }

/-- Whether the number of workers may change while the pool runs. -/
def isElastic (s : PoolSettings) : Bool := s.minWorkers < s.maxWorkers

/-- Accepts the settings or gives the first fault. -/
def check (s : PoolSettings) : Except PoolFault Unit := do
  if s.minWorkers = 0 then throw .noWorkers
  if s.maxWorkers < s.minWorkers then throw .workersReversed
  if s.queueCapacity = 0 then throw .noCapacity
  if largestCapacity < s.queueCapacity then throw .capacityTooLarge
  s.poller.check.mapError PoolFault.poller
  if s.isElastic then s.scaling.check.mapError PoolFault.scaling

/-- The fields in declared order. -/
def fields : List (Json.Field PoolSettings) :=
  [.text "name" (·.name) fun s t => { s with name := t },
   .text "worker_name_prefix" (·.workerLabel) fun s t => { s with workerLabel := t },
   .natural "min_workers" (Nat.pow 2 64) (·.minWorkers) fun s n => { s with minWorkers := n },
   .natural "max_workers" (Nat.pow 2 64) (·.maxWorkers) fun s n => { s with maxWorkers := n },
   .natural "queue_capacity" (Nat.pow 2 64) (·.queueCapacity) fun s n => { s with queueCapacity := n },
   .record "poller" PollerSettings.fields (·.poller) fun s p => { s with poller := p },
   .record "scaling" ScalingSettings.fields (·.scaling) fun s p => { s with scaling := p },
   .duration "shutdown_timeout" (·.shutdownTimeout) fun s d => { s with shutdownTimeout := d }]

end PoolSettings

end Backpressure
