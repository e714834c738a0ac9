import Backpressure.Pool.Phase
import Backpressure.Settings.Sink
import Backpressure.Settings.Rate
import Backpressure.Text.Numeral
import Backpressure.Text.Quoted

/-!
# The settings of a whole program

`Settings` has one section for the pool, one for the sink and one for the rate
controller, and the path of the file that telemetry goes to.  It is accepted when
every section is, in this order.

`Settings.ofText` reads a JSON document, and accepts it only when the result
is valid.  What the document does not mention keeps its default.
-/

namespace Backpressure

/-- The settings of a whole program. -/
structure Settings where
  /-- The worker pool. -/
  pool : PoolSettings
  /-- The telemetry sink. -/
  sink : SinkSettings := {}
  /-- The rate controller. -/
  rate : RateSettings := {}
  /-- The file that telemetry is appended to; without one it stays in memory. -/
  telemetryPath : Option String := none
  deriving Inhabited, BEq, Repr

/-- Why one section is refused. -/
inductive SectionFault where
  /-- The section of the pool. -/
  | pool (fault : PoolFault)
  /-- The section of the sink. -/
  | sink (fault : SinkFault)
  /-- The section of the rate controller. -/
  | rate (fault : RateFault)
  deriving DecidableEq, Repr

/-- The name of the section that is refused. -/
def SectionFault.sectionName : SectionFault → String
  | .pool _ => "pool"
  | .sink _ => "sink"
  | .rate _ => "rate"

/-- The wording of the reason. -/
def SectionFault.reason : SectionFault → String
  | .pool fault => fault.error.message
  | .sink fault => fault.message
  | .rate fault => fault.message

/-- Why no settings come about. -/
inductive SettingsError where
  /-- A variable holds a text that is no numeral of its range. -/
  | invalidValue (key value : String) (fault : Text.NumeralFault)
  /-- A section is refused. -/
  | invalid (fault : SectionFault)
  /-- A document cannot be read. -/
  | unreadable (fault : Json.Fault)
  deriving DecidableEq, Repr

/-- The wording of an error. -/
def SettingsError.message : SettingsError → String
  | .invalidValue key value fault =>
    "invalid value for " ++ key ++ ": " ++ Text.quoted value ++ " (" ++ fault.message ++ ")"
  | .invalid fault =>
    "invalid " ++ fault.sectionName ++ " configuration: " ++ fault.reason
  | .unreadable fault => "failed to parse configuration: " ++ fault.category

namespace Settings

/-- The default settings, with a name for the pool. -/
def standard (poolName : String) : Settings := { pool := .named poolName }

/-- Accepts the settings or gives the first section that is refused. -/
def check (s : Settings) : Except SectionFault Unit := do
  s.pool.check.mapError SectionFault.pool
  s.sink.check.mapError SectionFault.sink
  s.rate.check.mapError SectionFault.rate

/-- The fields in declared order. -/
def fields : List (Json.Field Settings) :=
  [.record "pool" PoolSettings.fields (·.pool) fun s p => { s with pool := p },
   .record "sink" SinkSettings.fields (·.sink) fun s p => { s with sink := p },
   .record "rate" RateSettings.fields (·.rate) fun s p => { s with rate := p },
   .optionalText "telemetry_path" (·.telemetryPath) fun s p => { s with telemetryPath := p }]

/-- Reads a JSON document without checking the result. -/
def read (poolName text : String) : Except Json.Fault Settings :=
  Json.Reader.run (Json.readRecord fields false (standard poolName)) text

/-- Reads a JSON document; a pool without a name gets `poolName`. -/
def ofText (poolName text : String) : Except SettingsError Settings := do
  let s ← (read poolName text).mapError SettingsError.unreadable
  s.check.mapError SettingsError.invalid
  return s

/-- The settings as a JSON value. -/
def toJson (s : Settings) : Json.Value := Json.writeRecord fields s

/-- The settings as a JSON document. -/
def render (s : Settings) : String := s.toJson.render

end Settings

end Backpressure
