import Backpressure.Json.Fields
import Backpressure.Logging.Directive

/-!
# Settings of logging

Logging has a filter and a format.  From the environment, a missing or empty
filter means `info`, and the format is lines of JSON only when the variable says
`json` in any case of letters.  In a document both fields are required.

A subscriber is installed once per process.  `Settings.install` tells what an
attempt comes to when one is there already: a filter that cannot be read is found
first.
-/

namespace Backpressure.Logging

/-- How log lines are written. -/
inductive Format where
  /-- For people. -/
  | pretty
  /-- One JSON object per line. -/
  | json
  deriving DecidableEq, Repr, Inhabited

/-- The name of a format. -/
def Format.name : Format → String
  | .pretty => "pretty"
  | .json => "json"

/-- Settings of logging. -/
structure Settings where
  /-- The filter. -/
  level : String := "info"
  /-- How lines are written. -/
  format : Format := .pretty
  deriving DecidableEq, Repr, Inhabited

namespace Settings

/-- The fields in declared order. -/
def fields : List (Json.Field Settings) :=
  [.text "level" (·.level) fun s t => { s with level := t },
   { key := "format"
     read := fun s => return { s with
       format := ← Json.Reader.oneOf [("pretty", Format.pretty), ("json", Format.json)] }
     write := fun s => .text s.format.name }]

/-- Reads a JSON document. -/
def ofText (text : String) : Except Json.Fault Settings :=
  Json.Reader.run (Json.readRecord fields true {}) text

/-- The settings as a JSON value. -/
def toJson (s : Settings) : Json.Value := Json.writeRecord fields s

/-- Settings from a source of variables. -/
def ofVariables (source : String → Option String) : Settings where
  level := ((source "LOG_LEVEL").filter (!·.isEmpty)).getD "info"
  format := if (source "LOG_FORMAT").any (fun v => v.map Char.toLower == "json") then .json else .pretty

/-- Why nothing is installed. -/
inductive InstallFault where
  /-- The filter cannot be read. -/
  | invalidDirective
  /-- A subscriber is there already. -/
  | alreadyInstalled
  deriving DecidableEq, Repr

/-- What an attempt to install comes to; `taken` tells that a subscriber is there already. -/
def install (s : Settings) (taken : Bool) : Except InstallFault Unit :=
  if !isFilter s.level then .error .invalidDirective
  else if taken then .error .alreadyInstalled
  else .ok ()

end Settings

end Backpressure.Logging
