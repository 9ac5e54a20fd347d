import Keyring.Cli.Filter
import Keyring.Cli.Screen

/-!
# The log

Events are written on lines of their own if the filter lets them pass: the level, the source, the
wording and the named values.
-/

namespace Keyring.Cli

/-- The name of a level, five characters wide. -/
def levelName : Level → String
  | .error => "ERROR"
  | .warn => " WARN"
  | .info => " INFO"
  | .debug => "DEBUG"
  | .trace => "TRACE"

/-- The number of the colour of a level. -/
def levelColour : Level → String
  | .error => "31"
  | .warn => "33"
  | .info => "32"
  | .debug => "34"
  | .trace => "35"

/-- How events are written. -/
structure LogStyle where
  coloured : Bool

namespace LogStyle

/-- Logs have colours unless the environment asks for none. -/
def ofEnvironment (environment : String → Option String) : LogStyle :=
  ⟨(environment "NO_COLOR").all (· = "")⟩

/-- A text with attributes of the terminal, if there are colours. -/
def paint (style : LogStyle) (attributes text : String) : String :=
  if style.coloured then withAttributes attributes text else text

/-- A named value after the wording of an event. -/
def field (style : LogStyle) (entry : String × String) : String :=
  " " ++ style.paint "3" entry.1 ++ style.paint "2" "=" ++ entry.2

/-- The line of an event. -/
def line (style : LogStyle) (event : Event) : String :=
  style.paint (levelColour event.level) (levelName event.level) ++ " " ++ style.paint "2" event.source
    ++ style.paint "2" ":" ++ " " ++ event.message ++ String.join (event.fields.map style.field)
    ++ "\n"

end LogStyle

/-- The lines of the events that pass. -/
def logText (environment : String → Option String) (events : List Event) : String :=
  let filter := Filter.ofEnvironment environment
  let style := LogStyle.ofEnvironment environment
  String.join ((events.filter filter.passes).map style.line)

end Keyring.Cli
