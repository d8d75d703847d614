import LogRelay.Envelope
import LogRelay.Layers.Load
import LogRelay.Receiving
import LogRelay.SetupError
import LogRelay.Text.Visible

/-!
What the relay tells about itself. Every event has a severity and a message, and may belong to one of
the servers; its text begins with a mark that no line of the output proper begins with.
-/

namespace LogRelay

/-- How serious an event is. -/
inductive Severity where
  | error
  | warn
  | info
  deriving DecidableEq, Repr

namespace Severity

def name : Severity → String
  | error => "ERROR"
  | warn => "WARN"
  | info => "INFO"

/-- How far down the list of severities it stands. -/
def rank : Severity → Nat
  | error => 0
  | warn => 1
  | info => 2

/-- How far down the list the least severity stands that is shown at a level of the settings. -/
def rankOfLevel (level : String) : Nat :=
  if level = "error" then 0 else if level = "warn" then 1 else 2

/-- Whether events of the severity are shown at a level of the settings. -/
def isShownAt (s : Severity) (level : String) : Bool := s.rank ≤ rankOfLevel level

end Severity

inductive StopSignal where
  | terminate
  | interrupt
  deriving DecidableEq, Repr

/-- What has happened. -/
inductive Happening where
  /-- A record's text is no entry. -/
  | unparsable (content : String)
  /-- A subscription rests after a failure. -/
  | receiveFailed (subscription : String) (retrySecs : Nat) (cause : ReceiveError)
  /-- A message is passed over. -/
  | undecodable (cause : Envelope.Error)
  /-- A server goes without its logs. -/
  | serverSkipped (cause : SetupError)
  | settingsMissing (path : String) (cause : Layers.LoadError)
  | nothingToDo
  | setupFailed (cause : SetupError)
  | setupTested (servers : Nat)
  | receiving (servers : Nat)
  | stopping (signal : StopSignal)
  /-- The output takes no more lines. -/
  | outputLost (cause : String)
  deriving DecidableEq, Repr

namespace Happening

def severity : Happening → Severity
  | serverSkipped _ => .warn
  | nothingToDo | setupTested _ | receiving _ | stopping _ => .info
  | unparsable _ | receiveFailed .. | undecodable _ | settingsMissing .. | setupFailed _
  | outputLost _ => .error

def message : Happening → String
  | unparsable content => "Can't parse log line: \"" ++ content ++ "\""
  | receiveFailed subscription retrySecs cause =>
    "Failed to receive from " ++ subscription ++ ", retrying in " ++ toString retrySecs ++ "s: " ++
      cause.message
  | undecodable cause => cause.message
  | serverSkipped cause => "Skipping logs, could not setup log subscriber: " ++ cause.message
  | settingsMissing path cause => "Error loading config from " ++ path ++ ": " ++ cause.message
  | nothingToDo => "No servers configured, nothing to do"
  | setupFailed cause => "Log subscriber setup failed: " ++ cause.message
  | setupTested servers =>
    "Test run successful, log subscribers set up for " ++ toString servers ++ " servers"
  | receiving servers => "Receiving logs for " ++ toString servers ++ " servers"
  | stopping .terminate => "Received SIGTERM, initiating shutdown"
  | stopping .interrupt => "Received Ctrl+C, initiating shutdown"
  | outputLost cause => "Failed to write log line, stopping output: " ++ cause

end Happening

structure Event where
  happening : Happening
  /-- The name of the server it belongs to. -/
  server : Option String := none
  deriving DecidableEq, Repr

namespace Event

def mark : String := "DBFLEET"

/-- How the server of an event is named, where the level of the settings lets that through: it is told
as an information, however serious the event is. -/
def scope (level : String) : Option String → String
  | some name => if Severity.info.isShownAt level then "server\x7bname=" ++ name ++ "\x7d: " else ""
  | none => ""

/-- The text of an event at a level of the settings, without a line end. -/
def render (level : String) (e : Event) : String :=
  mark ++ " | " ++ e.happening.severity.name ++ " | " ++ scope level e.server ++
    Text.visible e.happening.message

end Event

end LogRelay
