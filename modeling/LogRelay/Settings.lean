import LogRelay.Server

/-!
The settings of the relay as a whole, their defaults, and the check that they make sense before
anything is started.
-/

namespace LogRelay

structure Settings where
  logLevel : String := "info"
  /-- Whether a failure to set up one server ends the start. -/
  testRun : Bool := false
  /-- How many records may wait between the receivers and the transformer. -/
  streamCapacity : Nat := 1000
  /-- Lines older than this when the transformer starts are dropped. -/
  freshnessWindowSecs : Nat := 60
  /-- How long a failed subscription rests. -/
  retryIntervalSecs : Nat := 60
  maxMessages : Nat := 100
  /-- Replaces the usual address of the service. -/
  endpoint : Option String := none
  servers : List Server := []
  deriving DecidableEq, Repr

/-- Why settings are rejected. -/
inductive Settings.Fault where
  | unknownLogLevel (level : String)
  | zeroStreamCapacity
  | zeroRetryInterval
  | zeroMaxMessages
  | blankEndpoint
  deriving DecidableEq, Repr

namespace Settings

def Fault.message : Fault → String
  | unknownLogLevel level =>
    "Invalid log level '" ++ level ++ "'. Must be one of: trace, debug, info, warn, error"
  | zeroStreamCapacity => "log_stream_buffer_len must be greater than 0"
  | zeroRetryInterval => "retry_interval_secs must be greater than 0"
  | zeroMaxMessages => "gcp_pubsub_max_messages must be greater than 0"
  | blankEndpoint => "gcp_pubsub_endpoint cannot be empty"

/-- The levels that the log output can be limited to. -/
def logLevels : List String := ["trace", "debug", "info", "warn", "error"]

def fault? (s : Settings) : Option Fault :=
  if s.logLevel ∉ logLevels then some (.unknownLogLevel s.logLevel)
  else if s.streamCapacity = 0 then some .zeroStreamCapacity
  else if s.retryIntervalSecs = 0 then some .zeroRetryInterval
  else if s.maxMessages = 0 then some .zeroMaxMessages
  else if (s.endpoint.map Text.isBlankText).getD false then some .blankEndpoint
  else none

def validate (s : Settings) : Except Fault Settings :=
  match s.fault? with
  | some f => .error f
  | none => .ok s

end Settings

end LogRelay
