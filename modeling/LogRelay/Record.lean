import LogRelay.Postgres.Line

/-!
What flows through the relay: records, as a provider delivers them, and routed lines, each addressed
to one monitored server.
-/

namespace LogRelay

/-- A log entry as delivered, before its text is parsed. -/
structure Record where
  /-- The cloud project the entry comes from. -/
  projectId : String
  /-- The database instance or cluster the entry comes from. -/
  instanceId : String
  /-- When the provider says the entry was written, where that is known. -/
  occurredAt : Option Time.Instant
  /-- The text of the entry without its line terminator. -/
  content : String
  deriving DecidableEq, Repr

structure Identity where
  systemId : String
  systemType : String
  systemScope : String
  deriving DecidableEq, Repr

/-- The identity as a path; an empty scope is left out. -/
def Identity.display (i : Identity) : String :=
  if i.systemScope = "" then i.systemType ++ "/" ++ i.systemId
  else i.systemType ++ "/" ++ i.systemScope ++ "/" ++ i.systemId

/-- A parsed line addressed to one monitored server. -/
structure RoutedLine where
  identity : Identity
  line : Postgres.Line
  deriving DecidableEq, Repr

end LogRelay
