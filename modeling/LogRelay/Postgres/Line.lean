import LogRelay.Postgres.Level
import LogRelay.Time.Instant

/-!
A parsed entry of the server log, and the contract between the routing of records and whatever
parses their text.
-/

namespace LogRelay.Postgres

/-- A well-formed log entry, possibly made of several physical lines. -/
structure Line where
  /-- When the entry was written, where that is known. -/
  occurredAt : Option Time.Instant
  level : Level
  backendPid : Option Int
  database : Option String
  username : Option String
  /-- The message after the level marker; further lines are kept. -/
  content : String
  deriving DecidableEq, Repr

/-- Turns a text that ends with a line terminator into an entry. The first argument is what stands
in front of every line; nothing is remembered between texts. -/
abbrev LineParser := (lead : String) → (text : String) → Option Line

end LogRelay.Postgres
