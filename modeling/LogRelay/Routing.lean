import LogRelay.Server

/-!
Where a record goes: its text is parsed, old lines are dropped, and one line is addressed to every
server with the record's project and instance.
-/

namespace LogRelay

/-- The longest freshness window that is told apart from a longer one, in seconds: what fits 63 bits
of milliseconds. It reaches further back than any representable instant. -/
def longestWindowSecs : Nat := 9223372036854775

/-- The earliest time a line may have to be kept, for a window that ends now. -/
def freshnessHorizon (now : Time.Instant) (windowSecs : Nat) : Time.Instant :=
  (now.minusSeconds? (min windowSecs longestWindowSecs)).getD Time.Instant.earliest

def isStale (occurredAt : Option Time.Instant) (horizon : Time.Instant) : Bool :=
  match occurredAt with
  | some t => t < horizon
  | none => false

/-- Providers strip the line terminator that line parsers rely on. -/
def restoreLineTerminator (content : String) : String :=
  content ++ "\n"

/-- Whether the record is of that server. -/
def Record.matches (r : Record) (s : Server) : Bool :=
  s.projectId == r.projectId && s.instanceId == r.instanceId

def matchingServers (servers : List Server) (r : Record) : List Server :=
  servers.filter r.matches

structure Router where
  servers : List Server
  parser : Postgres.LineParser
  horizon : Time.Instant

namespace Router

/-- The line of a record, dated by the provider; `none` if its text is no entry. -/
def line? (router : Router) (r : Record) : Option Postgres.Line :=
  (router.parser "" (restoreLineTerminator r.content)).map fun line =>
    { line with occurredAt := r.occurredAt }

/-- The lines a record turns into. -/
def route (router : Router) (r : Record) : List RoutedLine :=
  match router.line? r with
  | none => []
  | some line =>
    if isStale line.occurredAt router.horizon then []
    else (matchingServers router.servers r).map fun s => ⟨s.identity, line⟩

end Router

end LogRelay
