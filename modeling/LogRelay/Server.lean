import LogRelay.Record
import LogRelay.Text.Blank

/-!
The settings of one monitored server, and what follows from them: the identity its lines carry and
the subscription they arrive on.
-/

namespace LogRelay

structure Server where
  /-- Labels the log output of this server. -/
  name : String := ""
  projectId : String := ""
  /-- The database instance or the cluster. -/
  instanceId : String := ""
  subscription : Option String := none
  /-- Where the credentials are; without it the machine's own account is used. -/
  credentialsFile : Option String := none
  systemId : Option String := none
  systemType : Option String := none
  systemScope : Option String := none
  deriving DecidableEq, Repr

namespace Server

/-- The system type of a server that names none. -/
def defaultSystemType : String := "google_cloudsql"

/-- The identity of the server's lines. An id that is not given is made of project and instance. -/
def identity (s : Server) : Identity where
  systemId := s.systemId.getD (s.projectId ++ ":" ++ s.instanceId)
  systemType := s.systemType.getD defaultSystemType
  systemScope := s.systemScope.getD ""

/-- The text without blanks around it, unless nothing is left. -/
def trimmed? (text : Option String) : Option String :=
  (text.map Text.trim).filter (· ≠ "")

def subscription? (s : Server) : Option String :=
  trimmed? s.subscription

end Server

end LogRelay
