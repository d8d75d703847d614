import LogRelay.Base64
import LogRelay.Json.Schema
import LogRelay.Record
import LogRelay.Time.Rfc3339

/-!
Log entries as a cloud logging service exports them: JSON objects, carried in base64. Only the
server logs of PostgreSQL instances and clusters become records, and only if their labels say which
project and which instance they belong to.
-/

namespace LogRelay.Envelope

abbrev Labels := List (String × String)

def Labels.get? (labels : Labels) (name : String) : Option String :=
  labels.lookup name

/-- What an entry is about. -/
structure Resource where
  kind : String := ""
  labels : Labels := []
  deriving DecidableEq, Repr

/-- The fields of an exported entry that matter here. -/
structure Entry where
  logName : String := ""
  resource : Resource := {}
  text : String := ""
  timestamp : String := ""
  deriving DecidableEq, Repr

/-- Why a message is undecodable. -/
inductive Error where
  | json (cause : Json.Error)
  | base64 (cause : Base64.Error)
  deriving DecidableEq, Repr

def Error.message : Error → String
  | json cause => "Error parsing JSON: " ++ cause.message
  | base64 cause => "Error decoding message data: " ++ cause.message

structure Resource.Draft where
  kind : Option String := none
  labels : Option Labels := none

def Resource.schema : Json.Schema Resource.Draft where
  name := "MonitoredResource"
  start := {}
  fields := [
    { key := "type", optional := true, isSet := (·.kind.isSome)
      read := fun d bytes => (Json.readText bytes).map fun (s, rest) =>
        ({ d with kind := some s }, rest) },
    { key := "labels", optional := true, isSet := (·.labels.isSome)
      read := fun d bytes => (Json.readTextMap bytes).map fun (m, rest) =>
        ({ d with labels := some m }, rest) }]

/-- A resource; missing fields are empty. -/
def Resource.read : Json.Reader Resource := fun bytes =>
  (Resource.schema.read bytes).map fun (d, rest) =>
    (⟨d.kind.getD "", d.labels.getD []⟩, rest)

structure Entry.Draft where
  logName : Option String := none
  resource : Option Resource := none
  text : Option String := none
  timestamp : Option String := none

def Entry.schema : Json.Schema Entry.Draft where
  name := "LogEntry"
  start := {}
  fields := [
    { key := "logName", optional := true, isSet := (·.logName.isSome)
      read := fun d bytes => (Json.readText bytes).map fun (s, rest) =>
        ({ d with logName := some s }, rest) },
    { key := "resource", optional := true, isSet := (·.resource.isSome)
      read := fun d bytes => (Resource.read bytes).map fun (r, rest) =>
        ({ d with resource := some r }, rest) },
    { key := "textPayload", optional := true, isSet := (·.text.isSome)
      read := fun d bytes => (Json.readText bytes).map fun (s, rest) =>
        ({ d with text := some s }, rest) },
    { key := "timestamp", optional := true, isSet := (·.timestamp.isSome)
      read := fun d bytes => (Json.readText bytes).map fun (s, rest) =>
        ({ d with timestamp := some s }, rest) }]

/-- An entry; missing fields are empty. -/
def Entry.read : Json.Reader Entry := fun bytes =>
  (Entry.schema.read bytes).map fun (d, rest) =>
    (⟨d.logName.getD "", d.resource.getD {}, d.text.getD "", d.timestamp.getD ""⟩, rest)

def clusterKind : String := "alloydb.googleapis.com/Instance"

def databaseKind : String := "cloudsql_database"

/-- How the name of every PostgreSQL server log ends. -/
def logNameEnd : String := "postgres.log"

def endsWith (s ending : String) : Bool :=
  ending.toList.isSuffixOf s.toList

/-- What follows the only slash of a text. -/
def afterOnlySlash? (s : String) : Option String :=
  if s.toList.count '/' = 1 then some (String.ofList ((s.toList.dropWhile (· ≠ '/')).drop 1))
  else none

/-- What comes before and after the last colon of a text. -/
def splitLastColon? (s : String) : Option (String × String) :=
  let reversed := s.toList.reverse
  if ':' ∈ reversed then
    some (String.ofList ((reversed.dropWhile (· ≠ ':')).drop 1).reverse,
      String.ofList (reversed.takeWhile (· ≠ ':')).reverse)
  else none

/-- Project and cluster from the labels `resource_container`, of the form `projects/PROJECT`, and
`cluster_id`. -/
def clusterIds? (labels : Labels) : Option (String × String) := do
  let project ← afterOnlySlash? (← labels.get? "resource_container")
  let cluster ← labels.get? "cluster_id"
  return (project, cluster)

/-- Project and instance from the label `database_id`, of the form `PROJECT:INSTANCE`. A project may
hold colons itself; the label `project_id` goes before what the id says. -/
def databaseIds? (labels : Labels) : Option (String × String) := do
  let (project, instanceId) ← splitLastColon? (← labels.get? "database_id")
  return ((labels.get? "project_id").getD project, instanceId)

/-- Project and instance of a resource, if its labels say them. -/
def routingIds? (r : Resource) : Option (String × String) :=
  if r.kind = clusterKind then clusterIds? r.labels
  else if r.kind = databaseKind then clusterIds? r.labels <|> databaseIds? r.labels
  else none

/-- The record of an entry that is a PostgreSQL server log and can be routed. -/
def Entry.record? (e : Entry) : Option Record :=
  if endsWith e.logName logNameEnd then
    (routingIds? e.resource).map fun (project, instanceId) =>
      { projectId := project, instanceId := instanceId
        occurredAt := Time.Rfc3339.parse? e.timestamp, content := e.text }
  else none

/-- Decodes the JSON of an entry; `none` for entries that are passed over. -/
def decodeEntry (bytes : List UInt8) : Except Json.Error (Option Record) :=
  (Json.readWhole Entry.read bytes).map Entry.record?

/-- Decodes message data: an entry in base64. -/
def decode (data : List UInt8) : Except Error (Option Record) :=
  match Base64.decode data with
  | .error e => .error (.base64 e)
  | .ok bytes =>
    match decodeEntry bytes with
    | .error e => .error (.json e)
    | .ok record => .ok record

end LogRelay.Envelope
