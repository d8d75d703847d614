import LogRelay.Layers.Value
import LogRelay.Settings

/-!
Settings from a dictionary. Keys that are not there keep their defaults, unknown keys are passed
over, and of several values of the wrong kind the one with the first key is reported.
-/

namespace LogRelay.Layers

/-- A value that does not fit its place. -/
structure Mismatch where
  /-- The keys and positions that lead to the value. -/
  path : List String
  /-- The kind is right but the value out of range. -/
  outOfRange : Bool
  found : String
  expected : String
  deriving DecidableEq, Repr

namespace Mismatch

/-- The same mismatch seen from the value around it. -/
def inside (key : String) (m : Mismatch) : Mismatch := { m with path := key :: m.path }

def message (m : Mismatch) : String :=
  (if m.outOfRange then "invalid value " else "invalid type: found ") ++ m.found ++
    ", expected " ++ m.expected

end Mismatch

namespace Value

def wrongKind (v : Value) (expected : String) : Mismatch := ⟨[], false, v.describe, expected⟩

def toText : Value → Except Mismatch String
  | text s => .ok s
  | v => .error (v.wrongKind "a string")

def toText? : Value → Except Mismatch (Option String)
  | unit => .ok none
  | v => v.toText.map some

def toTruth : Value → Except Mismatch Bool
  | boolean b => .ok b
  | v => .error (v.wrongKind "a boolean")

/-- A whole number without sign of at most that many bits. -/
def toCount (bits : Nat) (expected : String) (v : Value) : Except Mismatch Nat :=
  match v with
  | unsigned n => if n < Nat.pow 2 bits then .ok n else .error ⟨[], true, v.describe, expected⟩
  | signed n => if 0 ≤ n then .ok n.toNat else .error ⟨[], true, v.describe, expected⟩
  | v => .error (v.wrongKind expected)

end Value

/-- The names of the settings of a server, in their order. -/
def serverKeys : List String :=
  ["name", "gcp_project_id", "gcp_cloudsql_instance_id", "gcp_pubsub_subscription",
    "gcp_credentials_file", "system_id", "system_type", "system_scope"]

/-- A server with one more setting; an unknown one changes nothing. -/
def setServerField (key : String) (v : Value) (s : Server) : Except Mismatch Server :=
  match key with
  | "name" => v.toText.map fun x => { s with name := x }
  | "gcp_project_id" => v.toText.map fun x => { s with projectId := x }
  | "gcp_cloudsql_instance_id" => v.toText.map fun x => { s with instanceId := x }
  | "gcp_pubsub_subscription" => v.toText?.map fun x => { s with subscription := x }
  | "gcp_credentials_file" => v.toText?.map fun x => { s with credentialsFile := x }
  | "system_id" => v.toText?.map fun x => { s with systemId := x }
  | "system_type" => v.toText?.map fun x => { s with systemType := x }
  | "system_scope" => v.toText?.map fun x => { s with systemScope := x }
  | _ => .ok s

/-- A server from a dictionary, or from a list of its settings in their order. -/
def decodeServer : Value → Except Mismatch Server
  | .dict d => d.foldlM (fun s (key, v) => (setServerField key v s).mapError (·.inside key)) {}
  | .list items =>
    ((serverKeys.zip items).zip (List.range items.length)).foldlM
      (fun s ((key, v), i) => (setServerField key v s).mapError (·.inside (toString i))) {}
  | v => .error (v.wrongKind "struct ServerConfig")

def decodeServers : Value → Except Mismatch (List Server)
  | .list items =>
    (items.zip (List.range items.length)).mapM fun (v, i) =>
      (decodeServer v).mapError (·.inside (toString i))
  | v => .error (v.wrongKind "a sequence")

/-- Settings with one more value; an unknown key changes nothing. -/
def setField (key : String) (v : Value) (s : Settings) : Except Mismatch Settings :=
  match key with
  | "log_level" => v.toText.map fun x => { s with logLevel := x }
  | "test_run" => v.toTruth.map fun x => { s with testRun := x }
  | "log_stream_buffer_len" => (v.toCount 64 "usize").map fun x => { s with streamCapacity := x }
  | "freshness_window_secs" =>
    (v.toCount 64 "u64").map fun x => { s with freshnessWindowSecs := x }
  | "retry_interval_secs" => (v.toCount 64 "u64").map fun x => { s with retryIntervalSecs := x }
  | "gcp_pubsub_max_messages" => (v.toCount 32 "u32").map fun x => { s with maxMessages := x }
  | "gcp_pubsub_endpoint" => v.toText?.map fun x => { s with endpoint := x }
  | "servers" => (decodeServers v).map fun x => { s with servers := x }
  | _ => .ok s

def decodeSettings (d : Dict) : Except Mismatch Settings :=
  d.foldlM (fun s (key, v) => (setField key v s).mapError (·.inside key)) {}

end LogRelay.Layers
