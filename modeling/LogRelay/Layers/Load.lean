import LogRelay.Files
import LogRelay.Layers.Decode
import LogRelay.Layers.Environment

/-!
Loading of settings: the defaults, over them the file, over that the environment. What comes out has
no fault, or there is an error that says where the first one lies.
-/

namespace LogRelay.Layers

/-- Where a value was set. -/
inductive Origin where
  /-- In the file of that name. -/
  | file (name : String)
  | environment
  deriving DecidableEq, Repr

/-- Why there are no settings. -/
inductive LoadError where
  | unreadable (file : String) (cause : FileError)
  /-- The file does not hold a mapping written in YAML. -/
  | malformed (file : String)
  | mismatch (cause : Mismatch) (origin : Origin)
  | invalid (fault : Settings.Fault)
  deriving DecidableEq, Repr

/-- The layer of the file that a path leads to; without a file it is empty. -/
def ofFile (files : Files) (path : String) : Except LoadError Dict :=
  match files.locate? path with
  | none => .ok []
  | some found =>
    match files.readText found with
    | .error cause => .error (.unreadable (files.display found) cause)
    | .ok text =>
      match ofYaml? text with
      | some file => .ok file
      | none => .error (.malformed (files.display found))

def holds : List String → Value → Bool
  | [], _ => true
  | key :: path, .dict d => ((Dict.get? key d).map (holds path)).getD false
  | key :: path, .list items =>
    ((key.toNat?.bind (items[·]?)).map (holds path)).getD false
  | _, _ => false

/-- Settings from the layer of a file, called by that name, and the layer of the environment. -/
def combine (name : String) (file environment : Dict) : Except LoadError Settings :=
  match decodeSettings (Value.layEntries environment file) with
  | .error m =>
    .error (.mismatch m (if holds m.path (.dict environment) then .environment else .file name))
  | .ok s => s.validate.mapError .invalid

def load (files : Files) (path : String) (env : Environment) : Except LoadError Settings :=
  match ofFile files path with
  | .error e => .error e
  | .ok file =>
    combine (files.display ((files.locate? path).getD path)) file (ofEnvironment env)

def inFile (name : String) : String := " in " ++ name ++ " YAML file"

/-- Where a mismatch lies, in the words of a message. -/
def Origin.describe (keys : List String) : Origin → String
  | file name => " for key " ++ Text.Quoted.text (".".intercalate ("default" :: keys)) ++ inFile name
  | environment =>
    " for key " ++ Text.Quoted.text (".".intercalate (keys.map fun k => k.map Char.toUpper)) ++
      " in `" ++ variableLead ++ "` environment variable(s)"

def LoadError.message : LoadError → String
  | unreadable file cause => "Failed to load configuration: " ++ cause.message ++ inFile file
  | malformed file => "Failed to load configuration: no mapping" ++ inFile file
  | mismatch m origin => "Failed to load configuration: " ++ m.message ++ origin.describe m.path
  | invalid fault => "Invalid configuration: " ++ fault.message

end LogRelay.Layers
