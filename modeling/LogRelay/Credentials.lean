import LogRelay.Files
import LogRelay.Json.Value
import LogRelay.Key.Rsa

/-!
Credentials files of a cloud account, in JSON: a service account with its key, or a user who
authorised the program once. The member `type` says which, wherever in the object it stands.
-/

namespace LogRelay

/-- Credentials for the account that requests are made with. -/
inductive Credentials where
  | serviceAccount (email : String) (keyId : Option String) (key : List UInt8) (tokenUri : String)
  | authorizedUser (clientId clientSecret refreshToken tokenUri : String)
  deriving DecidableEq, Repr

namespace Credentials

/-- Why a file holds no credentials. -/
inductive Error where
  | file (cause : FileError)
  | json (cause : Json.Error)
  | key (cause : Key.Rsa.FormatError)
  deriving DecidableEq, Repr

def Error.message : Error → String
  | file cause => cause.message
  | json cause => cause.message
  | key cause => "invalid private key: " ++ cause.message

/-- Where tokens are asked for unless the file says otherwise. -/
def defaultTokenUri : String := "https://oauth2.googleapis.com/token"

/-- Where tokens are asked for with the credentials. -/
def tokenUri : Credentials → String
  | serviceAccount _ _ _ uri => uri
  | authorizedUser _ _ _ uri => uri

inductive Kind where
  | serviceAccount
  | authorizedUser
  deriving DecidableEq, Repr

def kindKey : String := "type"

def kind? (name : String) : Except Json.Error Kind :=
  if name = "service_account" then .ok .serviceAccount
  else if name = "authorized_user" then .ok .authorizedUser
  else .error (.unknownVariant name ["service_account", "authorized_user"])

/-- What is done about a text that is missing. -/
inductive Need where
  | required
  /-- There may be none, or null. -/
  | nullable
  | default (s : String)
  deriving DecidableEq, Repr

namespace Kind

/-- What messages call a record of the kind. -/
def title : Kind → String
  | serviceAccount => "struct ServiceAccountKey"
  | authorizedUser => "struct AuthorizedUser"

def fields : Kind → List (String × Need)
  | serviceAccount =>
    [("client_email", .required), ("private_key", .required), ("private_key_id", .nullable),
      ("token_uri", .default defaultTokenUri)]
  | authorizedUser =>
    [("client_id", .required), ("client_secret", .required), ("refresh_token", .required),
      ("token_uri", .default defaultTokenUri)]

end Kind

/-- A file's content while it is read: its kind, once known, and everything else. -/
structure Draft (α : Type) where
  kind : Option Kind := none
  rest : List α := []

/-- The name of the kind, where it stands. -/
def readKind : Json.Reader Kind := fun bytes =>
  match Json.skipBlanks bytes with
  | [] => .error .endInValue
  | b :: rest =>
    if b = Json.byte '"' then
      match Json.readLiteral rest with
      | .error e => .error e
      | .ok (name, left) => (kind? name).map (·, left)
    else .error (Json.mismatch "variant identifier" (b :: rest))

/-- Any other value; it lies one level deep already. -/
def readOther : Json.Reader Json.Value := Json.Value.readWithin (Json.maxDepth - 1)

def readMember (key : String) (d : Draft (String × Json.Value)) :
    Json.Reader (Draft (String × Json.Value)) := fun bytes =>
  if key = kindKey then
    if d.kind.isSome then .error (.duplicateField key)
    else
      match Json.readColon bytes with
      | .error e => .error e
      | .ok rest => (readKind rest).map fun (kind, left) => ({ d with kind := some kind }, left)
  else
    match Json.readColon bytes with
    | .error e => .error e
    | .ok rest => (readOther rest).map fun (v, left) => ({ d with rest := d.rest ++ [(key, v)] }, left)

/-- One element of the list form, whose first is the kind. -/
def readElement (d : Draft Json.Value) : Json.Reader (Draft Json.Value) := fun bytes =>
  if d.kind.isNone then
    (readKind bytes).map fun (kind, left) => ({ d with kind := some kind }, left)
  else (readOther bytes).map fun (v, left) => ({ d with rest := d.rest ++ [v] }, left)

def textOf (need : Need) : Json.Value → Except Json.Error (Option String)
  | .text s => .ok (some s)
  | .null => if need = .nullable then .ok none else .error (.wrongKind .null "a string")
  | v => .error (.wrongKind v.found "a string")

/-- The texts of the fields of a kind, from members in any order. -/
def ofMembers (fields : List (String × Need)) (members : List (String × Json.Value)) :
    Except Json.Error (List (Option String)) := do
  let known ← members.foldlM (fun known (key, v) =>
    match fields.lookup key with
    | none => .ok known
    | some need =>
      if known.any (·.1 == key) then .error (.duplicateField key)
      else (textOf need v).map fun s => (key, s) :: known) ([] : List (String × Option String))
  fields.mapM fun (key, need) =>
    match known.lookup key, need with
    | some s, _ => .ok s
    | none, .required => .error (.missingField key)
    | none, .nullable => .ok none
    | none, .default s => .ok (some s)

/-- The texts of the fields of a kind, from elements in their order, `position` of them being
done. -/
def ofElements (title : String) (total : Nat) : List (String × Need) → (position : Nat) →
    List Json.Value → Except Json.Error (List (Option String))
  | [], _, [] => .ok []
  | [], position, items =>
    .error (.wrongLength (position + items.length) (toString total ++ " elements in sequence"))
  | (_, need) :: fields, position, v :: items => do
    let s ← textOf need v
    return s :: (← ofElements title total fields (position + 1) items)
  | (_, .default s) :: fields, position, [] =>
    (ofElements title total fields (position + 1) []).map (some s :: ·)
  | _, position, [] =>
    .error (.wrongLength position (title ++ " with " ++ toString total ++ " elements"))

def readTexts : Json.Reader (Kind × List (Option String)) := fun bytes =>
  match Json.skipBlanks bytes with
  | [] => .error .endInValue
  | b :: rest =>
    if b = Json.byte '[' then do
      let (d, left) ← Json.readElements readElement (rest.length + 1) true {} rest
      match d.kind with
      | none => .error (.missingField kindKey)
      | some kind =>
        let texts ← ofElements kind.title kind.fields.length kind.fields 0 d.rest
        return ((kind, texts), left)
    else if b = Json.byte '\x7b' then do
      let (d, left) ← Json.readMembers readMember (rest.length + 1) true {} rest
      match d.kind with
      | none => .error (.missingField kindKey)
      | some kind =>
        let texts ← ofMembers kind.fields d.rest
        return ((kind, texts), left)
    else .error (Json.mismatch "internally tagged enum CredentialsFile" (b :: rest))

def ofTexts (kind : Kind) (texts : List (Option String)) : Except Error Credentials :=
  let text (i : Nat) : String := ((texts[i]?).getD none).getD ""
  match kind with
  | .serviceAccount =>
    match Key.Rsa.ofPem (text 1) with
    | .ok key => .ok (.serviceAccount (text 0) ((texts[2]?).getD none) key (text 3))
    | .error e => .error (.key e)
  | .authorizedUser => .ok (.authorizedUser (text 0) (text 1) (text 2) (text 3))

def parse (contents : String) : Except Error Credentials :=
  match Json.readWhole readTexts (Text.Utf8.encode contents) with
  | .error e => .error (.json e)
  | .ok (kind, texts) => ofTexts kind texts

def load (files : Files) (path : String) : Except Error Credentials :=
  match files.readText path with
  | .error e => .error (.file e)
  | .ok contents => parse contents

end Credentials

end LogRelay
