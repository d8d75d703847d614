import LogRelay.Json.Skip

/-!
Reading a JSON value into a record of known fields. An object may hold its fields in any order and
among any others, which are passed over; a list holds them in their order, and may end early where
the fields left are optional.
-/

namespace LogRelay.Json

/-- The error for a value that is not of the wanted kind. The value itself must still be JSON: a
scalar is read to its end first. -/
def mismatch (expected : String) (bytes : List UInt8) : Error :=
  let wrong (found : Found) : Error := .wrongKind found expected
  match bytes with
  | [] => .endInValue
  | b :: rest =>
    if b = byte 'n' then
      match readWord ['u', 'l', 'l'] rest with
      | .error e => e
      | .ok _ => wrong .null
    else if b = byte 't' then
      match readWord ['r', 'u', 'e'] rest with
      | .error e => e
      | .ok _ => wrong (.boolean true)
    else if b = byte 'f' then
      match readWord ['a', 'l', 's', 'e'] rest with
      | .error e => e
      | .ok _ => wrong (.boolean false)
    else if b = byte '-' ∨ isDigit b = true then
      match readNumber bytes with
      | .error e => e
      | .ok (n, _) => wrong n.found
    else if b = byte '"' then
      match readLiteral rest with
      | .error e => e
      | .ok (s, _) => wrong (.text s)
    else if b = byte '[' then wrong .list
    else if b = byte '\x7b' then wrong .object
    else .expectedValue

def readText : Reader String := fun bytes =>
  match skipBlanks bytes with
  | b :: rest => if b = byte '"' then readLiteral rest else .error (mismatch "a string" (b :: rest))
  | [] => .error .endInValue

/-- A whole number of 64 bits without sign. -/
def readCount : Reader Nat := fun bytes =>
  match skipBlanks bytes with
  | b :: rest =>
    if b = byte '-' ∨ isDigit b = true then
      match readNumber (b :: rest) with
      | .error e => .error e
      | .ok (.integer n, after) =>
        if 0 ≤ n then .ok (n.toNat, after) else .error (.wrongValue (.integer n) "u64")
      | .ok (x, _) => .error (.wrongKind x.found "u64")
    else .error (mismatch "u64" (b :: rest))
  | [] => .error .endInValue

/-- Passes over the colon after a key. It is a step of its own: a key may be rejected before the colon
is looked for. -/
def readColon (bytes : List UInt8) : Except Error (List UInt8) :=
  match skipBlanks bytes with
  | [] => .error .endInObject
  | b :: rest => if b = byte ':' then .ok rest else .error .expectedColon

/-- Moves to the next key of an object; `none` at its end, which is left in place. -/
def nextKey? (first : Bool) (bytes : List UInt8) : Except Error (Option (List UInt8)) :=
  match skipBlanks bytes with
  | [] => .error .endInObject
  | b :: rest =>
    if b = byte '\x7d' then .ok none
    else if first then
      if b = byte '"' then .ok (some rest) else .error .keyNotText
    else if b = byte ',' then
      match skipBlanks rest with
      | [] => .error .endInValue
      | c :: after =>
        if c = byte '"' then .ok (some after)
        else if c = byte '\x7d' then .error .trailingComma
        else .error .keyNotText
    else .error .expectedObjectCommaOrEnd

/-- Moves to the next element of a list; `none` at its end, which is left in place. -/
def nextElement? (first : Bool) (bytes : List UInt8) : Except Error (Option (List UInt8)) :=
  match skipBlanks bytes with
  | [] => .error .endInList
  | b :: rest =>
    if b = byte ']' then .ok none
    else if first then .ok (some (b :: rest))
    else if b = byte ',' then
      match skipBlanks rest with
      | [] => .error .endInValue
      | c :: after => if c = byte ']' then .error .trailingComma else .ok (some (c :: after))
    else .error .expectedListCommaOrEnd

/-- Passes over the end of an object. -/
def closeObject (bytes : List UInt8) : Except Error (List UInt8) :=
  match skipBlanks bytes with
  | [] => .error .endInObject
  | b :: rest =>
    if b = byte '\x7d' then .ok rest
    else if b = byte ',' then .error .trailingComma
    else .error .trailingCharacters

/-- Passes over the end of a list, which must not hold anything more. -/
def closeList (bytes : List UInt8) : Except Error (List UInt8) :=
  match skipBlanks bytes with
  | [] => .error .endInList
  | b :: rest =>
    if b = byte ']' then .ok rest
    else if b = byte ',' then
      match skipBlanks rest with
      | c :: _ => if c = byte ']' then .error .trailingComma else .error .trailingCharacters
      | [] => .error .trailingCharacters
    else .error .trailingCharacters

/-- The members of an object, given what to do with the value of each key. -/
def readMembers {σ : Type} (member : String → σ → Reader σ) :
    (fuel : Nat) → (first : Bool) → σ → Reader σ
  | 0, _, _, _ => .error .endInObject
  | fuel + 1, first, acc, bytes =>
    match nextKey? first bytes with
    | .error e => .error e
    | .ok none => (closeObject bytes).map (acc, ·)
    | .ok (some rest) =>
      match readLiteral rest with
      | .error e => .error e
      | .ok (key, rest) =>
        match member key acc rest with
        | .error e => .error e
        | .ok (acc, rest) => readMembers member fuel false acc rest

/-- The elements of a list, given what to do with each. -/
def readElements {σ : Type} (element : σ → Reader σ) :
    (fuel : Nat) → (first : Bool) → σ → Reader σ
  | 0, _, _, _ => .error .endInList
  | fuel + 1, first, acc, bytes =>
    match nextElement? first bytes with
    | .error e => .error e
    | .ok none => (closeList bytes).map (acc, ·)
    | .ok (some rest) =>
      match element acc rest with
      | .error e => .error e
      | .ok (acc, rest) => readElements element fuel false acc rest

/-- A field of a record under construction. -/
structure Field (σ : Type) where
  key : String
  /-- Whether the field may be missing. -/
  optional : Bool
  /-- Whether the field has been read. -/
  isSet : σ → Bool
  /-- Reads the value of the field into the record. -/
  read : σ → Reader σ

/-- A record by its fields, in their order. -/
structure Schema (σ : Type) where
  name : String
  fields : List (Field σ)
  /-- The record before any field is read. -/
  start : σ

namespace Schema

variable {σ : Type}

def title (schema : Schema σ) : String := "struct " ++ schema.name

/-- What messages call a list of the fields of the record. -/
def listTitle (schema : Schema σ) : String :=
  let n := schema.fields.length
  schema.title ++ " with " ++ toString n ++ (if n = 1 then " element" else " elements")

/-- Reads the value of a known key, which must not come twice, and passes over any other. -/
def readMember (schema : Schema σ) (key : String) (acc : σ) : Reader σ := fun bytes =>
  match schema.fields.find? (·.key == key) with
  | some field =>
    if field.isSet acc then .error (.duplicateField key)
    else
      match readColon bytes with
      | .error e => .error e
      | .ok rest => field.read acc rest
  | none =>
    match readColon bytes with
    | .error e => .error e
    | .ok rest => (skipValue rest).map (acc, ·)

def missing? (schema : Schema σ) (acc : σ) : Option String :=
  (schema.fields.find? fun field => !field.optional && !field.isSet acc).map (·.key)

/-- Reads the fields from the elements of a list, `position` of them being done. -/
def readPositions (schema : Schema σ) : List (Field σ) → (position : Nat) → σ → Reader σ
  | [], _, acc, bytes => (closeList bytes).map (acc, ·)
  | field :: fields, position, acc, bytes =>
    match nextElement? (position == 0) bytes with
    | .error e => .error e
    | .ok none =>
      if field.optional then readPositions schema fields (position + 1) acc bytes
      else .error (.wrongLength position schema.listTitle)
    | .ok (some rest) =>
      match field.read acc rest with
      | .error e => .error e
      | .ok (acc, rest) => readPositions schema fields (position + 1) acc rest

def read (schema : Schema σ) : Reader σ := fun bytes =>
  match skipBlanks bytes with
  | [] => .error .endInValue
  | b :: rest =>
    if b = byte '[' then readPositions schema schema.fields 0 schema.start rest
    else if b = byte '\x7b' then
      match readMembers schema.readMember (rest.length + 1) true schema.start rest with
      | .error e => .error e
      | .ok (acc, after) =>
        match schema.missing? acc with
        | some key => .error (.missingField key)
        | none => .ok (acc, after)
    else .error (mismatch schema.title (b :: rest))

end Schema

def readWhole {α : Type} (reader : Reader α) (bytes : List UInt8) : Except Error α :=
  match reader bytes with
  | .error e => .error e
  | .ok (value, rest) =>
    match skipBlanks rest with
    | [] => .ok value
    | _ :: _ => .error .trailingCharacters

/-- An object whose values are all strings; of two members with one key the later counts. -/
def readTextMap : Reader (List (String × String)) := fun bytes =>
  match skipBlanks bytes with
  | [] => .error .endInValue
  | b :: rest =>
    if b = byte '\x7b' then
      readMembers (fun key acc bytes =>
        match readColon bytes with
        | .error e => .error e
        | .ok after => (readText after).map fun (value, left) =>
            (acc.filter (·.1 != key) ++ [(key, value)], left))
        (rest.length + 1) true [] rest
    else .error (mismatch "a map" (b :: rest))

def readList {α : Type} (element : Reader α) : Reader (List α) := fun bytes =>
  match skipBlanks bytes with
  | [] => .error .endInValue
  | b :: rest =>
    if b = byte '[' then
      readElements (fun acc bytes => (element bytes).map fun (x, left) => (acc ++ [x], left))
        (rest.length + 1) true [] rest
    else .error (mismatch "a sequence" (b :: rest))

end LogRelay.Json
