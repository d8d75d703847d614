import LogRelay.Json.Schema

/-!
JSON values: a reader that takes any text, and a writer without blanks. The reader allows 127 levels
of lists and objects, and the members of an object keep their order and their repetitions.
-/

namespace LogRelay.Json

inductive Value where
  | null
  | boolean (b : Bool)
  | number (n : Number)
  | text (s : String)
  | list (items : List Value)
  | object (members : List (String × Value))
  deriving Repr

/-- How many lists and objects may lie within each other. -/
def maxDepth : Nat := 127

namespace Value

def integer (n : Int) : Value := number (.integer n)

def ofText? : Option String → Value
  | some s => text s
  | none => null

/-- The value of a key; of several the last. -/
def get? (key : String) : Value → Option Value
  | object members => (members.reverse.find? (·.1 == key)).map (·.2)
  | _ => none

/-- The value as one of the wrong kind. -/
def found : Value → Found
  | null => .null
  | boolean b => .boolean b
  | number n => n.found
  | text s => .text s
  | list _ => .list
  | object _ => .object

/-- Reads a value, given the reader of the values within it, if there may be any. -/
def readWith (nested : Option (Reader Value)) : Reader Value := fun bytes =>
  match skipBlanks bytes with
  | [] => .error .endInValue
  | b :: rest =>
    if b = byte 'n' then (readWord ['u', 'l', 'l'] rest).map fun (_, left) => (null, left)
    else if b = byte 't' then
      (readWord ['r', 'u', 'e'] rest).map fun (_, left) => (boolean true, left)
    else if b = byte 'f' then
      (readWord ['a', 'l', 's', 'e'] rest).map fun (_, left) => (boolean false, left)
    else if b = byte '-' ∨ isDigit b = true then
      (readNumber (b :: rest)).map fun (n, left) => (number n, left)
    else if b = byte '"' then (readLiteral rest).map fun (s, left) => (text s, left)
    else if b = byte '[' then
      match nested with
      | none => .error .tooDeep
      | some inner => (readList inner (b :: rest)).map fun (items, left) => (list items, left)
    else if b = byte '\x7b' then
      match nested with
      | none => .error .tooDeep
      | some inner =>
        (readMembers (fun key acc bytes =>
          match readColon bytes with
          | .error e => .error e
          | .ok after => (inner after).map fun (value, left) => (acc ++ [(key, value)], left))
          (rest.length + 1) true [] rest).map fun (members, left) => (object members, left)
    else .error .expectedValue

/-- Reads a value with at most `depth` levels of lists and objects. -/
def readWithin : (depth : Nat) → Reader Value
  | 0 => readWith none
  | depth + 1 => readWith (some (readWithin depth))

def read : Reader Value := readWithin maxDepth

def parse (bytes : List UInt8) : Except Error Value :=
  readWhole read bytes

end Value

/-- A character within a string literal. -/
def escapeChar (c : Char) : List Char :=
  if c = '"' then ['\\', '"']
  else if c = '\\' then ['\\', '\\']
  else if c = '\x08' then ['\\', 'b']
  else if c = '\x0c' then ['\\', 'f']
  else if c = '\n' then ['\\', 'n']
  else if c = '\r' then ['\\', 'r']
  else if c = '\t' then ['\\', 't']
  else if c.toNat < 0x20 then
    ['\\', 'u', '0', '0', Nat.digitChar (c.toNat / 16), Nat.digitChar (c.toNat % 16)]
  else [c]

def writeText (s : String) : List Char :=
  '"' :: s.toList.flatMap escapeChar ++ ['"']

namespace Value

def writeNumber : Number → List Char
  | .integer n => (toString n).toList
  | .float x => x.renderMarked.toList

mutual

def write : Value → List Char
  | null => ['n', 'u', 'l', 'l']
  | boolean true => ['t', 'r', 'u', 'e']
  | boolean false => ['f', 'a', 'l', 's', 'e']
  | number n => writeNumber n
  | text s => writeText s
  | list [] => ['[', ']']
  | list (x :: xs) => '[' :: (write x ++ writeItems xs ++ [']'])
  | object [] => ['\x7b', '\x7d']
  | object ((key, x) :: ms) =>
    '\x7b' :: (writeText key ++ ':' :: write x ++ writeMembers ms ++ ['\x7d'])

/-- The elements after the first, each after a comma. -/
def writeItems : List Value → List Char
  | [] => []
  | x :: xs => ',' :: (write x ++ writeItems xs)

/-- The members after the first, each after a comma. -/
def writeMembers : List (String × Value) → List Char
  | [] => []
  | (key, x) :: ms => ',' :: (writeText key ++ ':' :: write x ++ writeMembers ms)

end

def render (v : Value) : String :=
  String.ofList v.write

end Value

end LogRelay.Json
