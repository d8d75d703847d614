import LogRelay.Json.Number

/-!
Passing over a value that nobody asked for. It has to be JSON, but may nest to any depth, and its
numbers and strings are not looked into.
-/

namespace LogRelay.Json

/-- Passes over a word whose first letter is already read. -/
def skipWord (word : List Char) (bytes : List UInt8) : Except Error (List UInt8) :=
  (readWord word bytes).map Prod.snd

/-- Passes over the key of a member and its colon; `bytes` begin at the key. -/
def skipKey (bytes : List UInt8) : Except Error (List UInt8) :=
  match skipBlanks bytes with
  | [] => .error .endInObject
  | b :: rest =>
    if b = byte '"' then
      match skipLiteral rest with
      | .error e => .error e
      | .ok rest =>
        match skipBlanks rest with
        | [] => .error .endInObject
        | b :: rest => if b = byte ':' then .ok rest else .error .expectedColon
    else .error .keyNotText

mutual

/-- Passes over one value; `fuel` bounds the nesting and the number of elements. -/
def skipValueWith : (fuel : Nat) → List UInt8 → Except Error (List UInt8)
  | 0, _ => .error .endInValue
  | fuel + 1, bytes =>
    match skipBlanks bytes with
    | [] => .error .endInValue
    | b :: rest =>
      if b = byte 'n' then skipWord ['u', 'l', 'l'] rest
      else if b = byte 't' then skipWord ['r', 'u', 'e'] rest
      else if b = byte 'f' then skipWord ['a', 'l', 's', 'e'] rest
      else if b = byte '-' ∨ isDigit b = true then skipNumber (b :: rest)
      else if b = byte '"' then skipLiteral rest
      else if b = byte '[' then
        match skipBlanks rest with
        | [] => .error .endInList
        | c :: after => if c = byte ']' then .ok after else skipElementsWith fuel (c :: after)
      else if b = byte '\x7b' then
        match skipBlanks rest with
        | [] => .error .endInObject
        | c :: after => if c = byte '\x7d' then .ok after else skipMembersWith fuel (c :: after)
      else .error .expectedValue

/-- Passes over the elements of a list that holds at least one, and its end. -/
def skipElementsWith : (fuel : Nat) → List UInt8 → Except Error (List UInt8)
  | 0, _ => .error .endInList
  | fuel + 1, bytes =>
    match skipValueWith fuel bytes with
    | .error e => .error e
    | .ok rest =>
      match skipBlanks rest with
      | [] => .error .endInList
      | b :: rest =>
        if b = byte ',' then skipElementsWith fuel rest
        else if b = byte ']' then .ok rest
        else .error .expectedListCommaOrEnd

/-- Passes over the members of an object that holds at least one, and its end. -/
def skipMembersWith : (fuel : Nat) → List UInt8 → Except Error (List UInt8)
  | 0, _ => .error .endInObject
  | fuel + 1, bytes =>
    match skipKey bytes with
    | .error e => .error e
    | .ok rest =>
      match skipValueWith fuel rest with
      | .error e => .error e
      | .ok rest =>
        match skipBlanks rest with
        | [] => .error .endInObject
        | b :: rest =>
          if b = byte ',' then skipMembersWith fuel rest
          else if b = byte '\x7d' then .ok rest
          else .error .expectedObjectCommaOrEnd

end

/-- Passes over one value. Every call takes a byte or is followed by one that does, so twice the
length is enough fuel. -/
def skipValue (bytes : List UInt8) : Except Error (List UInt8) :=
  skipValueWith (2 * bytes.length + 2) bytes

end LogRelay.Json
