import LogRelay.Json.Error
import LogRelay.Text.Utf8

/-!
The pieces of a JSON text: blanks, the three words, and string literals with their escapes. Readers
take bytes and return what they read with the bytes that are left; nothing is decoded before its end
is found.
-/

namespace LogRelay.Json

/-- Reads a value from the front of a byte sequence. -/
abbrev Reader (α : Type) := List UInt8 → Except Error (α × List UInt8)

def byte (c : Char) : UInt8 := UInt8.ofNat c.toNat

def isBlank (b : UInt8) : Bool :=
  b == byte ' ' || b == byte '\t' || b == byte '\n' || b == byte '\r'

/-- The bytes from the first that is no blank. -/
def skipBlanks (bytes : List UInt8) : List UInt8 :=
  bytes.dropWhile isBlank

def isDigit (b : UInt8) : Bool :=
  byte '0' ≤ b && b ≤ byte '9'

/-- The rest of a word such as `null`, whose first letter is already read. -/
def readWord : List Char → Reader Unit
  | [], bytes => .ok ((), bytes)
  | _ :: _, [] => .error .endInValue
  | c :: word, b :: bytes => if b = byte c then readWord word bytes else .error .expectedWord

def hexDigit? (b : UInt8) : Option Nat :=
  if byte '0' ≤ b ∧ b ≤ byte '9' then some (b.toNat - 48)
  else if byte 'a' ≤ b ∧ b ≤ byte 'f' then some (b.toNat - 87)
  else if byte 'A' ≤ b ∧ b ≤ byte 'F' then some (b.toNat - 55)
  else none

def readHex : List UInt8 → Except Error Nat
  | a :: b :: c :: d :: _ =>
    match hexDigit? a, hexDigit? b, hexDigit? c, hexDigit? d with
    | some a, some b, some c, some d => .ok (((a * 16 + b) * 16 + c) * 16 + d)
    | _, _, _, _ => .error .invalidEscape
  | _ => .error .endInText

/-- The first half of a code point above U+FFFF. -/
def isHighSurrogate (n : Nat) : Bool := 0xD800 ≤ n && n ≤ 0xDBFF

/-- The second half of a code point above U+FFFF. -/
def isLowSurrogate (n : Nat) : Bool := 0xDC00 ≤ n && n ≤ 0xDFFF

def codePoint (n : Nat) : List UInt8 :=
  String.utf8EncodeChar (Char.ofNat n)

/-- What a letter after a backslash stands for. -/
def shortEscape? (b : UInt8) : Option UInt8 :=
  if b = byte '"' ∨ b = byte '\\' ∨ b = byte '/' then some b
  else if b = byte 'b' then some 8
  else if b = byte 'f' then some 12
  else if b = byte 'n' then some 10
  else if b = byte 'r' then some 13
  else if b = byte 't' then some 9
  else none

/-- The second half of a surrogate pair; `bytes` begin after the first four digits. -/
def readLowSurrogate (high : Nat) (bytes : List UInt8) : Except Error (List UInt8) :=
  match bytes with
  | [] => .error .endInText
  | b :: bytes =>
    if b ≠ byte '\\' then .error .endOfHexEscape
    else
      match bytes with
      | [] => .error .endInText
      | b :: bytes =>
        if b ≠ byte 'u' then .error .endOfHexEscape
        else
          match readHex bytes with
          | .error e => .error e
          | .ok low =>
            if isLowSurrogate low then
              .ok (codePoint (0x10000 + (high - 0xD800) * 0x400 + (low - 0xDC00)))
            else .error .loneSurrogate

/-- What an escape stands for, and how many bytes it takes after its backslash. -/
def readEscape : List UInt8 → Except Error (List UInt8 × Nat)
  | [] => .error .endInText
  | b :: bytes =>
    if b = byte 'u' then
      match readHex bytes with
      | .error e => .error e
      | .ok n =>
        if isLowSurrogate n then .error .loneSurrogate
        else if isHighSurrogate n then
          (readLowSurrogate n (bytes.drop 4)).map fun out => (out, 11)
        else .ok (codePoint n, 5)
    else
      match shortEscape? b with
      | some c => .ok ([c], 1)
      | none => .error .invalidEscape

/-- The bytes a string literal stands for, up to its closing quote. The number says how many bytes
still belong to the escape before. -/
def literalFrom : Nat → Reader (List UInt8)
  | _, [] => .error .endInText
  | n + 1, _ :: bytes => literalFrom n bytes
  | 0, b :: bytes =>
    if b = byte '"' then .ok ([], bytes)
    else if b = byte '\\' then
      match readEscape bytes with
      | .error e => .error e
      | .ok (out, n) => (literalFrom n bytes).map fun (more, rest) => (out ++ more, rest)
    else if b < 0x20 then .error .controlCharacter
    else (literalFrom 0 bytes).map fun (more, rest) => (b :: more, rest)

/-- The text of a string literal whose opening quote is already read. -/
def readLiteral : Reader String := fun bytes => do
  let (out, rest) ← literalFrom 0 bytes
  match Text.Utf8.decode? out with
  | some s => return (s, rest)
  | none => .error .invalidCodePoint

/-- How many bytes an escape takes after its backslash, whatever it stands for. -/
def escapeSize : List UInt8 → Except Error Nat
  | [] => .error .endInText
  | b :: bytes =>
    if b = byte 'u' then (readHex bytes).map fun _ => 5
    else if (shortEscape? b).isSome then .ok 1
    else .error .invalidEscape

/-- Passes over a string literal without asking what it stands for. -/
def skipLiteralFrom : Nat → List UInt8 → Except Error (List UInt8)
  | _, [] => .error .endInText
  | n + 1, _ :: bytes => skipLiteralFrom n bytes
  | 0, b :: bytes =>
    if b = byte '"' then .ok bytes
    else if b = byte '\\' then
      match escapeSize bytes with
      | .error e => .error e
      | .ok n => skipLiteralFrom n bytes
    else if b < 0x20 then .error .controlCharacter
    else skipLiteralFrom 0 bytes

/-- Passes over a string literal whose opening quote is already read. -/
def skipLiteral (bytes : List UInt8) : Except Error (List UInt8) :=
  skipLiteralFrom 0 bytes

end LogRelay.Json
