import LogRelay.Json.Literal

/-!
JSON numbers. A number without fraction and exponent that fits 64 bits is an integer; any other is
the binary number reached from its first digits (as many as fit 64 bits) and its exponent.
-/

namespace LogRelay.Json

open Decimal (Binary64)

/-- A number as the reader tells it apart. -/
inductive Number where
  | integer (n : Int)
  | float (x : Binary64)
  deriving DecidableEq, Repr

/-- The number as a value of the wrong kind. -/
def Number.found : Number → Found
  | integer n => .integer n
  | float x => .float x

/-- The digits in front, and the bytes after them. -/
def spanDigits (bytes : List UInt8) : List Nat × List UInt8 :=
  ((bytes.takeWhile isDigit).map (·.toNat - 48), bytes.dropWhile isDigit)

/-- Appends digits to `n` as long as the result fits 64 bits; also says how many were used. -/
def appendDigits (n : Nat) : List Nat → Nat × Nat
  | [] => (n, 0)
  | d :: digits =>
    if 10 * n + d < Nat.pow 2 64 then
      let (m, used) := appendDigits (10 * n + d) digits
      (m, used + 1)
    else (n, 0)

def scaleUp (x : Binary64) (e : Nat) : Binary64 :=
  match Binary64.ofDecimal false 1 e with
  | .finite _ m q => x.mulFinite m q
  | _ => x

/-- Division by a power of ten, rounded. -/
def scaleDown (x : Binary64) (e : Nat) : Binary64 :=
  match Binary64.ofDecimal false 1 e with
  | .finite _ m q => x.divFinite m q
  | _ => x

/-- Division by a power of ten in steps of at most 308, until nothing is left. -/
def scaleDownBy : Nat → Binary64 → Nat → Binary64
  | 0, x, _ => x
  | fuel + 1, x, e =>
    if x.isZero then x
    else if e ≤ 308 then scaleDown x e
    else scaleDownBy fuel (scaleDown x 308) (e - 308)

/-- The binary number of `digits · 10^exponent`; too large a value is an error. -/
def floatOfParts (negative : Bool) (digits : Nat) (exponent : Int) : Except Error Number :=
  let x := Binary64.ofRatio false digits 1
  let signed (y : Binary64) : Number := .float (if negative then y.neg else y)
  if exponent < 0 then .ok (signed (scaleDownBy 8 x exponent.natAbs))
  else if exponent ≤ 308 then
    let y := scaleUp x exponent.toNat
    if y.isInfinite then .error .numberOutOfRange else .ok (signed y)
  else if x.isZero then .ok (signed x)
  else .error .numberOutOfRange

/-- The largest exponent that is still computed with. -/
def exponentLimit : Nat := Nat.pow 2 31

def readExponentSign : List UInt8 → Bool × List UInt8
  | b :: bytes =>
    if b = byte '-' then (true, bytes)
    else if b = byte '+' then (false, bytes)
    else (false, b :: bytes)
  | [] => (false, [])

/-- The exponent after its `e`, applied to the digits before it. -/
def readExponent (negative : Bool) (digits : Nat) (exponent : Int) : Reader Number :=
  fun bytes =>
    let (down, bytes) := readExponentSign bytes
    match spanDigits bytes with
    | ([], []) => .error .endInValue
    | ([], _ :: _) => .error .invalidNumber
    | (ds, rest) =>
      let e := ds.foldl (fun n d => 10 * n + d) 0
      if e < exponentLimit then
        (floatOfParts negative digits (if down then exponent - e else exponent + e)).map (·, rest)
      else if digits ≠ 0 ∧ ¬ down then .error .numberOutOfRange
      else .ok (.float (Binary64.zero negative), rest)

/-- What follows the digits before the point: nothing, a fraction, an exponent. -/
def readFractionAndExponent (negative : Bool) (whole : List Nat) : Reader Number := fun bytes =>
  let (n, used) := appendDigits 0 whole
  let exponent : Int := whole.length - used
  match bytes with
  | b :: rest =>
    if b = byte '.' then
      match spanDigits rest with
      | ([], []) => .error .endInValue
      | ([], _ :: _) => .error .invalidNumber
      | (ds, rest) =>
        let (n, used) := appendDigits n ds
        match rest with
        | c :: after =>
          if c = byte 'e' ∨ c = byte 'E' then readExponent negative n (exponent - used) after
          else (floatOfParts negative n (exponent - used)).map (·, rest)
        | [] => (floatOfParts negative n (exponent - used)).map (·, rest)
    else if b = byte 'e' ∨ b = byte 'E' then readExponent negative n exponent rest
    else wholeNumber n exponent bytes
  | [] => wholeNumber n exponent bytes
where
  /-- A number of digits alone. A negative one must fit 63 bits and not be zero to stay whole. -/
  wholeNumber (n : Nat) (exponent : Int) (bytes : List UInt8) :
      Except Error (Number × List UInt8) :=
    if exponent ≠ 0 then (floatOfParts negative n exponent).map (·, bytes)
    else if ¬ negative then .ok (.integer n, bytes)
    else if 0 < n ∧ n ≤ Nat.pow 2 63 then .ok (.integer (-n), bytes)
    else .ok (.float (Binary64.ofRatio true n 1), bytes)

def readUnsigned (negative : Bool) : Reader Number := fun bytes =>
  match bytes with
  | [] => .error .endInValue
  | b :: rest =>
    if b = byte '0' then
      if (rest.head?.map isDigit).getD false then .error .invalidNumber
      else readFractionAndExponent negative [0] rest
    else if isDigit b then
      let (ds, rest) := spanDigits bytes
      readFractionAndExponent negative ds rest
    else .error .invalidNumber

def readNumber : Reader Number
  | b :: bytes => if b = byte '-' then readUnsigned true bytes else readUnsigned false (b :: bytes)
  | [] => .error .endInValue

/-- Passes over an exponent after its `e`. -/
def skipExponent (bytes : List UInt8) : Except Error (List UInt8) :=
  match (readExponentSign bytes).2 with
  | b :: rest => if isDigit b then .ok (rest.dropWhile isDigit) else .error .invalidNumber
  | [] => .error .invalidNumber

/-- Passes over what follows the digits before the point. -/
def skipFraction : List UInt8 → Except Error (List UInt8)
  | [] => .ok []
  | b :: rest =>
    if b = byte '.' then
      match rest.takeWhile isDigit, rest.dropWhile isDigit with
      | [], _ => .error .invalidNumber
      | _, [] => .ok []
      | _, c :: after => if c = byte 'e' ∨ c = byte 'E' then skipExponent after else .ok (c :: after)
    else if b = byte 'e' ∨ b = byte 'E' then skipExponent rest
    else .ok (b :: rest)

def skipUnsigned : List UInt8 → Except Error (List UInt8)
  | [] => .error .invalidNumber
  | b :: rest =>
    if b = byte '0' then
      if (rest.head?.map isDigit).getD false then .error .invalidNumber else skipFraction rest
    else if isDigit b then skipFraction (rest.dropWhile isDigit)
    else .error .invalidNumber

def skipNumber : List UInt8 → Except Error (List UInt8)
  | b :: bytes => if b = byte '-' then skipUnsigned bytes else skipUnsigned (b :: bytes)
  | [] => .error .invalidNumber

end LogRelay.Json
