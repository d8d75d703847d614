/-!
Base64 over the standard alphabet, with the padding required and the unused bits zero, so that every
byte sequence has one form. A reader names the first byte that rules the text out.
-/

namespace LogRelay.Base64

/-- Why a text is no base64. -/
inductive Error where
  /-- A byte that cannot stand at that offset. -/
  | invalidByte (offset : Nat) (byte : UInt8)
  /-- A last symbol whose unused bits are not zero. -/
  | invalidLastSymbol (offset : Nat) (byte : UInt8)
  /-- One symbol too many. -/
  | invalidLength (length : Nat)
  /-- Padding is missing. -/
  | invalidPadding
  deriving DecidableEq, Repr

def Error.message : Error → String
  | invalidByte offset byte => s!"Invalid symbol {byte}, offset {offset}."
  | invalidLastSymbol offset byte => s!"Invalid last symbol {byte}, offset {offset}."
  | invalidLength length => s!"Invalid input length: {length}"
  | invalidPadding => "Invalid padding"

def pad : UInt8 := 61

def symbol (n : Nat) : UInt8 :=
  UInt8.ofNat (if n < 26 then n + 65 else if n < 52 then n + 71 else if n < 62 then n - 4
    else if n = 62 then 43 else 47)

def value? (b : UInt8) : Option Nat :=
  let n := b.toNat
  if 65 ≤ n ∧ n ≤ 90 then some (n - 65)
  else if 97 ≤ n ∧ n ≤ 122 then some (n - 71)
  else if 48 ≤ n ∧ n ≤ 57 then some (n + 4)
  else if n = 43 then some 62
  else if n = 47 then some 63
  else none

def encode : List UInt8 → List UInt8
  | [] => []
  | [a] => [symbol (a.toNat / 4), symbol (a.toNat % 4 * 16), pad, pad]
  | [a, b] =>
    [symbol (a.toNat / 4), symbol (a.toNat % 4 * 16 + b.toNat / 16), symbol (b.toNat % 16 * 4), pad]
  | a :: b :: c :: rest =>
    symbol (a.toNat / 4) :: symbol (a.toNat % 4 * 16 + b.toNat / 16) ::
      symbol (b.toNat % 16 * 4 + c.toNat / 64) :: symbol (c.toNat % 64) :: encode rest

/-- The three bytes of four values. -/
def joinFull (a b c d : Nat) : List UInt8 :=
  [UInt8.ofNat (a * 4 + b / 16), UInt8.ofNat (b % 16 * 16 + c / 4), UInt8.ofNat (c % 4 * 64 + d)]

/-- The values of the symbols in front, with those symbols. -/
def leading : List UInt8 → List (Nat × UInt8)
  | [] => []
  | b :: rest =>
    match value? b with
    | some n => (n, b) :: leading rest
    | none => []

/-- The bytes of the last group, of one to four symbols, which begins at `offset`. Padding may only
follow two or three symbols, and nothing may follow the padding. -/
def decodeLast (offset : Nat) (group : List UInt8) : Except Error (List UInt8) :=
  let symbols := leading group
  let rest := group.drop symbols.length
  let size := symbols.length
  match rest.find? (· != pad), rest with
  | some other, first :: _ =>
    if first = pad then .error (.invalidByte (offset + size) pad)
    else .error (.invalidByte (offset + size) other)
  | none, _ :: _ =>
    if size < 2 then .error (.invalidByte (offset + size) pad)
    else finish symbols
  | _, [] => finish symbols
where
  /-- The bytes of the symbols of the last group, once their order is known to be right. -/
  finish (symbols : List (Nat × UInt8)) : Except Error (List UInt8) :=
    match symbols with
    | [] => .ok []
    | [_] => .error (.invalidLength (offset + 1))
    | [(a, _), (b, s)] =>
      if group.length < 4 then .error .invalidPadding
      else if b % 16 ≠ 0 then .error (.invalidLastSymbol (offset + 1) s)
      else .ok [UInt8.ofNat (a * 4 + b / 16)]
    | [(a, _), (b, _), (c, s)] =>
      if group.length < 4 then .error .invalidPadding
      else if c % 4 ≠ 0 then .error (.invalidLastSymbol (offset + 2) s)
      else .ok [UInt8.ofNat (a * 4 + b / 16), UInt8.ofNat (b % 16 * 16 + c / 4)]
    | (a, _) :: (b, _) :: (c, _) :: (d, _) :: _ => .ok (joinFull a b c d)

/-- The bytes of the text from `offset` on. All groups but the last hold four symbols. -/
def decodeFrom (offset : Nat) : List UInt8 → Except Error (List UInt8)
  | a :: b :: c :: d :: e :: rest =>
    match value? a, value? b, value? c, value? d with
    | some x, some y, some z, some w =>
      (decodeFrom (offset + 4) (e :: rest)).map (joinFull x y z w ++ ·)
    | none, _, _, _ => .error (.invalidByte offset a)
    | _, none, _, _ => .error (.invalidByte (offset + 1) b)
    | _, _, none, _ => .error (.invalidByte (offset + 2) c)
    | _, _, _, none => .error (.invalidByte (offset + 3) d)
  | group => decodeLast offset group

/-- A lone last byte that is no symbol, such as a line end, is reported before anything else. -/
def strayByte? (text : List UInt8) : Option UInt8 :=
  if text.length % 4 = 1 then text.getLast?.filter fun b => b != pad && (value? b).isNone
  else none

def decode (text : List UInt8) : Except Error (List UInt8) :=
  match strayByte? text with
  | some b => .error (.invalidByte (text.length - 1) b)
  | none => decodeFrom 0 text

end LogRelay.Base64
