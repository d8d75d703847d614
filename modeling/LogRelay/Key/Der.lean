import LogRelay.Text.Utf8
import LogRelay.Time.Calendar

/-!
Values in the distinguished encoding of ASN.1: a tag, a length, a body. Sequences and sets are read
into; the body of any other kind is checked as far as that kind demands.
-/

namespace LogRelay.Key

/-- A value. Kinds nothing here asks about are `other`. -/
inductive Der where
  | integer (bytes : List UInt8)
  | bitString (bytes : List UInt8)
  | octetString (bytes : List UInt8)
  | objectId (arcs : List Nat)
  | sequence (items : List Der)
  | other
  deriving Repr

namespace Der

/-- A number in groups of seven bits, the highest first; all but its last byte have the top bit. -/
def readGroups : Nat → List UInt8 → Option (Nat × List UInt8)
  | _, [] => none
  | n, b :: rest =>
    let n := n * 128 + b.toNat % 128
    if b.toNat < 128 then some (n, rest) else readGroups n rest

/-- The length of a body: one byte, or a count of up to eight bytes and those bytes. -/
def readLength : List UInt8 → Option (Nat × List UInt8)
  | [] => none
  | b :: rest =>
    if b.toNat < 128 then some (b.toNat, rest)
    else
      let size := b.toNat % 128
      if 8 < size ∨ rest.length < size then none
      else some ((rest.take size).foldl (fun n b => n * 256 + b.toNat) 0, rest.drop size)

/-- The arcs after the first two. -/
def readArcs : (fuel : Nat) → List UInt8 → Option (List Nat)
  | _, [] => some []
  | 0, _ => none
  | fuel + 1, bytes => do
    let (n, rest) ← readGroups 0 bytes
    return n :: (← readArcs fuel rest)

/-- The arcs of an object identifier; its first byte holds two. -/
def arcs? : List UInt8 → Option (List Nat)
  | [] => none
  | b :: rest => do
    let n := b.toNat
    let first := if n < 40 then 0 else if n < 80 then 1 else 2
    return first :: (n - 40 * first) :: (← readArcs rest.length rest)

def isPrintable (b : UInt8) : Bool :=
  let c := Char.ofNat b.toNat
  b < 128 && (c.isAlphanum || " '()+,-./:=?".toList.contains c)

def digits? (bytes : List UInt8) : Option (List Nat) :=
  bytes.mapM fun b => if 48 ≤ b ∧ b ≤ 57 then some (b.toNat - 48) else none

/-- Whether twelve digits are a month, day, hour, minute and second of that year. -/
def isMoment (year : Nat) : List Nat → Bool
  | [o, p, d, e, h, i, m, n, s, t] =>
    (Time.Date.mk year (10 * o + p) (10 * d + e)).isValid && 10 * h + i < 24 && 10 * m + n < 60 &&
      10 * s + t < 60
  | _ => false

/-- Whether the bytes are a time with a year of two digits, in UTC. -/
def isUtcTime (bytes : List UInt8) : Bool :=
  bytes.length == 13 && bytes.getLast? == some 90 &&
    match digits? bytes.dropLast with
    | some (y :: z :: rest) =>
      let year := 10 * y + z
      isMoment (if 50 ≤ year then 1900 + year else 2000 + year) rest
    | _ => false

/-- Whether the bytes are a time with a year of four digits and an optional fraction, in UTC. -/
def isGeneralizedTime (bytes : List UInt8) : Bool :=
  let body := bytes.dropLast
  let fraction := body.drop 14
  15 ≤ bytes.length && bytes.getLast? == some 90 && fraction.length ≤ 10 &&
    (fraction.isEmpty || fraction.head? == some 46) && (digits? (fraction.drop 1)).isSome &&
    match digits? (body.take 14) with
    | some (a :: b :: c :: d :: rest) => isMoment (1000 * a + 100 * b + 10 * c + d) rest
    | _ => false

/-- A value of a universal tag that holds no others. -/
def ofPrimitive? (tag : Nat) (body : List UInt8) : Option Der :=
  let text := if (Text.Utf8.decode? body).isSome then some other else none
  match tag with
  | 1 => if body.length = 1 then some other else none
  | 2 => some (integer body)
  | 3 =>
    match body with
    | [] => some (bitString [])
    | unused :: bits => if bits.length * 8 < unused.toNat then none else some (bitString bits)
  | 4 => some (octetString body)
  | 6 => (arcs? body).map objectId
  | 12 => text
  | 19 => if body.all isPrintable then some other else none
  | 20 => text
  | 23 => if isUtcTime body then some other else none
  | 24 => if isGeneralizedTime body then some other else none
  | 28 => text
  | 30 => text
  | _ => some other

/-- The tag of a value: whether it is universal, and its number. -/
def readTag : List UInt8 → Option (Bool × Nat × List UInt8)
  | [] => none
  | b :: rest =>
    let universal := b.toNat < 64
    let number := b.toNat % 32
    if number = 31 then (readGroups 0 rest).map fun (n, left) => (universal, n, left)
    else some (universal, number, rest)

def readAll : (fuel : Nat) → List UInt8 → Option (List Der)
  | _, [] => some []
  | 0, _ => none
  | fuel + 1, bytes => do
    let (universal, tag, rest) ← readTag bytes
    let (size, rest) ← readLength rest
    if rest.length < size then none
    let body := rest.take size
    let value ←
      if ¬ universal then some other
      else if tag = 16 ∨ tag = 17 then do
        let items ← readAll fuel body
        if items.isEmpty then none else pure (if tag = 16 then sequence items else other)
      else ofPrimitive? tag body
    return value :: (← readAll fuel (rest.drop size))

def parse? (bytes : List UInt8) : Option (List Der) :=
  (readAll (bytes.length + 1) bytes).filter fun items => !items.isEmpty

mutual

/-- The first answer of `f` among the value and, in their order, the items of sequences. -/
def findIn? {α : Type} (f : Der → Option α) : Der → Option α
  | sequence items => findAmong? f items
  | d => f d

/-- The first answer of `f` among values and the items of their sequences. -/
def findAmong? {α : Type} (f : Der → Option α) : List Der → Option α
  | [] => none
  | d :: ds => findIn? f d <|> findAmong? f ds

end

end Der

end LogRelay.Key
