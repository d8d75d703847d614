import LogRelay.Text.Utf8

/-!
Hosts in addresses: names of ASCII letters in lower case, and the numbers of both versions of the
Internet protocol. However a host is spelled, it has one written form. International names, also
those in their ASCII form, are none here.
-/

namespace LogRelay.Http

def hexValue? (c : Char) : Option Nat :=
  if c.isDigit then some (c.toNat - 48)
  else if 'a' ≤ c ∧ c ≤ 'f' then some (c.toNat - 87)
  else if 'A' ≤ c ∧ c ≤ 'F' then some (c.toNat - 55)
  else none

/-- The number written by digits of a base; without digits it is zero. -/
def digitsValue? (base : Nat) (cs : List Char) : Option Nat :=
  cs.foldlM (fun n c => ((hexValue? c).filter (· < base)).map (n * base + ·)) 0

/-- Undoes the percent form of bytes, wherever two hexadecimal digits follow the sign. -/
def percentDecode : List UInt8 → List UInt8
  | 37 :: a :: b :: rest =>
    match hexValue? (Char.ofNat a.toNat), hexValue? (Char.ofNat b.toNat) with
    | some x, some y => UInt8.ofNat (x * 16 + y) :: percentDecode rest
    | _, _ => 37 :: percentDecode (a :: b :: rest)
  | b :: rest => b :: percentDecode rest
  | [] => []

inductive Host where
  | name (s : String)
  /-- Four bytes as one number. -/
  | v4 (number : Nat)
  /-- Eight numbers of 16 bits. -/
  | v6 (groups : List Nat)
  deriving DecidableEq, Repr

namespace Host

/-- A number as part of a host: hexadecimal after `0x`, octal after `0`, decimal otherwise. -/
def part? (cs : List Char) : Option Nat :=
  match cs with
  | [] => none
  | '0' :: 'x' :: rest => digitsValue? 16 rest
  | '0' :: 'X' :: rest => digitsValue? 16 rest
  | '0' :: c :: rest => digitsValue? 8 (c :: rest)
  | cs => digitsValue? 10 cs

/-- The parts between points, without an empty one at the end. -/
def parts (cs : List Char) : List (List Char) :=
  match (cs.splitOn '.').reverse with
  | [] :: first :: others => (first :: others).reverse
  | pieces => pieces.reverse

/-- Whether the last part looks like a number, so that the host must be one. -/
def endsInNumber (cs : List Char) : Bool :=
  match (parts cs).getLast? with
  | some last => (last ≠ [] && last.all Char.isDigit) || (last.length ≥ 2 && (part? last).isSome)
  | none => false

/-- The four bytes of one to four numbers; the last one fills all the bytes that are left. -/
def number? (cs : List Char) : Option Nat := do
  let numbers ← (parts cs).mapM part?
  let last ← numbers.getLast?
  let front := numbers.dropLast
  if front.length ≤ 3 ∧ front.all (· < 256) ∧ last < Nat.pow 256 (4 - front.length) then
    some (front.foldl (fun n x => n * 256 + x) 0 * Nat.pow 256 (4 - front.length) + last)
  else none

def renderV4 (number : Nat) : String :=
  ".".intercalate ([3, 2, 1, 0].map fun i => toString (number / Nat.pow 256 i % 256))

def group? (cs : List Char) : Option Nat :=
  if cs ≠ [] ∧ cs.length ≤ 4 then digitsValue? 16 cs else none

/-- The groups of a part of a host; two of them may be written as four decimal numbers at the end. -/
def groups? (cs : List Char) : Option (List Nat) :=
  if cs = [] then some []
  else
    let pieces := cs.splitOn ':'
    match pieces.getLast? with
    | some last =>
      if '.' ∈ last then do
        let front ← pieces.dropLast.mapM group?
        let numbers ← (last.splitOn '.').mapM fun p =>
          if p = ['0'] ∨ p.head? ≠ some '0' then
            (digitsValue? 10 p).filter fun n => p ≠ [] ∧ n < 256
          else none
        match numbers with
        | [a, b, c, d] => some (front ++ [a * 256 + b, c * 256 + d])
        | _ => none
      else pieces.mapM group?
    | none => none

/-- What stands before and after the first `::`. -/
def cutDouble? : List Char → Option (List Char × List Char)
  | ':' :: ':' :: rest => some ([], rest)
  | c :: rest => (cutDouble? rest).map fun (before, after) => (c :: before, after)
  | [] => none

/-- The eight groups of a host; `::` stands for groups of zero. -/
def eightGroups? (cs : List Char) : Option (List Nat) :=
  match cutDouble? cs with
  | none => (groups? cs).filter (·.length = 8)
  | some (before, after) => do
    if before.any (· = '.') then none
    let front ← groups? before
    let back ← groups? after
    if front.length + back.length ≤ 7 then
      some (front ++ List.replicate (8 - front.length - back.length) 0 ++ back)
    else none

def zeros (groups : List Nat) : Nat := (groups.takeWhile (· = 0)).length

/-- The first of the longest runs of zeros: where it begins and how long it is. -/
def longestZeros (groups : List Nat) : Nat × Nat :=
  (List.range groups.length).foldl (fun best i =>
    let n := zeros (groups.drop i)
    if best.2 < n then (i, n) else best) (0, 0)

def renderGroups (groups : List Nat) : String :=
  ":".intercalate (groups.map fun n => String.ofList (Nat.toDigits 16 n))

/-- The groups, with `::` for the longest run of at least two zeros. -/
def renderV6 (groups : List Nat) : String :=
  let (start, n) := longestZeros groups
  if n < 2 then renderGroups groups
  else renderGroups (groups.take start) ++ "::" ++ renderGroups (groups.drop (start + n))

def render : Host → String
  | name s => s
  | v4 number => renderV4 number
  | v6 groups => "[" ++ renderV6 groups ++ "]"

def isNameChar (c : Char) : Bool :=
  0x20 < c.toNat && c.toNat < 0x7F &&
    c ∉ ['#', '%', '/', ':', '<', '>', '?', '@', '[', '\\', ']', '^', '|']

/-- Whether a part of the name stands for an international one. -/
def isInternational (name : List Char) : Bool := (name.splitOn '.').any ("xn--".toList.isPrefixOf ·)

/-- Whether requests can be made to the host; some characters of a name do not fit their first line. -/
def fitsRequest : Host → Bool
  | name s => s.toList.all (· ∉ ['"', '\x60', '\x7b', '\x7d'])
  | v4 _ | v6 _ => true

def parse? (cs : List Char) : Option Host :=
  match cs with
  | '[' :: rest =>
    if rest.getLast? = some ']' then (eightGroups? rest.dropLast).map v6 else none
  | cs => do
    let text ← Text.Utf8.decode? (percentDecode (Text.Utf8.encode (String.ofList cs)))
    let name := text.toList.map Char.toLower
    if name = [] ∨ ¬ name.all isNameChar ∨ isInternational name then none
    else if endsInNumber name then (number? name).map v4
    else some (.name (String.ofList name))

example : (parse? "LocalHost".toList).map render = some "localhost" := by decide +kernel
example : (parse? "127.1".toList).map render = some "127.0.0.1" := by decide +kernel
example : (parse? "[0:0::1]".toList).map render = some "[::1]" := by decide +kernel

end Host

end LogRelay.Http
