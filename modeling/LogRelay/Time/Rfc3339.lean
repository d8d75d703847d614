import LogRelay.Time.Instant

/-!
Instants as RFC 3339 text. Reading takes any offset below a day, any fraction (digits after the
ninth are dropped) and a leap second; writing is always in UTC and uses the shortest of 0, 3, 6 or
9 fraction digits that is exact.
-/

namespace LogRelay.Time.Rfc3339

def digit? (c : Char) : Option Nat :=
  if c.isDigit then some (c.toNat - 48) else none

def pair? (a b : Char) : Option Nat := do
  return 10 * (← digit? a) + (← digit? b)

def ofDigits (cs : List Char) : Nat :=
  cs.foldl (fun n c => 10 * n + (c.toNat - 48)) 0

/-- An optional decimal fraction of a second, in nanoseconds, and the rest of the text. -/
def fraction? : List Char → Option (Nat × List Char)
  | '.' :: rest =>
    let digits := (rest.takeWhile Char.isDigit).take 9
    if digits.isEmpty then none
    else some (ofDigits digits * Nat.pow 10 (9 - digits.length), rest.dropWhile Char.isDigit)
  | rest => some (0, rest)

/-- The direction of an offset; the minus sign U+2212 counts as a hyphen. -/
def sign? (c : Char) : Option Int :=
  if c = '+' then some 1
  else if c = '-' ∨ c = '\u2212' then some (-1)
  else none

/-- The whole of the text as an offset from UTC, in seconds. -/
def offset? : List Char → Option Int
  | ['Z'] => some 0
  | ['z'] => some 0
  | [s, h1, h2, ':', m1, m2] => do
    let sign ← sign? s
    let hours ← pair? h1 h2
    let minutes ← pair? m1 m2
    if hours < 24 ∧ minutes < 60 then return sign * (hours * 3600 + minutes * 60) else none
  | _ => none

/-- The letter between date and time. -/
def isSeparator (c : Char) : Bool :=
  c == 'T' || c == 't' || c == ' '

/-- Seconds after midnight and extra nanoseconds of a clock reading; `:60` is the leap second. -/
def clock? (hour minute second : Nat) : Option (Nat × Nat) :=
  if hour < 24 ∧ minute < 60 ∧ second < 60 then some (hour * 3600 + minute * 60 + second, 0)
  else if hour < 24 ∧ minute < 60 ∧ second = 60 then
    some (hour * 3600 + minute * 60 + 59, nanosPerSecond)
  else none

def read? : List Char → Option Instant
  | y1 :: y2 :: y3 :: y4 :: '-' :: o1 :: o2 :: '-' :: d1 :: d2 :: sep :: h1 :: h2 :: ':' :: n1 ::
      n2 :: ':' :: s1 :: s2 :: rest => do
    let century ← pair? y1 y2
    let year ← pair? y3 y4
    let month ← pair? o1 o2
    let day ← pair? d1 d2
    let hour ← pair? h1 h2
    let minute ← pair? n1 n2
    let second ← pair? s1 s2
    let date : Date := ⟨(century * 100 + year : Nat), month, day⟩
    let (clock, leap) ← clock? hour minute second
    let (nanos, zone) ← fraction? rest
    let offset ← offset? zone
    if isSeparator sep && date.isValid then
      return ⟨Instant.startOf date + clock - offset, nanos + leap⟩
    else none
  | _ => none

/-- Reads RFC 3339 text; `none` when it is anything else. -/
def parse? (s : String) : Option Instant :=
  read? s.toList

/-- Decimal digits of `n`, with zeros in front up to `width`. -/
def padded (width n : Nat) : List Char :=
  let ds := Nat.toDigits 10 n
  List.replicate (width - ds.length) '0' ++ ds

/-- A year of four digits as it is, any other with its sign. -/
def writeYear (y : Int) : List Char :=
  if 0 ≤ y ∧ y ≤ 9999 then padded 4 y.toNat
  else (if y < 0 then '-' else '+') :: padded 4 y.natAbs

/-- The shortest exact fraction of 0, 3, 6 or 9 digits. -/
def writeFraction (nanos : Nat) : List Char :=
  if nanos = 0 then []
  else if nanos % 1000000 = 0 then '.' :: padded 3 (nanos / 1000000)
  else if nanos % 1000 = 0 then '.' :: padded 6 (nanos / 1000)
  else '.' :: padded 9 nanos

def write (t : Instant) : List Char :=
  let date := Date.ofDayNumber (t.second / 86400)
  let clock := (t.second % 86400).toNat
  let leap := nanosPerSecond ≤ t.nano
  let second := clock % 60 + if leap then 1 else 0
  let nanos := if leap then t.nano - nanosPerSecond else t.nano
  writeYear date.year ++ '-' :: padded 2 date.month ++ '-' :: padded 2 date.day ++
    'T' :: padded 2 (clock / 3600) ++ ':' :: padded 2 (clock / 60 % 60) ++
    ':' :: padded 2 second ++ writeFraction nanos ++ ['Z']

def render (t : Instant) : String :=
  String.ofList (write t)

example : (parse? "2024-02-29T23:59:60.5-00:30").map render = some "2024-03-01T00:29:60.500Z" := by
  decide +kernel

end LogRelay.Time.Rfc3339
