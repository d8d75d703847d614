import LogRelay.Postgres.Line
import LogRelay.Text.Blank
import LogRelay.Text.DecimalDigit

/-!
Parsing of PostgreSQL server log entries such as

    [2372]: [3-1] db=postgres,user=admin LOG:  duration: 2.190 ms

An entry is a header, a level marker on its first physical line, and a message. The leftmost marker
counts; the header is then searched from left to right for a process id, a database and a user.
-/

namespace LogRelay.Postgres

/-- The characters that separate a marker from what surrounds it. -/
def isGap (c : Char) : Bool :=
  c == ' ' || c == '\t'

/-- What follows `lead` in the text, if the text starts with it. -/
def stripLead? : (lead text : List Char) → Option (List Char)
  | [], text => some text
  | _ :: _, [] => none
  | a :: lead, b :: text => if a = b then stripLead? lead text else none

/-- The text without the character `c` at its end, if it is there. -/
def stripLast? (c : Char) (text : List Char) : Option (List Char) :=
  if text.getLast? = some c then some text.dropLast else none

/-- A marker at the very start of the text: a level name, a colon and at least one gap. The message
that remains has no gap in front. -/
def markerHere? (text : List Char) : Option (Level × List Char) :=
  Level.all.findSome? fun level =>
    match stripLead? (level.name.toList ++ [':']) text with
    | some (c :: rest) => if isGap c then some (level, rest.dropWhile isGap) else none
    | _ => none

/-- The leftmost marker that follows a gap on the first physical line, with the text before that
gap. -/
def markerAfterGap? : List Char → Option (List Char × Level × List Char)
  | [] => none
  | c :: rest =>
    if c = '\n' then none
    else
      match if isGap c then markerHere? rest else none with
      | some found => some ([], found)
      | none => (markerAfterGap? rest).map fun (header, found) => (c :: header, found)

/-- The leftmost marker of the first physical line: header, level and message. -/
def marker? (text : List Char) : Option (List Char × Level × List Char) :=
  match markerHere? text with
  | some found => some ([], found)
  | none => markerAfterGap? text

/-- One piece of a header that carries information. -/
inductive HeaderField where
  | pid (digits : List Char)
  | database (value : List Char)
  | username (value : List Char)
  deriving DecidableEq, Repr

def isNameChar (c : Char) : Bool :=
  !(c == ',' || c == ']' || Text.isBlank c)

/-- The longest name at the start of the text, unless it is empty. -/
def name? (text : List Char) : Option (List Char) :=
  let value := text.takeWhile isNameChar
  if value.isEmpty then none else some value

/-- A field that starts exactly here, with the number of characters it takes. -/
def fieldHere? (text : List Char) : Option (HeaderField × Nat) :=
  match text with
  | '[' :: rest =>
    let digits := rest.takeWhile Text.isDecimalDigit
    if !digits.isEmpty && (rest.drop digits.length).head? = some ']' then
      some (.pid digits, digits.length + 2)
    else none
  | 'd' :: 'b' :: '=' :: rest => (name? rest).map fun v => (.database v, v.length + 3)
  | 'u' :: 's' :: 'e' :: 'r' :: '=' :: rest => (name? rest).map fun v => (.username v, v.length + 5)
  | _ => none

/-- The fields from left to right, none overlapping another. The number says how many characters
still belong to the field before. -/
def fieldsFrom : Nat → List Char → List HeaderField
  | _, [] => []
  | n + 1, _ :: rest => fieldsFrom n rest
  | 0, c :: rest =>
    match fieldHere? (c :: rest) with
    | some (field, size) => field :: fieldsFrom (size - 1) rest
    | none => fieldsFrom 0 rest

def headerFields (header : List Char) : List HeaderField :=
  fieldsFrom 0 header

/-- A process id is a signed 32-bit number in ASCII digits. -/
def pidOfDigits? (digits : List Char) : Option Nat :=
  if digits.all Char.isDigit then
    let n := digits.foldl (fun n c => 10 * n + (c.toNat - 48)) 0
    if n < Nat.pow 2 31 then some n else none
  else none

namespace HeaderField

def pid? : HeaderField → Option Int
  | pid digits => (pidOfDigits? digits).map Int.ofNat
  | _ => none

def database? : HeaderField → Option String
  | database value => some (String.ofList value)
  | _ => none

def username? : HeaderField → Option String
  | username value => some (String.ofList value)
  | _ => none

end HeaderField

/-- An entry from its parts; of each kind of field the first usable one counts. -/
def Line.ofParts (header : List Char) (level : Level) (message : List Char) : Line where
  occurredAt := none
  level := level
  backendPid := (headerFields header).findSome? HeaderField.pid?
  database := (headerFields header).findSome? HeaderField.database?
  username := (headerFields header).findSome? HeaderField.username?
  content := String.ofList message

/-- The entry between `lead` and the line terminator, which may be preceded by a carriage return. -/
def body? (lead text : List Char) : Option (List Char) := do
  let line ← stripLast? '\n' text
  stripLead? lead ((stripLast? '\r' line).getD line)

def parseLine : LineParser := fun lead text => do
  let body ← body? lead.toList text.toList
  let (header, level, message) ← marker? body
  return Line.ofParts header level message

end LogRelay.Postgres
