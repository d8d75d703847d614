/-!
A place in a YAML text, with the line and column that decide on indentation, and the character
classes of the format. Positions count characters; a line break counts as the one or two characters
it is written with.
-/

namespace LogRelay.Yaml

/-- Ends a line. -/
def isBreak (c : Char) : Bool :=
  c == '\r' || c == '\n' || c == '\u0085' || c == '\u2028' || c == '\u2029'

/-- Separates on a line. -/
def isGap (c : Char) : Bool :=
  c == ' ' || c == '\t'

/-- Can be part of an anchor, a handle or a directive name. -/
def isWordChar (c : Char) : Bool :=
  c.isAlphanum || c == '_' || c == '-'

/-- May occur in a text at all. -/
def isAllowed (c : Char) : Bool :=
  let n := c.toNat
  n == 9 || n == 10 || n == 13 || (0x20 ≤ n && n ≤ 0x7E) || n == 0x85 ||
    (0xA0 ≤ n && n ≤ 0xFFFD) || 0x10000 ≤ n

/-- What is left of a text, and where that is. -/
structure Cursor where
  rest : List Char
  index : Nat := 0
  line : Nat := 0
  column : Nat := 0
  deriving Repr

namespace Cursor

def peek? (c : Cursor) : Option Char := c.rest.head?

def at? (c : Cursor) (n : Nat) : Option Char := (c.rest.drop n).head?

def sees (c : Cursor) (x : Char) : Bool := c.peek? == some x

/-- Whether such a character comes that many places on. -/
def seesAt (c : Cursor) (n : Nat) (p : Char → Bool) : Bool := ((c.at? n).map p).getD false

/-- Whether a blank, a line break or the end comes that many places on. -/
def separatedAt (c : Cursor) (n : Nat) : Bool :=
  ((c.at? n).map fun x => isGap x || isBreak x).getD true

def atEnd (c : Cursor) : Bool := c.rest.isEmpty

def atLineEnd (c : Cursor) : Bool := ((c.peek?).map isBreak).getD true

/-- One character further on the same line. -/
def skip (c : Cursor) : Cursor :=
  { c with rest := c.rest.drop 1, index := c.index + 1, column := c.column + 1 }

/-- That many characters further on the same line. -/
def skipMany (c : Cursor) (n : Nat) : Cursor :=
  { c with rest := c.rest.drop n, index := c.index + n, column := c.column + n }

/-- Past the characters satisfying `p`, which are no line breaks. -/
def skipWhile (c : Cursor) (p : Char → Bool) : Cursor :=
  c.skipMany (c.rest.takeWhile p).length

/-- Past the byte order mark that a line may begin with. It counts as a column of its own. -/
def skipMark (c : Cursor) : Cursor :=
  if c.column == 0 && c.sees '\uFEFF' then c.skip else c

def skipBreak (c : Cursor) : Cursor :=
  match c.rest with
  | '\r' :: '\n' :: rest =>
    { rest := rest, index := c.index + 2, line := c.line + 1, column := 0 }
  | x :: rest =>
    if isBreak x then { rest := rest, index := c.index + 1, line := c.line + 1, column := 0 } else c
  | [] => c

/-- The line break that comes next as it counts in a scalar: the two Unicode separators stay, all
others are line feeds. -/
def breakText (c : Cursor) : List Char :=
  match c.peek? with
  | some x =>
    if x == '\u2028' || x == '\u2029' then [x] else if isBreak x then ['\n'] else []
  | none => []

/-- Whether a line starts here with the mark of a document's start or end. -/
def atDocumentMark (c : Cursor) : Bool :=
  c.column == 0 && (c.rest.take 3 == ['-', '-', '-'] || c.rest.take 3 == ['.', '.', '.']) &&
    c.separatedAt 3

end Cursor

end LogRelay.Yaml
