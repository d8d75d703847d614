import LogRelay.Yaml.Cursor

/-!
The four ways to write a scalar in YAML over several lines: plain, quoted, literal and folded. Each
reader returns the text of the scalar and the place after it.
-/

namespace LogRelay.Yaml

inductive Style where
  | plain | quoted | block
  deriving DecidableEq, Repr

/-- Blanks and line breaks between two pieces of a scalar. -/
structure Between where
  /-- Blanks before the first break. -/
  gaps : List Char := []
  /-- The first break, if there is one. -/
  first : List Char := []
  /-- The breaks after the first. -/
  more : List Char := []
  /-- Whether a break has been passed. -/
  broken : Bool := false

/-- What stands for the pieces between: blanks as they are, a single break as a space, and of
several breaks all but the first. -/
def Between.fold (b : Between) : List Char :=
  if b.broken then
    if b.first = ['\n'] then (if b.more = [] then [' '] else b.more) else b.first ++ b.more
  else b.gaps

/-- Passes over blanks and breaks. A tab before the column `indent` of a new line is refused. -/
def scanBetween (indent : Int) : (fuel : Nat) → Between → Cursor → Option (Between × Cursor)
  | 0, b, c => some (b, c)
  | fuel + 1, b, c =>
    match c.peek? with
    | none => some (b, c)
    | some x =>
      if isGap x then
        if b.broken && c.column < indent && x == '\t' then none
        else scanBetween indent fuel (if b.broken then b else { b with gaps := b.gaps ++ [x] }) c.skip
      else if isBreak x then
        scanBetween indent fuel
          (if b.broken then { b with more := b.more ++ c.breakText }
            else { b with broken := true, first := c.breakText }) c.skipBreak
      else some (b, c)

/-- The length of the piece of a plain scalar that comes next; `none` for a colon that a flow
collection does not allow. -/
def plainLength (flow : Bool) : List Char → Option Nat
  | [] => some 0
  | x :: rest =>
    let next := rest.head?
    if isGap x || isBreak x then some 0
    else if flow && x == ':' && next.any ([',', '?', '[', ']', '\x7b', '\x7d'].contains ·) then none
    else if x == ':' && (next.map fun y => isGap y || isBreak y).getD true then some 0
    else if flow && [',', '[', ']', '\x7b', '\x7d'].contains x then some 0
    else (plainLength flow rest).map (· + 1)

/-- A plain scalar; also whether it was followed by a line break. `indent` is the least column of
its further lines in block context. -/
def scanPlain (flow : Bool) (indent : Int) :
    (fuel : Nat) → (text : List Char) → Between → Cursor → Option (List Char × Bool × Cursor)
  | 0, text, b, c => some (text, b.broken, c)
  | fuel + 1, text, b, c =>
    if c.atDocumentMark || c.sees '#' then some (text, b.broken, c)
    else
      match plainLength flow c.rest with
      | none => none
      | some n =>
        let text := if n = 0 then text else text ++ b.fold ++ c.rest.take n
        let b := if n = 0 then b else {}
        let c := c.skipMany n
        match c.peek? with
        | none => some (text, b.broken, c)
        | some x =>
          if !(isGap x || isBreak x) then some (text, b.broken, c)
          else
            match scanBetween indent (c.rest.length + 1) b c with
            | none => none
            | some (b, c) =>
              if !flow && c.column < indent then some (text, b.broken, c)
              else scanPlain flow indent fuel text b c

def hexValue? (cs : List Char) : Option Nat :=
  cs.foldlM (fun n c =>
    if c.isDigit then some (n * 16 + (c.toNat - 48))
    else if 'a' ≤ c ∧ c ≤ 'f' then some (n * 16 + (c.toNat - 87))
    else if 'A' ≤ c ∧ c ≤ 'F' then some (n * 16 + (c.toNat - 55))
    else none) 0

/-- What the letter after a backslash stands for; `inr` if that many hexadecimal digits follow. -/
def escape? : Char → Option (Char ⊕ Nat)
  | '0' => some (.inl '\x00')
  | 'a' => some (.inl '\x07')
  | 'b' => some (.inl '\x08')
  | 't' => some (.inl '\t')
  | '\t' => some (.inl '\t')
  | 'n' => some (.inl '\n')
  | 'v' => some (.inl '\x0b')
  | 'f' => some (.inl '\x0c')
  | 'r' => some (.inl '\r')
  | 'e' => some (.inl '\x1b')
  | ' ' => some (.inl ' ')
  | '"' => some (.inl '"')
  | '/' => some (.inl '/')
  | '\\' => some (.inl '\\')
  | 'N' => some (.inl '\u0085')
  | '_' => some (.inl '\u00a0')
  | 'L' => some (.inl '\u2028')
  | 'P' => some (.inl '\u2029')
  | 'x' => some (.inr 2)
  | 'u' => some (.inr 4)
  | 'U' => some (.inr 8)
  | _ => none

/-- A piece of a quoted scalar up to a blank, a break or the closing quote; also whether it ended
with an escaped line break. -/
def scanQuotedPiece (quote : Char) :
    (fuel : Nat) → (text : List Char) → Cursor → Option (List Char × Bool × Cursor)
  | 0, _, _ => none
  | fuel + 1, text, c =>
    match c.rest with
    | [] => some (text, false, c)
    | x :: rest =>
      if isGap x || isBreak x then some (text, false, c)
      else if x == quote then
        if quote == '\'' && rest.head? == some '\'' then
          scanQuotedPiece quote fuel (text ++ ['\'']) (c.skipMany 2)
        else some (text, false, c)
      else if quote == '"' && x == '\\' then
        match rest with
        | [] => none
        | y :: digits =>
          if isBreak y then some (text, true, c.skip.skipBreak)
          else
            match escape? y with
            | none => none
            | some (.inl z) => scanQuotedPiece quote fuel (text ++ [z]) (c.skipMany 2)
            | some (.inr n) =>
              match hexValue? (digits.take n) with
              | some v =>
                if digits.length < n ∨ (0xD800 ≤ v ∧ v ≤ 0xDFFF) ∨ 0x10FFFF < v then none
                else scanQuotedPiece quote fuel (text ++ [Char.ofNat v]) (c.skipMany (n + 2))
              | none => none
      else scanQuotedPiece quote fuel (text ++ [x]) c.skip

/-- A quoted scalar whose opening quote is already passed. -/
def scanQuoted (quote : Char) : (fuel : Nat) → (text : List Char) → Cursor →
    Option (List Char × Cursor)
  | 0, _, _ => none
  | fuel + 1, text, c =>
    if c.atDocumentMark || c.atEnd then none
    else
      match scanQuotedPiece quote (c.rest.length + 1) text c with
      | none => none
      | some (text, escaped, c) =>
        if !escaped && c.sees quote then some (text, c.skip)
        else
          match scanBetween (-1) (c.rest.length + 1) { broken := escaped } c with
          | none => none
          | some (b, c) =>
            let text := text ++ b.fold
            if c.sees quote && !c.atDocumentMark then some (text, c.skip)
            else scanQuoted quote fuel text c

/-- What is kept of the line breaks at the end of a block scalar. -/
inductive Chomping where
  | strip | clip | keep
  deriving DecidableEq, Repr

/-- Passes over indentation and empty lines before a line of a block scalar. Without an indentation
given (`indent = 0`) that of the deepest line passed is found. -/
def scanBlockBreaks (indent : Nat) : (fuel : Nat) → (deepest : Nat) → (breaks : List Char) →
    Cursor → Option (Nat × List Char × Cursor)
  | 0, deepest, breaks, c => some (deepest, breaks, c)
  | fuel + 1, deepest, breaks, c =>
    let spaces := (c.rest.takeWhile (· == ' ')).length
    let c := c.skipMany (if indent = 0 then spaces else min spaces (indent - c.column))
    let deepest := max deepest c.column
    if (indent = 0 ∨ c.column < indent) ∧ c.sees '\t' then none
    else if c.atEnd ∨ ¬ c.atLineEnd then some (deepest, breaks, c)
    else scanBlockBreaks indent fuel deepest (breaks ++ c.breakText) c.skipBreak

/-- The lines of a block scalar. `first` is the break before the next line, `more` are those of
empty lines, `indented` says whether the line before began with a blank. -/
def scanBlockLines (literal : Bool) (indent : Nat) :
    (fuel : Nat) → (text first more : List Char) → (indented : Bool) → Cursor →
      Option (List Char × List Char × List Char × Cursor)
  | 0, text, first, more, _, c => some (text, first, more, c)
  | fuel + 1, text, first, more, indented, c =>
    if c.column ≠ indent ∨ c.atEnd then some (text, first, more, c)
    else
      let blank := c.seesAt 0 isGap
      let joint :=
        if !literal && first == ['\n'] && !indented && !blank then (if more = [] then [' '] else [])
        else first
      let line := c.rest.takeWhile fun x => !isBreak x
      let text := text ++ joint ++ more ++ line
      let c := c.skipMany line.length
      match scanBlockBreaks indent (c.rest.length + 1) 0 [] c.skipBreak with
      | none => none
      | some (_, more, after) => scanBlockLines literal indent fuel text c.breakText more blank after

/-- The indicators after the mark of a block scalar: chomping and indentation, in either order. -/
def blockHeader? (c : Cursor) : Option (Chomping × Nat × Cursor) :=
  let chomping? (c : Cursor) : Option Chomping :=
    if c.sees '+' then some .keep else if c.sees '-' then some .strip else none
  let digit? (c : Cursor) : Option Nat :=
    (c.peek?).bind fun x => if x.isDigit then some (x.toNat - 48) else none
  match chomping? c with
  | some k =>
    match digit? c.skip with
    | some 0 => none
    | some n => some (k, n, c.skip.skip)
    | none => some (k, 0, c.skip)
  | none =>
    match digit? c with
    | some 0 => none
    | some n =>
      match chomping? c.skip with
      | some k => some (k, n, c.skip.skip)
      | none => some (.clip, n, c.skip)
    | none => some (.clip, 0, c)

/-- Passes over the rest of a line that may only hold a comment. -/
def skipLineRest? (c : Cursor) : Option Cursor :=
  let c := c.skipWhile isGap
  let c := if c.sees '#' then c.skipWhile (fun x => !isBreak x) else c
  if c.atLineEnd then some c.skipBreak else none

/-- A block scalar whose mark is already passed; `parent` is the indentation around it. -/
def scanBlock (literal : Bool) (parent : Int) (c : Cursor) : Option (List Char × Cursor) := do
  let (chomping, step, c) ← blockHeader? c
  let c ← skipLineRest? c
  let given := if step = 0 then 0 else (max parent 0).toNat + step
  let (deepest, breaks, c) ← scanBlockBreaks given (c.rest.length + 1) 0 [] c
  let indent := if step = 0 then max (max deepest (parent + 1).toNat) 1 else given
  let (text, first, more, c) ← scanBlockLines literal indent (c.rest.length + 1) [] [] breaks false c
  return (text ++ (if chomping = .strip then [] else first) ++
    (if chomping = .keep then more else []), c)

end LogRelay.Yaml
