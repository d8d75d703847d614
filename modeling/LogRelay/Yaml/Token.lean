import LogRelay.Yaml.Scalar

/-!
The tokens of a YAML text. Indentation becomes tokens of its own, and the token for a key is put in
front of the key once its colon is found, so that what follows needs no look at the layout.
-/

namespace LogRelay.Yaml

inductive Token where
  | versionDirective (major minor : Nat)
  | tagDirective (handle lead : List Char)
  | documentStart | documentEnd
  | blockSequenceStart | blockMappingStart | blockEnd
  | flowSequenceStart | flowSequenceEnd | flowMappingStart | flowMappingEnd
  | blockEntry | flowEntry | key | value
  | alias (name : List Char)
  | anchor (name : List Char)
  | tag (handle suffix : List Char)
  | scalar (text : List Char) (style : Style)
  deriving DecidableEq, Repr

/-- A place where a key may have begun, found out only at its colon. -/
structure KeyStart where
  /-- There must be a key, since the indentation says so. -/
  required : Bool
  /-- How many tokens came before. -/
  position : Nat
  index : Nat
  line : Nat
  column : Nat

structure Scan where
  cursor : Cursor
  tokens : Array Token := #[]
  /-- The column of the innermost block collection; `-1` outside of all. -/
  indent : Int := -1
  outer : List Int := []
  /-- Whether a key may begin here. -/
  keyAllowed : Bool := true
  /-- The possible start of a key at each level of flow collections, innermost first. -/
  keys : List (Option KeyStart) := [none]

namespace Scan

def inFlow (s : Scan) : Bool := 1 < s.keys.length

def push (s : Scan) (t : Token) : Scan := { s with tokens := s.tokens.push t }

/-- Adds a token before others. -/
def insert (s : Scan) (position : Nat) (t : Token) : Scan :=
  { s with tokens :=
      s.tokens.extract 0 position ++ #[t] ++ s.tokens.extract position s.tokens.size }

/-- Closes the block collections that are indented more than the column. -/
def closeBlocksTo (s : Scan) (column : Int) : Scan :=
  if s.inFlow then s
  else
    let deeper := (s.indent :: s.outer).takeWhile (column < ·)
    let left := (s.indent :: s.outer).dropWhile (column < ·)
    { s with
      tokens := s.tokens ++ Array.replicate deeper.length Token.blockEnd
      indent := left.head?.getD (-1)
      outer := left.drop 1 }

/-- Opens a block collection at a column that is indented more than the one around it. -/
def openBlock (s : Scan) (column : Nat) (position : Nat) (t : Token) : Scan :=
  if s.inFlow ∨ (column : Int) ≤ s.indent then s
  else { s.insert position t with indent := column, outer := s.indent :: s.outer }

/-- Gives up the possible start of a key at this level; a required one must not be given up. -/
def dropKey? (s : Scan) : Option Scan :=
  match s.keys with
  | some k :: rest => if k.required then none else some { s with keys := none :: rest }
  | _ => some s

/-- Remembers that a key may begin here. -/
def markKey? (s : Scan) : Option Scan :=
  if s.keyAllowed then do
    let s ← s.dropKey?
    let c := s.cursor
    let start : KeyStart :=
      ⟨!s.inFlow && s.indent == c.column, s.tokens.size, c.index, c.line, c.column⟩
    return { s with keys := some start :: s.keys.drop 1 }
  else some s

/-- Forgets the starts of keys that lie on an earlier line or too far back. -/
def expireKeys? (s : Scan) : Option Scan := do
  let c := s.cursor
  let expired (k : KeyStart) : Bool := k.line < c.line || k.index + 1024 < c.index
  if s.keys.any fun k => k.any fun k => expired k && k.required then none
  else return { s with keys := s.keys.map (·.filter fun k => !expired k) }

/-- Passes over byte order marks, blanks, comments and line breaks. A tab separates only where no key
may begin. -/
def skipToToken : (fuel : Nat) → Scan → Scan
  | 0, s => s
  | fuel + 1, s =>
    let tabs := s.inFlow || !s.keyAllowed
    let c := s.cursor.skipMark.skipWhile fun x => x == ' ' || (tabs && x == '\t')
    let c := if c.sees '#' then c.skipWhile (fun x => !isBreak x) else c
    if c.seesAt 0 isBreak then
      skipToToken fuel { s with cursor := c.skipBreak, keyAllowed := s.keyAllowed || !s.inFlow }
    else { s with cursor := c }

/-- The characters of a tag that need no escape. -/
def isTagChar (verbatim : Bool) (c : Char) : Bool :=
  isWordChar c || ";/?:@&=+$.!~*'()".toList.contains c || (verbatim && ",[]".toList.contains c)

/-- The characters of a tag, with bytes written after percent signs decoded. -/
def scanTagText (verbatim : Bool) : (fuel : Nat) → List UInt8 → Cursor →
    Option (List UInt8 × Cursor)
  | 0, _, _ => none
  | fuel + 1, text, c =>
    match c.peek? with
    | none => some (text, c)
    | some x =>
      if x == '%' then
        match hexValue? ((c.rest.drop 1).take 2) with
        | some v =>
          if c.rest.length < 3 then none
          else scanTagText verbatim fuel (text ++ [UInt8.ofNat v]) (c.skipMany 3)
        | none => none
      else if isTagChar verbatim x then
        scanTagText verbatim fuel (text ++ String.utf8EncodeChar x) c.skip
      else some (text, c)

/-- The text of a tag after its handle or `<`; it must not be empty together with `lead`. -/
def tagText? (verbatim : Bool) (lead : List Char) (c : Cursor) : Option (List Char × Cursor) := do
  let (bytes, after) ← scanTagText verbatim (c.rest.length + 1) [] c
  let text ← String.fromUTF8? bytes.toByteArray
  if lead.isEmpty && text.isEmpty then none
  else return (lead.drop 1 ++ text.toList, after)

/-- A handle: `!`, `!!` or `!name!`; also how a tag begins that has none of its own. -/
def tagHandle? (c : Cursor) : Option (List Char × Cursor) :=
  if c.sees '!' then
    let word := (c.rest.drop 1).takeWhile isWordChar
    let c := c.skipMany (word.length + 1)
    if c.sees '!' then some ('!' :: word ++ ['!'], c.skip) else some ('!' :: word, c)
  else none

def scanTag? (inFlow : Bool) (c : Cursor) : Option (Token × Cursor) := do
  let ((t, c) : Token × Cursor) ←
    if c.seesAt 1 (· == '<') then do
      let (suffix, c) ← tagText? true [] (c.skipMany 2)
      if c.sees '>' then pure (Token.tag [] suffix, c.skip) else none
    else do
      let (handle, c) ← tagHandle? c
      if 1 < handle.length && handle.getLast? == some '!' then
        let (suffix, c) ← tagText? false [] c
        pure (Token.tag handle suffix, c)
      else
        let (suffix, c) ← tagText? false handle c
        if suffix.isEmpty then pure (Token.tag [] ['!'], c) else pure (Token.tag ['!'] suffix, c)
  if c.separatedAt 0 || (inFlow && c.sees ',') then return (t, c) else none

/-- The name of an anchor or alias, and the place after it. -/
def anchorName? (c : Cursor) : Option (List Char × Cursor) :=
  let name := c.rest.takeWhile isWordChar
  let c := c.skipMany name.length
  if name.isEmpty then none
  else if c.separatedAt 0 || c.seesAt 0 ("?:,]\x7d%@`".toList.contains ·) then some (name, c)
  else none

def versionNumber? (c : Cursor) : Option (Nat × Cursor) :=
  let digits := c.rest.takeWhile Char.isDigit
  if digits.isEmpty ∨ 9 < digits.length then none
  else some (digits.foldl (fun n d => 10 * n + (d.toNat - 48)) 0, c.skipMany digits.length)

/-- A directive, to the end of its line. -/
def scanDirective? (c : Cursor) : Option (Token × Cursor) := do
  let c := c.skip
  let name := c.rest.takeWhile isWordChar
  let c := c.skipMany name.length
  if ¬ c.separatedAt 0 then none
  let c := c.skipWhile isGap
  let ((t, c) : Token × Cursor) ←
    if name == "YAML".toList then do
      let (major, c) ← versionNumber? c
      if ¬ c.sees '.' then none
      let (minor, c) ← versionNumber? c.skip
      pure (Token.versionDirective major minor, c)
    else if name == "TAG".toList then do
      let (handle, c) ← tagHandle? c
      if handle.getLast? ≠ some '!' ∨ ¬ c.seesAt 0 isGap then none
      let (lead, c) ← tagText? true [] (c.skipWhile isGap)
      if ¬ c.separatedAt 0 then none
      pure (Token.tagDirective handle lead, c)
    else none
  return (t, ← skipLineRest? c)

/-- Adds a token made from the next characters, where a key may begin. -/
def pushContent? (s : Scan) (scan : Scan → Option (Token × Cursor)) : Option Scan := do
  let s ← s.markKey?
  let (t, c) ← scan s
  return { s.push t with cursor := c, keyAllowed := false }

/-- Adds a token of that many characters that gives up a possible key. -/
def pushMark? (s : Scan) (t : Token) (size : Nat) (keyAllowed : Bool) : Option Scan := do
  let s ← s.dropKey?
  return { s.push t with cursor := s.cursor.skipMany size, keyAllowed := keyAllowed }

/-- Opens a block collection here, where that is allowed. -/
def openBlockHere? (s : Scan) (t : Token) : Option Scan :=
  if s.inFlow then some s
  else if s.keyAllowed then some (s.openBlock s.cursor.column s.tokens.size t)
  else none

/-- The colon of a mapping: it settles a possible key, or follows an explicit or empty one. -/
def pushColon? (s : Scan) : Option Scan :=
  match s.keys with
  | some k :: rest =>
    let s := (s.insert k.position .key).openBlock k.column k.position .blockMappingStart
    some { s.push .value with
      cursor := s.cursor.skip, keyAllowed := false, keys := none :: rest }
  | _ => do
    let s ← s.openBlockHere? .blockMappingStart
    return { s.push .value with cursor := s.cursor.skip, keyAllowed := !s.inFlow }

/-- A plain scalar; after a line break a key may begin again. -/
def pushPlain? (s : Scan) : Option Scan := do
  let s ← s.markKey?
  let (text, broken, c) ←
    scanPlain s.inFlow (s.indent + 1) (s.cursor.rest.length + 1) [] {} s.cursor
  return { s.push (.scalar text .plain) with cursor := c, keyAllowed := broken }

/-- Ends all block collections, as a document mark and a directive do. -/
def leaveBlocks? (s : Scan) : Option Scan := do
  let s ← (s.closeBlocksTo (-1)).dropKey?
  return { s with keyAllowed := false }

/-- Whether a plain scalar may begin with the next characters. -/
def startsPlain (s : Scan) (x : Char) : Bool :=
  let c := s.cursor
  !(c.separatedAt 0 || "-?:,[]\x7b\x7d#&*!|>'\"%@`".toList.contains x) ||
    (x == '-' && !c.seesAt 1 isGap) ||
    (!s.inFlow && (x == '?' || x == ':') && !c.separatedAt 1)

/-- Adds the token that begins with `x`. -/
def pushToken? (s : Scan) (x : Char) : Option Scan :=
  let c := s.cursor
  if c.column == 0 && x == '%' then do
    let s ← s.leaveBlocks?
    let (t, c) ← scanDirective? s.cursor
    return { s.push t with cursor := c }
  else if c.atDocumentMark then do
    let s ← s.leaveBlocks?
    return { s.push (if x == '-' then .documentStart else .documentEnd) with
      cursor := c.skipMany 3 }
  else if x == '[' || x == '\x7b' then do
    let s ← s.markKey?
    return { s.push (if x == '[' then .flowSequenceStart else .flowMappingStart) with
      cursor := c.skip, keyAllowed := true, keys := none :: s.keys }
  else if x == ']' || x == '\x7d' then do
    let s ← s.dropKey?
    let keys := if s.inFlow then s.keys.drop 1 else s.keys
    return { s.push (if x == ']' then .flowSequenceEnd else .flowMappingEnd) with
      cursor := c.skip, keyAllowed := false, keys := keys }
  else if x == ',' then s.pushMark? .flowEntry 1 true
  else if x == '-' && c.separatedAt 1 then do
    (← s.openBlockHere? .blockSequenceStart).pushMark? .blockEntry 1 true
  else if x == '?' && (s.inFlow || c.separatedAt 1) then do
    (← s.openBlockHere? .blockMappingStart).pushMark? .key 1 (!s.inFlow)
  else if x == ':' && (s.inFlow || c.separatedAt 1) then s.pushColon?
  else if x == '*' then s.pushContent? fun s => do
    let (name, c) ← anchorName? s.cursor.skip
    return (.alias name, c)
  else if x == '&' then s.pushContent? fun s => do
    let (name, c) ← anchorName? s.cursor.skip
    return (.anchor name, c)
  else if x == '!' then s.pushContent? fun s => scanTag? s.inFlow s.cursor
  else if (x == '|' || x == '>') && !s.inFlow then do
    let s ← s.dropKey?
    let (text, c) ← scanBlock (x == '|') s.indent c.skip
    return { s.push (.scalar text .block) with cursor := c, keyAllowed := true }
  else if x == '\'' || x == '"' then s.pushContent? fun s => do
    let (text, c) ← scanQuoted x (c.rest.length + 1) [] s.cursor.skip
    return (.scalar text .quoted, c)
  else if s.startsPlain x then s.pushPlain?
  else none

def run : (fuel : Nat) → Scan → Option (Array Token)
  | 0, _ => none
  | fuel + 1, s => do
    let s ← (s.skipToToken (s.cursor.rest.length + 1)).expireKeys?
    let s := s.closeBlocksTo s.cursor.column
    match s.cursor.peek? with
    | none =>
      let s ← s.leaveBlocks?
      return s.tokens
    | some x => run fuel (← s.pushToken? x)

end Scan

def Token.scan? (text : List Char) : Option (Array Token) :=
  if text.all isAllowed then Scan.run (text.length + 2) { cursor := { rest := text } } else none

end LogRelay.Yaml
