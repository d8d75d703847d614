import LogRelay.Layers.Document
import LogRelay.Text.Blank

/-!
A layer of settings taken from environment variables. The variables that count begin with a common
lead, which is read without regard to case; dots in what follows lead into dictionaries. Values have
a small notation of their own, and whatever does not fit it is text.
-/

namespace LogRelay.Layers

abbrev Environment := List (String × String)

def Environment.get? (env : Environment) (name : String) : Option String := env.lookup name

namespace Notation

/-- A value read from the front of a text, and the rest. -/
abbrev Reader (α : Type) := List Char → Option (α × List Char)

/-- What an unquoted value may hold. -/
def isBare (c : Char) : Bool := c ∉ [',', '\x7b', '\x7d', '[', ']']

def isKeyChar (c : Char) : Bool := c.isAlphanum || c == '_' || c == '-'

def skipBlanks (cs : List Char) : List Char := cs.dropWhile Text.isAsciiBlank

/-- Exactly that many hexadecimal digits as a character. -/
def codePoint? (n : Nat) (cs : List Char) : Option Char := do
  let v ← Yaml.hexValue? (cs.take n)
  if cs.length < n ∨ (0xD800 ≤ v ∧ v ≤ 0xDFFF) ∨ 0x10FFFF < v then none
  else return Char.ofNat v

def shortEscape? : Char → Option Char
  | '"' => some '"'
  | '\\' => some '\\'
  | 'b' => some '\x08'
  | 'f' => some '\x0c'
  | 'n' => some '\n'
  | 'r' => some '\r'
  | 't' => some '\t'
  | _ => none

/-- The text up to the closing quote. The number says how many characters still belong to the escape
before. -/
def quotedFrom : Nat → Reader (List Char)
  | _, [] => none
  | n + 1, _ :: rest => quotedFrom n rest
  | 0, c :: rest =>
    if c = '"' then some ([], rest)
    else if c = '\\' then
      match rest.head? with
      | none => none
      | some 'u' => do
        let x ← codePoint? 4 (rest.drop 1)
        let (text, left) ← quotedFrom 5 rest
        return (x :: text, left)
      | some 'U' => do
        let x ← codePoint? 8 (rest.drop 1)
        let (text, left) ← quotedFrom 9 rest
        return (x :: text, left)
      | some e => do
        let x ← shortEscape? e
        let (text, left) ← quotedFrom 1 rest
        return (x :: text, left)
    else if c = '\t' ∨ (0x20 ≤ c.toNat ∧ c ≠ '\x7f') then do
      let (text, left) ← quotedFrom 0 rest
      return (c :: text, left)
    else none

/-- A whole number in decimal digits, with an optional sign, if 64 bits hold it. -/
def whole? (cs : List Char) : Option Value :=
  match cs with
  | '-' :: ds => (ofDigits? 10 ds).bind fun n =>
      if n ≤ Nat.pow 2 63 then some (.signed (-n)) else none
  | _ => (ofDigits? 10 (splitSign cs).2).bind fun n =>
      if n < Nat.pow 2 64 then some (.unsigned n) else none

/-- What an unquoted text stands for: a number with a point, a whole number, or itself. -/
def ofBare (cs : List Char) : Value :=
  let float? := if cs.contains '.' then (readFloat? cs).map Value.float else none
  (float? <|> whole? cs).getD (.text (String.ofList cs))

/-- The key of an entry of a dictionary. -/
def key? (cs : List Char) : Option (String × List Char) :=
  match cs with
  | '"' :: rest => (quotedFrom 0 rest).map fun (text, left) => (String.ofList text, left)
  | _ =>
    let word := cs.takeWhile isKeyChar
    if word.isEmpty then none else some (String.ofList word, cs.dropWhile isKeyChar)

/-- What stands between two marks, separated by commas; a comma may end it. -/
def delimited? {α : Type} (close : Char) (item : Reader α) : (fuel : Nat) → Reader (List α)
  | 0, _ => none
  | fuel + 1, cs =>
    if cs.head? = some close then some ([], cs.drop 1)
    else do
      let (x, rest) ← item cs
      match rest with
      | c :: after =>
        if c = close then return ([x], after)
        else if c = ',' then
          let (xs, left) ← delimited? close item fuel after
          return (x :: xs, left)
        else none
      | [] => none

/-- A value with the blanks around it. -/
def value? : (fuel : Nat) → Reader Value
  | 0, _ => none
  | fuel + 1, cs => do
    let cs := skipBlanks cs
    let ((v, rest) : Value × List Char) ←
      match cs with
      | 't' :: 'r' :: 'u' :: 'e' :: rest => some (.boolean true, rest)
      | 'f' :: 'a' :: 'l' :: 's' :: 'e' :: rest => some (.boolean false, rest)
      | '[' :: rest => do
        let (items, left) ← delimited? ']' (value? fuel) (rest.length + 1) rest
        pure (.list items, left)
      | '\x7b' :: rest => do
        let (entries, left) ← delimited? '\x7d' (fun cs => do
          let (k, left) ← key? (skipBlanks cs)
          match skipBlanks left with
          | '=' :: left =>
            let (v, left) ← value? fuel left
            pure ((k, v), left)
          | _ => none) (rest.length + 1) rest
        pure (.dict (entries.foldl (fun d (k, v) => Dict.insert k v d) []), left)
      | '"' :: rest => do
        let (text, left) ← quotedFrom 0 rest
        pure (.text (String.ofList text), left)
      | '\'' :: c :: rest =>
        match rest with
        | '\'' :: left => some (.text (String.singleton c), left)
        | _ => none
      | '\'' :: [] => none
      | _ =>
        let bare := cs.takeWhile isBare
        some (ofBare (Text.trimWhile Text.isBlank bare), cs.dropWhile isBare)
    return (v, skipBlanks rest)

def ofText (s : String) : Value :=
  match value? (s.toList.length + 1) s.toList with
  | some (v, []) => v
  | _ => .text s

end Notation

/-- What the names of all variables that count begin with. -/
def variableLead : String := "DBFLEET_"

/-- The names after the lead that are never settings. -/
def reservedNames : List String := ["servers", "config"]

def lowercase (s : String) : String := String.ofList (s.toList.map Char.toLower)

/-- The keys a variable's name leads to. `none` for a variable that does not count: one without the
lead, a reserved one, and one with an empty key. -/
def keysOfVariable? (name : String) : Option (List String) :=
  let lead := variableLead.toList.length
  if lowercase (String.ofList (name.toList.take lead)) ≠ lowercase variableLead then none
  else
    let rest := String.ofList (name.toList.drop lead)
    if reservedNames.contains (lowercase rest) then none
    else
      let keys := (lowercase (Text.trim rest)).toList.splitOn '.'
      if keys.any List.isEmpty then none else some (keys.map String.ofList)

/-- A value below a path of keys. -/
def nest : List String → Value → Value
  | [], v => v
  | key :: keys, v => .dict [(key, nest keys v)]

/-- The layer of the environment; later variables go over earlier ones. -/
def ofEnvironment (env : Environment) : Dict :=
  env.foldl (fun d (name, text) =>
    match keysOfVariable? name with
    | some (key :: keys) =>
      Value.layEntries [(key, nest keys (Notation.ofText text))] d
    | _ => d) []

end LogRelay.Layers
