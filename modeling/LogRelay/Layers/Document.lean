import LogRelay.Layers.Value
import LogRelay.Yaml.Node

/-!
A layer of settings written in YAML: the core schema for plain scalars, the standard tags, anchors
and aliases. What the layer holds is a mapping; a text that holds nothing is an empty one.
-/

namespace LogRelay.Layers

open Decimal (Binary64)
open Yaml (Node Style Properties)

def ofDigits? (base : Nat) (cs : List Char) : Option Nat :=
  if cs.isEmpty then none
  else cs.foldlM (fun n c =>
    let d :=
      if c.isDigit then c.toNat - 48
      else if 'a' ≤ c ∧ c ≤ 'z' then c.toNat - 87
      else if 'A' ≤ c ∧ c ≤ 'Z' then c.toNat - 55
      else base
    if d < base then some (n * base + d) else none) 0

/-- A sign in front and the rest: whether it is a minus. -/
def splitSign (cs : List Char) : Bool × List Char :=
  match cs with
  | '-' :: rest => (true, rest)
  | '+' :: rest => (false, rest)
  | _ => (false, cs)

/-- A number of decimal digits with an optional point and exponent. -/
def decimal? (cs : List Char) : Option (Nat × Int) := do
  let whole := cs.takeWhile Char.isDigit
  let rest := cs.dropWhile Char.isDigit
  let (decimals, rest) :=
    match rest with
    | '.' :: rest => (rest.takeWhile Char.isDigit, rest.dropWhile Char.isDigit)
    | _ => ([], rest)
  if whole.isEmpty && decimals.isEmpty then none
  let digits ← ofDigits? 10 (whole ++ decimals)
  match rest with
  | [] => return (digits, -decimals.length)
  | e :: rest =>
    if e ≠ 'e' ∧ e ≠ 'E' then none
    let (down, ds) := splitSign rest
    let n ← ofDigits? 10 ds
    return (digits, (if down then -(n : Int) else n) - decimals.length)

/-- A binary number in decimal digits, with an optional sign. -/
def readFloat? (cs : List Char) : Option Binary64 := do
  let (negative, rest) := splitSign cs
  let (digits, exponent) ← decimal? rest
  return Binary64.ofDecimal negative digits exponent

/-- Zeros in front make text of what looks like a number. -/
def isPaddedNumber (cs : List Char) : Bool :=
  match (splitSign cs).2 with
  | '0' :: d :: rest => (d :: rest).all Char.isDigit
  | _ => false

/-- A whole number, with a sign and with the marks of the bases 16, 8 and 2: whether it has a minus,
and its size. -/
def whole? (cs : List Char) : Option (Bool × Nat) :=
  let (negative, rest) := splitSign cs
  let based? : Option Nat :=
    match rest with
    | '0' :: 'x' :: digits => ofDigits? 16 digits
    | '0' :: 'o' :: digits => ofDigits? 8 digits
    | '0' :: 'b' :: digits => ofDigits? 2 digits
    | _ => none
  (based? <|> if isPaddedNumber cs then none else ofDigits? 10 rest).map (negative, ·)

/-- The whole number as a value, if 128 bits hold it. -/
def ofWhole? : Bool × Nat → Option Value
  | (false, n) =>
    if n < Nat.pow 2 64 then some (.unsigned n)
    else if n < Nat.pow 2 128 then some (.wideUnsigned n)
    else none
  | (true, n) =>
    if n ≤ Nat.pow 2 63 then some (.signed (-n))
    else if n ≤ Nat.pow 2 127 then some (.wideSigned (-n))
    else none

def isNull (s : String) : Bool := ["null", "Null", "NULL", "~"].contains s

def truth? (s : String) : Option Bool :=
  if ["true", "True", "TRUE"].contains s then some true
  else if ["false", "False", "FALSE"].contains s then some false
  else none

/-- A number that is not whole, or one of the names of the values that are not finite. -/
def scalarFloat? (s : String) : Option Binary64 :=
  if [".inf", ".Inf", ".INF", "+.inf", "+.Inf", "+.INF"].contains s then some (.infinite false)
  else if ["-.inf", "-.Inf", "-.INF"].contains s then some (.infinite true)
  else if [".nan", ".NaN", ".NAN"].contains s then some .nan
  else (readFloat? s.toList).filter fun x => !x.isInfinite

/-- What a plain scalar without tag stands for. -/
def ofPlain (s : String) : Value :=
  if s = "" ∨ isNull s then .unit
  else
    match truth? s with
    | some b => .boolean b
    | none =>
      match (whole? s.toList).bind ofWhole? with
      | some v => v
      | none =>
        if isPaddedNumber s.toList then .text s
        else
          match scalarFloat? s with
          | some x => .float x
          | none => .text s

/-- A tag of the document's own, which nothing here understands. -/
def isLocalTag (tag : List Char) : Bool :=
  tag.head? = some '!' && 1 < tag.length

/-- What a scalar stands for, if its tag allows that. -/
def ofScalar? (p : Properties) (s : String) (style : Style) : Option Value :=
  match p.tag.map String.ofList with
  | none => some (if style = .plain then ofPlain s else .text s)
  | some tag =>
    if isLocalTag tag.toList then none
    else if tag = "tag:yaml.org,2002:bool" then (truth? s).map .boolean
    else if tag = "tag:yaml.org,2002:int" then (whole? s.toList).bind ofWhole?
    else if tag = "tag:yaml.org,2002:float" then (scalarFloat? s).map .float
    else if tag = "tag:yaml.org,2002:null" then (if isNull s then some .unit else none)
    else if tag = "!" && style = .plain then some (ofPlain s)
    else some (.text s)

/-- How many collections may lie within each other. -/
def maxDepth : Nat := 128

/-- A node whose aliases are numbers. -/
inductive Linked where
  | alias (number : Nat)
  | scalar (properties : Properties) (text : String) (style : Style)
  | sequence (tag : Option (List Char)) (items : List Linked)
  | mapping (tag : Option (List Char)) (pairs : List (Linked × Linked))

/-- What is known of a document while its anchors are numbered. An anchor gets the number of anchor
names known before it. A name stands for the number it got last, and a number for the anchored node
that began last. -/
structure Linking where
  /-- The number of each name. -/
  names : List (List Char × Nat) := []
  /-- The anchored nodes that began under each number, the last first, by their place. -/
  places : List (Nat × Nat) := []
  /-- The anchored nodes by their place. -/
  nodes : List (Nat × Linked) := []
  /-- How many nodes there are, ends of collections included. -/
  size : Nat := 0

namespace Linking

/-- Enters the anchor of a node that begins; the answer is its place. -/
def enter (l : Linking) (p : Properties) : Option Nat × Linking :=
  match p.anchor with
  | none => (none, { l with size := l.size + 1 })
  | some name =>
    let number := l.names.length
    (some l.size,
      { l with
        names := (name, number) :: l.names.filter (·.1 != name)
        places := (number, l.size) :: l.places
        size := l.size + 1 })

/-- Keeps the node of a place. -/
def keep (l : Linking) (place : Option Nat) (n : Linked) : Linking :=
  match place with
  | none => l
  | some k => { l with nodes := (k, n) :: l.nodes }

/-- The node an alias stands for. -/
def target? (l : Linking) (number : Nat) : Option Linked := do
  l.nodes.lookup (← l.places.lookup number)

end Linking

mutual

/-- Numbers the anchors and resolves the names of aliases, which must be known. -/
def link? : Node → Linking → Option (Linked × Linking)
  | .alias name, l => do
    let number ← l.names.lookup name
    return (.alias number, { l with size := l.size + 1 })
  | .scalar p text style, l =>
    let (place, l) := l.enter p
    let n := Linked.scalar p (String.ofList text) style
    some (n, l.keep place n)
  | .sequence p items, l => do
    let (place, l) := l.enter p
    let (items, l) ← linkAll? items l
    let n := Linked.sequence p.tag items
    return (n, { l.keep place n with size := l.size + 1 })
  | .mapping p pairs, l => do
    let (place, l) := l.enter p
    let (pairs, l) ← linkPairs? pairs l
    let n := Linked.mapping p.tag pairs
    return (n, { l.keep place n with size := l.size + 1 })

def linkAll? : List Node → Linking → Option (List Linked × Linking)
  | [], l => some ([], l)
  | n :: ns, l => do
    let (x, l) ← link? n l
    let (xs, l) ← linkAll? ns l
    return (x :: xs, l)

def linkPairs? : List (Node × Node) → Linking → Option (List (Linked × Linked) × Linking)
  | [], l => some ([], l)
  | (k, v) :: ps, l => do
    let (k, l) ← link? k l
    let (v, l) ← link? v l
    let (ps, l) ← linkPairs? ps l
    return ((k, v) :: ps, l)

end

def isLocal (tag : Option (List Char)) : Bool := tag.any isLocalTag

/-- The key a node stands for, and the aliases that may still be followed. -/
def expandKey? (target? : Nat → Option Linked) (jumps : Nat) : Linked → Option (String × Nat)
  | .scalar _ text _ => some (text, jumps)
  | .alias number =>
    match jumps, target? number with
    | jumps + 1, some (.scalar _ text _) => some (text, jumps)
    | _, _ => none
  | _ => none

/-- Follows an alias to what it stands for. -/
def follow? (target? : Nat → Option Linked) (jumps : Nat) : Linked → Option (Linked × Nat)
  | .alias number =>
    match jumps, target? number with
    | jumps + 1, some n => some (n, jumps)
    | _, _ => none
  | n => some (n, jumps)

/-- The value a node stands for, and the aliases that may still be followed. Of two pairs with one
key the later counts. -/
def expand? (target? : Nat → Option Linked) :
    (depth jumps : Nat) → Linked → Option (Value × Nat)
  | depth, jumps, n => do
    let (n, jumps) ← follow? target? jumps n
    match n, depth with
    | .scalar p text style, _ => return (← ofScalar? p text style, jumps)
    | .sequence tag items, depth + 1 =>
      if isLocal tag then none
      else
        let (values, jumps) ← items.foldlM (fun (values, jumps) item => do
          let (v, jumps) ← expand? target? depth jumps item
          return (values ++ [v], jumps)) ([], jumps)
        return (.list values, jumps)
    | .mapping tag pairs, depth + 1 =>
      if isLocal tag then none
      else
        let (entries, jumps) ← pairs.foldlM (fun (entries, jumps) (k, v) => do
          let (key, jumps) ← expandKey? target? jumps k
          let (v, jumps) ← expand? target? depth jumps v
          return (Dict.insert key v entries, jumps)) (([] : Dict), jumps)
        return (.dict entries, jumps)
    | _, _ => none

/-- How often aliases may be followed, for each node of the document. -/
def jumpsPerNode : Nat := 100

/-- The dictionary a document holds. A document that is empty, or an empty scalar, holds an empty
one; a mapping's own tag does not matter. -/
def dictOfNode? : Option Node → Option Dict
  | none => some []
  | some n => do
    let (n, l) ← link? n {}
    match n with
    | .scalar _ text _ => if text = "" then some [] else none
    | .mapping _ pairs =>
      match ← expand? l.target? maxDepth (jumpsPerNode * l.size) (.mapping none pairs) with
      | (.dict d, _) => some d
      | _ => none
    | _ => none

def ofYaml? (text : String) : Option Dict := do
  let tokens ← Yaml.Token.scan? text.toList
  dictOfNode? (← Node.ofTokens? tokens.toList)

end LogRelay.Layers
