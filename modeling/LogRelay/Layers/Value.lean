import LogRelay.Decimal.Shortest
import LogRelay.Text.Quoted

/-!
The values that layers of settings are made of. Whole numbers keep how they were read, as messages
tell them apart. A dictionary is ordered by its keys, and holds each once.
-/

namespace LogRelay.Layers

inductive Value where
  | unit
  | boolean (b : Bool)
  /-- A whole number of 64 bits without sign. -/
  | unsigned (n : Nat)
  /-- A whole number of 64 bits written with a minus. -/
  | signed (n : Int)
  /-- A whole number of more than 64 bits, in 128 bits without sign. -/
  | wideUnsigned (n : Nat)
  /-- A whole number with a minus that 64 bits do not hold, in 128 bits. -/
  | wideSigned (n : Int)
  | float (x : Decimal.Binary64)
  | text (s : String)
  | list (items : List Value)
  | dict (entries : List (String × Value))
  deriving Repr

abbrev Dict := List (String × Value)

namespace Dict

def insert (key : String) (v : Value) : Dict → Dict
  | [] => [(key, v)]
  | (k, w) :: d =>
    if key < k then (key, v) :: (k, w) :: d
    else if key = k then (key, v) :: d
    else (k, w) :: insert key v d

def get? (key : String) (d : Dict) : Option Value := d.lookup key

end Dict

namespace Value

/-- The value as messages name it. -/
def describe : Value → String
  | unit => "unit"
  | boolean b => "bool " ++ (if b then "true" else "false")
  | unsigned n => "unsigned int `" ++ toString n ++ "`"
  | signed n => "signed int `" ++ toString n ++ "`"
  | wideUnsigned n => "integer `" ++ toString n ++ "` as u128"
  | wideSigned n => "integer `" ++ toString n ++ "` as i128"
  | float x => "float `" ++ x.renderPlain ++ "`"
  | text s => "string " ++ Text.Quoted.text s
  | list _ => "sequence"
  | dict _ => "map"

mutual

/-- The upper layer over the lower one: dictionaries are merged key by key, anything else of the
upper layer replaces what is below. -/
def lay : (upper lower : Value) → Value
  | dict d, lower =>
    match lower with
    | dict e => dict (layEntries d e)
    | _ => dict d
  | upper, _ => upper

/-- The entries of an upper dictionary put over a lower one. -/
def layEntries : Dict → Dict → Dict
  | [], e => e
  | (key, v) :: d, e =>
    let below := layEntries d e
    match Dict.get? key e with
    | some w => Dict.insert key (lay v w) below
    | none => Dict.insert key v below

end

end Value

end LogRelay.Layers
