import LogRelay.Base64
import LogRelay.Text.Blank
import LogRelay.Text.Utf8

/-!
PEM text: bytes in base64 between a line that names what they are and one that ends it. Anything may
stand in front, and headers may come before the data.
-/

namespace LogRelay.Key

structure Pem where
  label : String
  data : List UInt8
  deriving DecidableEq, Repr

namespace Pem

/-- Splits a text at a marker. A character that breaks off a partial match is not looked at again as
the beginning of another. `found` are the characters of the marker already matched. -/
def splitFrom (marker : List Char) :
    (found : Nat) → (before : List Char) → List Char → Option (List Char × List Char)
  | _, _, [] => none
  | found, before, c :: rest =>
    let found := if marker[found]? = some c then found + 1 else 0
    if found = marker.length then
      some ((before.drop (marker.length - 1)).reverse, rest)
    else splitFrom marker found (c :: before) rest

/-- What comes before and after a marker. -/
def split? (marker : String) (text : List Char) : Option (List Char × List Char) :=
  splitFrom marker.toList 0 [] text

/-- Whether every line of the headers holds a colon. -/
def validHeaders (text : List Char) : Bool :=
  (lines text).all fun line => line.contains ':'
where
  /-- The lines of a text; an end of line after the last is none of its own. -/
  lines : List Char → List (List Char)
    | [] => []
    | c :: rest =>
      if c = '\n' then [] :: lines rest
      else
        match lines rest with
        | [] => [[c]]
        | first :: others => (c :: first) :: others

/-- The first labelled piece of a text. -/
def parse? (text : String) : Option Pem := do
  let (_, rest) ← split? "-----BEGIN " text.toList
  let (label, rest) ← split? "-----" rest
  let rest := rest.dropWhile fun c => c == ' ' || c == '\t' || c == '\r' || c == '\n'
  let (body, rest) ← split? "-----END " rest
  let (closing, _) ← split? "-----" rest
  if label.isEmpty || label != closing then none
  let (headers, data) := ((split? "\n\n" body) <|> split? "\r\n\r\n" body).getD ([], body)
  let symbols := String.ofList (data.filter fun c => !Text.isBlank c)
  match Base64.decode (Text.Utf8.encode symbols) with
  | .ok bytes => if validHeaders headers then return ⟨String.ofList label, bytes⟩ else none
  | .error _ => none

end Pem

end LogRelay.Key
