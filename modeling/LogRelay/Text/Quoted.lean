import LogRelay.Text.Graphic

/-!
Quoted text for messages: the quote and the backslash are escaped by a backslash, five controls have
letters of their own, and every other character that is not graphic is written as its code point in
braces.
-/

namespace LogRelay.Text.Quoted

def escape (c : Char) : List Char :=
  if c = '\x00' then ['\\', '0']
  else if c = '\t' then ['\\', 't']
  else if c = '\r' then ['\\', 'r']
  else if c = '\n' then ['\\', 'n']
  else if c = '\\' then ['\\', '\\']
  else if c = '"' then ['\\', '"']
  else if isGraphic c then [c]
  else ['\\', 'u', '\x7b'] ++ Nat.toDigits 16 c.toNat ++ ['\x7d']

def text (s : String) : String :=
  String.ofList ('"' :: s.toList.flatMap escape ++ ['"'])

example : text "a\"\x01é'" = "\"a\\\"\\u\x7b1\x7dé'\"" := by decide +kernel

end LogRelay.Text.Quoted
