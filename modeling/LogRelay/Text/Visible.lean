/-!
Text that is safe on a terminal: the control characters that a terminal acts on are spelled out. Line
ends and tabs stay as they are.
-/

namespace LogRelay.Text

/-- A character as it is shown. -/
def visibleChar (c : Char) : List Char :=
  if c ∈ ['\x07', '\x08', '\x0c', '\x1b', '\x7f'] then
    ['\\', 'x', Nat.digitChar (c.toNat / 16), Nat.digitChar (c.toNat % 16)]
  else if 0x80 ≤ c.toNat ∧ c.toNat ≤ 0x9F then
    ['\\', 'u', '\x7b', Nat.digitChar (c.toNat / 16), Nat.digitChar (c.toNat % 16), '\x7d']
  else [c]

def visible (s : String) : String := String.ofList (s.toList.flatMap visibleChar)

example : visible "a\x1b[1mb\n" = "a\\x1b[1mb\n" := by decide +kernel

end LogRelay.Text
