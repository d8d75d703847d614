/-!
The blank characters of Unicode and the trimming of text by them.

`isBlank` is the property White_Space. Trimming removes blanks from the ends only, so what lies
between the first and the last character that is no blank is never touched.
-/

namespace LogRelay.Text

/-- The Unicode property White_Space. The zero-width characters do not have it. -/
def isBlank (c : Char) : Bool :=
  let n := c.toNat
  (9 ≤ n && n ≤ 13) || n == 0x20 || n == 0x85 || n == 0xA0 || n == 0x1680 ||
    (0x2000 ≤ n && n ≤ 0x200A) || n == 0x2028 || n == 0x2029 || n == 0x202F || n == 0x205F ||
    n == 0x3000

/-- A character that ASCII-only rules skip: tab, line feed, form feed, carriage return, space. -/
def isAsciiBlank (c : Char) : Bool :=
  c == ' ' || c == '\t' || c == '\n' || c == '\x0c' || c == '\r'

/-- Removes the characters satisfying `p` from the end. -/
def dropEndWhile (p : Char → Bool) (cs : List Char) : List Char :=
  (cs.reverse.dropWhile p).reverse

/-- Removes the characters satisfying `p` from both ends. -/
def trimWhile (p : Char → Bool) (cs : List Char) : List Char :=
  dropEndWhile p (cs.dropWhile p)

def trim (s : String) : String :=
  String.ofList (trimWhile isBlank s.toList)

/-- Whether nothing but blanks is there. -/
def isBlankText (s : String) : Bool :=
  s.toList.all isBlank

end LogRelay.Text
