import LogRelay.Proofs.Json.Object

/-!
The texts of JSON values, as bytes. A value may nest to any depth, have blanks around each of its
parts, spell its strings in any way and repeat a name. What a literal spells is a second question
(`Spells`): a lone half of a surrogate pair stands for nothing, and still belongs to a value.
-/

namespace LogRelay.Json

/-- Blanks alone. -/
def IsBlanks (bytes : List UInt8) : Prop := ∀ b ∈ bytes, isBlank b = true

/-! ### String literals -/

/-- Four hexadecimal digits, and the number they stand for. -/
inductive IsHex : List UInt8 → Nat → Prop
  | digits {a b c d : UInt8} {k l m n : Nat} (ha : hexDigit? a = some k) (hb : hexDigit? b = some l)
      (hc : hexDigit? c = some m) (hd : hexDigit? d = some n) :
      IsHex [a, b, c, d] (((k * 16 + l) * 16 + m) * 16 + n)

/-- What stands after a backslash. -/
inductive IsEscape : List UInt8 → Prop
  | short {b c : UInt8} (h : shortEscape? b = some c) : IsEscape [b]
  | hex {digits : List UInt8} {n : Nat} (h : IsHex digits n) : IsEscape (byte 'u' :: digits)

/-- What stands between the quotes of a string literal. -/
inductive IsLiteral : List UInt8 → Prop
  | nil : IsLiteral []
  | plain {b : UInt8} {body : List UInt8} (hb : IsPlain b) (more : IsLiteral body) :
      IsLiteral (b :: body)
  | escape {run body : List UInt8} (hrun : IsEscape run) (more : IsLiteral body) :
      IsLiteral (byte '\\' :: (run ++ body))

/-- What stands after a backslash, and the bytes it stands for. -/
inductive Unescapes : List UInt8 → List UInt8 → Prop
  | short {b c : UInt8} (h : shortEscape? b = some c) : Unescapes [b] [c]
  | hex {digits : List UInt8} {n : Nat} (h : IsHex digits n) (hhigh : isHighSurrogate n = false)
      (hlow : isLowSurrogate n = false) : Unescapes (byte 'u' :: digits) (codePoint n)
  | pair {digits digits' : List UInt8} {high low : Nat} (h : IsHex digits high)
      (h' : IsHex digits' low) (hhigh : isHighSurrogate high = true)
      (hlow : isLowSurrogate low = true) :
      Unescapes (byte 'u' :: (digits ++ byte '\\' :: byte 'u' :: digits'))
        (codePoint (0x10000 + (high - 0xD800) * 0x400 + (low - 0xDC00)))

/-- What stands between the quotes, and the bytes it stands for. -/
inductive Spells : List UInt8 → List UInt8 → Prop
  | nil : Spells [] []
  | plain {b : UInt8} {body out : List UInt8} (hb : IsPlain b) (more : Spells body out) :
      Spells (b :: body) (b :: out)
  | escape {run body one out : List UInt8} (hrun : Unescapes run one) (more : Spells body out) :
      Spells (byte '\\' :: (run ++ body)) (one ++ out)

theorem Spells.isLiteral {body out : List UInt8} (h : Spells body out) : IsLiteral body := by
  induction h with
  | nil => exact .nil
  | plain hb _ ih => exact .plain hb ih
  | escape hrun _ ih =>
    cases hrun with
    | short h => exact .escape (.short h) ih
    | hex h => exact .escape (.hex h) ih
    | pair h h' =>
      -- The grammar sees the two halves as two escapes.
      have hhalves := IsLiteral.escape (.hex h) (.escape (.hex h') ih)
      simpa only [List.cons_append, List.append_assoc] using hhalves

/-! ### Numbers -/

/-- Digits, at least one. -/
structure IsDigits (bytes : List UInt8) : Prop where
  nonempty : bytes ≠ []
  digits : ∀ b ∈ bytes, isDigit b = true

/-- The digits before the point; no zero stands in front of others. -/
inductive IsWhole : List UInt8 → Prop
  | zero : IsWhole [byte '0']
  | digits {b : UInt8} {more : List UInt8} (hb : isDigit b = true) (hzero : b ≠ byte '0')
      (hmore : ∀ d ∈ more, isDigit d = true) : IsWhole (b :: more)

/-- The point and the digits after it, if there are any. -/
inductive IsFraction : List UInt8 → Prop
  | absent : IsFraction []
  | digits {ds : List UInt8} (h : IsDigits ds) : IsFraction (byte '.' :: ds)

/-- The exponent, if there is one. -/
inductive IsExponent : List UInt8 → Prop
  | absent : IsExponent []
  | digits {mark : UInt8} {sign ds : List UInt8} (hmark : mark = byte 'e' ∨ mark = byte 'E')
      (hsign : sign = [] ∨ sign = [byte '+'] ∨ sign = [byte '-']) (h : IsDigits ds) :
      IsExponent (mark :: (sign ++ ds))

/-- A number without a sign. -/
inductive IsMagnitude : List UInt8 → Prop
  | parts {whole fraction exponent : List UInt8} (hwhole : IsWhole whole)
      (hfraction : IsFraction fraction) (hexponent : IsExponent exponent) :
      IsMagnitude (whole ++ (fraction ++ exponent))

/-- A number. -/
inductive IsNumber : List UInt8 → Prop
  | positive {n : List UInt8} (h : IsMagnitude n) : IsNumber n
  | negative {n : List UInt8} (h : IsMagnitude n) : IsNumber (byte '-' :: n)

/-! ### Lists and objects -/

/-- A value with the blanks before and after it. -/
structure Item where
  before : List UInt8
  value : List UInt8
  after : List UInt8

/-- A member of an object: its name as it is spelled and its value, with blanks between. -/
structure Member where
  before : List UInt8
  key : List UInt8
  gap : List UInt8
  item : Item

namespace Item

/-- The bytes of the item. -/
def text (i : Item) : List UInt8 := i.before ++ (i.value ++ i.after)

/-- Nothing but blanks is around the value. -/
structure IsPadded (i : Item) : Prop where
  before : IsBlanks i.before
  after : IsBlanks i.after

end Item

namespace Member

/-- The bytes of the member. -/
def text (m : Member) : List UInt8 :=
  m.before ++ (byte '"' :: (m.key ++ (byte '"' :: (m.gap ++ (byte ':' :: m.item.text)))))

/-- All but the value is in order. -/
structure IsFramed (m : Member) : Prop where
  before : IsBlanks m.before
  key : IsLiteral m.key
  gap : IsBlanks m.gap
  item : m.item.IsPadded

/-- The name of the member. -/
def Names (m : Member) (name : String) : Prop := Spells m.key (utf8 name.toList)

end Member

/-- The parts after the first, each after a comma. -/
def moreParts (parts : List (List UInt8)) : List UInt8 := parts.flatMap (byte ',' :: ·)

@[simp] theorem moreParts_nil : moreParts [] = [] := rfl

@[simp] theorem moreParts_cons (part : List UInt8) (parts : List (List UInt8)) :
    moreParts (part :: parts) = byte ',' :: (part ++ moreParts parts) :=
  List.flatMap_cons

/-- Parts between two brackets. Where there are none, there may be blanks. -/
inductive Encloses (left right : UInt8) : List (List UInt8) → List UInt8 → Prop
  | empty {gap : List UInt8} (h : IsBlanks gap) : Encloses left right [] (left :: (gap ++ [right]))
  | parts (part : List UInt8) (parts : List (List UInt8)) :
      Encloses left right (part :: parts) (left :: (part ++ (moreParts parts ++ [right])))

namespace Encloses

variable {left right : UInt8} {part : List UInt8} {parts : List (List UInt8)} {v : List UInt8}

theorem exists_cons (h : Encloses left right parts v) : ∃ more, v = left :: more := by
  cases h <;> exact ⟨_, rfl⟩

theorem exists_gap (h : Encloses left right [] v) :
    ∃ gap, IsBlanks gap ∧ v = left :: (gap ++ [right]) := by
  cases h with
  | empty h => exact ⟨_, h, rfl⟩

theorem eq_of_cons (h : Encloses left right (part :: parts) v) :
    v = left :: (part ++ (moreParts parts ++ [right])) := by
  cases h
  rfl

end Encloses

/-- The text of a value, without blanks around it. -/
inductive IsValue : List UInt8 → Prop
  | null : IsValue (utf8 ['n', 'u', 'l', 'l'])
  | yes : IsValue (utf8 ['t', 'r', 'u', 'e'])
  | no : IsValue (utf8 ['f', 'a', 'l', 's', 'e'])
  | number {n : List UInt8} (h : IsNumber n) : IsValue n
  | text {body : List UInt8} (h : IsLiteral body) : IsValue (byte '"' :: (body ++ [byte '"']))
  | list {items : List Item} {v : List UInt8}
      (text : Encloses (byte '[') (byte ']') (items.map Item.text) v)
      (padded : ∀ i ∈ items, i.IsPadded) (values : ∀ i ∈ items, IsValue i.value) : IsValue v
  | object {members : List Member} {v : List UInt8}
      (text : Encloses (byte '\x7b') (byte '\x7d') (members.map Member.text) v)
      (framed : ∀ m ∈ members, m.IsFramed) (values : ∀ m ∈ members, IsValue m.item.value) : IsValue v

/-- The text of a list of those elements. -/
structure IsListOf (items : List Item) (v : List UInt8) : Prop where
  text : Encloses (byte '[') (byte ']') (items.map Item.text) v
  padded : ∀ i ∈ items, i.IsPadded
  values : ∀ i ∈ items, IsValue i.value

/-- The text of an object of those members. -/
structure IsObjectOf (members : List Member) (v : List UInt8) : Prop where
  text : Encloses (byte '\x7b') (byte '\x7d') (members.map Member.text) v
  framed : ∀ m ∈ members, m.IsFramed
  values : ∀ m ∈ members, IsValue m.item.value

theorem IsListOf.isValue {items : List Item} {v : List UInt8} (h : IsListOf items v) : IsValue v :=
  .list h.text h.padded h.values

theorem IsObjectOf.isValue {members : List Member} {v : List UInt8} (h : IsObjectOf members v) :
    IsValue v :=
  .object h.text h.framed h.values

end LogRelay.Json
