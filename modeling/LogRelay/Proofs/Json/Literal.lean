import LogRelay.Json.Value

/-!
A string literal is read back as the text it was written for, whatever bytes follow it. A character
is written as itself or by one escape, and reading gives its UTF-8 bytes either way.
-/

namespace LogRelay.Json

/-! ### Bytes of characters -/

/-- The UTF-8 bytes of characters. -/
def utf8 (cs : List Char) : List UInt8 := cs.flatMap String.utf8EncodeChar

theorem encode_ofList (cs : List Char) : Text.Utf8.encode (String.ofList cs) = utf8 cs := by
  rw [Text.Utf8.encode, String.toList_ofList, utf8]

theorem decode?_utf8 (s : String) : Text.Utf8.decode? (utf8 s.toList) = some s :=
  Text.Utf8.decode?_encode s

@[simp] theorem utf8_nil : utf8 [] = [] := rfl

@[simp] theorem utf8_append (cs ds : List Char) : utf8 (cs ++ ds) = utf8 cs ++ utf8 ds :=
  List.flatMap_append

theorem utf8_cons (c : Char) (cs : List Char) : utf8 (c :: cs) = String.utf8EncodeChar c ++ utf8 cs :=
  List.flatMap_cons

theorem utf8EncodeChar_of_ascii {c : Char} (h : c.toNat < 128) :
    String.utf8EncodeChar c = [byte c] := by
  have hle : c.val.toNat ≤ 127 := Nat.le_of_lt_succ h
  simp only [String.utf8EncodeChar, hle, if_true]
  rfl

theorem utf8_cons_of_ascii {c : Char} (h : c.toNat < 128) (cs : List Char) :
    utf8 (c :: cs) = byte c :: utf8 cs := by
  rw [utf8_cons, utf8EncodeChar_of_ascii h]
  rfl

theorem toNat_byte {c : Char} (h : c.toNat < 128) : (byte c).toNat = c.toNat := by
  rw [byte, UInt8.toNat_ofNat']
  omega

theorem le_of_mem_utf8EncodeChar {c : Char} (h : 128 ≤ c.toNat) {b : UInt8}
    (hb : b ∈ String.utf8EncodeChar c) : 128 ≤ b.toNat := by
  have hlt : ¬ c.val.toNat ≤ 127 := Nat.not_le.2 h
  simp only [String.utf8EncodeChar, hlt, if_false] at hb
  split at hb
  · simp only [List.mem_cons, List.not_mem_nil, or_false] at hb
    rcases hb with rfl | rfl <;> rw [UInt8.toNat_ofNat'] <;> omega
  · split at hb
    · simp only [List.mem_cons, List.not_mem_nil, or_false] at hb
      rcases hb with rfl | rfl | rfl <;> rw [UInt8.toNat_ofNat'] <;> omega
    · simp only [List.mem_cons, List.not_mem_nil, or_false] at hb
      rcases hb with rfl | rfl | rfl | rfl <;> rw [UInt8.toNat_ofNat'] <;> omega

theorem length_le_utf8 (cs : List Char) : cs.length ≤ (utf8 cs).length := by
  induction cs with
  | nil => exact Nat.le_refl 0
  | cons c cs ih =>
    have hpos := c.utf8Size_pos
    rw [utf8_cons, List.length_append, String.length_utf8EncodeChar, List.length_cons]
    omega

/-! ### One character of a literal -/

/-- A byte that stands for itself in a literal. -/
def IsPlain (b : UInt8) : Prop := b ≠ byte '"' ∧ b ≠ byte '\\' ∧ ¬ b < 0x20

variable {tail more rest : List UInt8}

theorem literalFrom_plain {run : List UInt8} (h : ∀ b ∈ run, IsPlain b)
    (htail : literalFrom 0 tail = .ok (more, rest)) :
    literalFrom 0 (run ++ tail) = .ok (run ++ more, rest) := by
  induction run with
  | nil => exact htail
  | cons b run ih =>
    obtain ⟨hquote, hslash, hcontrol⟩ := h b List.mem_cons_self
    rw [List.cons_append, literalFrom, if_neg hquote, if_neg hslash, if_neg hcontrol,
      ih fun b hb => h b (List.mem_cons_of_mem _ hb)]
    rfl

theorem literalFrom_shortEscape {b out : UInt8} (hb : shortEscape? b = some out)
    (hu : b ≠ byte 'u') (htail : literalFrom 0 tail = .ok (more, rest)) :
    literalFrom 0 (byte '\\' :: b :: tail) = .ok (out :: more, rest) := by
  have hescape : readEscape (b :: tail) = .ok ([out], 1) := by
    rw [readEscape, if_neg hu, hb]
  rw [literalFrom, if_neg (by decide), if_pos rfl, hescape]
  simp only [literalFrom, htail]
  rfl

theorem hexDigit?_digitChar {n : Nat} (h : n < 16) : hexDigit? (byte (Nat.digitChar n)) = some n := by
  have hall : ∀ n < 16, hexDigit? (byte (Nat.digitChar n)) = some n := by decide
  exact hall n h

theorem toNat_digitChar_lt {n : Nat} (h : n < 16) : (Nat.digitChar n).toNat < 128 := by
  have hall : ∀ n < 16, (Nat.digitChar n).toNat < 128 := by decide
  exact hall n h

theorem literalFrom_hexEscape {n : Nat} (h : n < 0x20)
    (htail : literalFrom 0 tail = .ok (more, rest)) :
    literalFrom 0 (byte '\\' :: byte 'u' :: byte '0' :: byte '0' :: byte (Nat.digitChar (n / 16)) ::
      byte (Nat.digitChar (n % 16)) :: tail) = .ok (codePoint n ++ more, rest) := by
  have hzero : hexDigit? (byte '0') = some 0 := rfl
  have hsum : ((0 * 16 + 0) * 16 + n / 16) * 16 + n % 16 = n := by omega
  have hlow : isLowSurrogate n = false := by
    have hlt : ¬ 0xDC00 ≤ n := by omega
    simp [isLowSurrogate, hlt]
  have hhigh : isHighSurrogate n = false := by
    have hlt : ¬ 0xD800 ≤ n := by omega
    simp [isHighSurrogate, hlt]
  have hescape : readEscape (byte 'u' :: byte '0' :: byte '0' :: byte (Nat.digitChar (n / 16)) ::
      byte (Nat.digitChar (n % 16)) :: tail) = .ok (codePoint n, 5) := by
    rw [readEscape, if_pos rfl, readHex, hzero, hexDigit?_digitChar (by omega),
      hexDigit?_digitChar (by omega)]
    simp only [hsum, hlow, hhigh, Bool.false_eq_true, if_false]
  rw [literalFrom, if_neg (by decide), if_pos rfl, hescape]
  simp only [literalFrom, htail]
  rfl

theorem isPlain_of_mem_utf8EncodeChar {c : Char} (hquote : c ≠ '"') (hslash : c ≠ '\\')
    (hcontrol : ¬ c.toNat < 0x20) {b : UInt8} (hb : b ∈ String.utf8EncodeChar c) : IsPlain b := by
  rcases Nat.lt_or_ge c.toNat 128 with hascii | hlarge
  · rw [utf8EncodeChar_of_ascii hascii, List.mem_singleton] at hb
    subst hb
    have hne : ∀ d : Char, d.toNat < 128 → c ≠ d → byte c ≠ byte d := by
      intro d hd hcd heq
      have hnat := congrArg UInt8.toNat heq
      rw [toNat_byte hascii, toNat_byte hd] at hnat
      exact hcd (Char.toNat_inj.1 hnat)
    refine ⟨hne _ (by decide) hquote, hne _ (by decide) hslash, fun hlt => hcontrol ?_⟩
    rw [← toNat_byte hascii]
    exact hlt
  · have hge := le_of_mem_utf8EncodeChar hlarge hb
    refine ⟨?_, ?_, fun hlt => ?_⟩
    · rintro rfl
      exact absurd hge (by decide)
    · rintro rfl
      exact absurd hge (by decide)
    · have hnat : b.toNat < 32 := hlt
      omega

/-- How a character is written in a literal. -/
inductive Escapes : Char → List Char → Prop
  | short {c letter : Char} (hc : String.utf8EncodeChar c = [byte c])
      (hletter : String.utf8EncodeChar letter = [byte letter]) (hu : byte letter ≠ byte 'u')
      (h : shortEscape? (byte letter) = some (byte c)) : Escapes c ['\\', letter]
  | hex {c : Char} (hcontrol : c.toNat < 0x20) : Escapes c
      ['\\', 'u', '0', '0', Nat.digitChar (c.toNat / 16), Nat.digitChar (c.toNat % 16)]
  | itself {c : Char} (hquote : c ≠ '"') (hslash : c ≠ '\\') (hcontrol : ¬ c.toNat < 0x20) :
      Escapes c [c]

theorem escapes_escapeChar (c : Char) : Escapes c (escapeChar c) := by
  by_cases hquote : c = '"'
  · subst hquote
    exact .short rfl rfl (by decide) rfl
  by_cases hslash : c = '\\'
  · subst hslash
    exact .short rfl rfl (by decide) rfl
  by_cases hback : c = '\x08'
  · subst hback
    exact .short rfl rfl (by decide) rfl
  by_cases hform : c = '\x0c'
  · subst hform
    exact .short rfl rfl (by decide) rfl
  by_cases hline : c = '\n'
  · subst hline
    exact .short rfl rfl (by decide) rfl
  by_cases hreturn : c = '\r'
  · subst hreturn
    exact .short rfl rfl (by decide) rfl
  by_cases htab : c = '\t'
  · subst htab
    exact .short rfl rfl (by decide) rfl
  rw [escapeChar, if_neg hquote, if_neg hslash, if_neg hback, if_neg hform, if_neg hline,
    if_neg hreturn, if_neg htab]
  by_cases hcontrol : c.toNat < 0x20
  · rw [if_pos hcontrol]
    exact .hex hcontrol
  · rw [if_neg hcontrol]
    exact .itself hquote hslash hcontrol

theorem literalFrom_escapes {c : Char} {cs : List Char} (h : Escapes c cs)
    (htail : literalFrom 0 tail = .ok (more, rest)) :
    literalFrom 0 (utf8 cs ++ tail) = .ok (String.utf8EncodeChar c ++ more, rest) := by
  cases h with
  | short hc hletter hu h =>
    rw [utf8_cons_of_ascii (by decide), utf8_cons, hletter, hc]
    exact literalFrom_shortEscape h hu htail
  | hex hcontrol =>
    have hread := literalFrom_hexEscape hcontrol htail
    rw [codePoint, Char.ofNat_toNat] at hread
    rw [utf8_cons_of_ascii (by decide), utf8_cons_of_ascii (by decide),
      utf8_cons_of_ascii (by decide), utf8_cons_of_ascii (by decide),
      utf8_cons_of_ascii (toNat_digitChar_lt (by omega)),
      utf8_cons_of_ascii (toNat_digitChar_lt (by omega))]
    exact hread
  | itself hquote hslash hcontrol =>
    have hplain := literalFrom_plain
      (fun b hb => isPlain_of_mem_utf8EncodeChar hquote hslash hcontrol hb) htail
    rwa [utf8_cons, utf8_nil, List.append_nil]

/-! ### Whole literals -/

theorem literalFrom_escaped (cs : List Char) (rest : List UInt8) :
    literalFrom 0 (utf8 (cs.flatMap escapeChar) ++ byte '"' :: rest) = .ok (utf8 cs, rest) := by
  induction cs with
  | nil => rfl
  | cons c cs ih =>
    rw [List.flatMap_cons, utf8_append, List.append_assoc, utf8_cons]
    exact literalFrom_escapes (escapes_escapeChar c) ih

theorem readLiteral_escaped (s : String) (rest : List UInt8) :
    readLiteral (utf8 (s.toList.flatMap escapeChar) ++ byte '"' :: rest) = .ok (s, rest) := by
  simp only [readLiteral, literalFrom_escaped, bind, Except.bind, decode?_utf8]
  rfl

theorem utf8_writeText (s : String) : utf8 (writeText s) =
    byte '"' :: (utf8 (s.toList.flatMap escapeChar) ++ [byte '"']) := by
  rw [writeText, List.cons_append, utf8_cons_of_ascii (by decide), utf8_append]
  rfl

theorem readText_writeText (s : String) (rest : List UInt8) :
    readText (utf8 (writeText s) ++ rest) = .ok (s, rest) := by
  rw [utf8_writeText, List.cons_append, List.append_assoc]
  exact readLiteral_escaped s rest

end LogRelay.Json
