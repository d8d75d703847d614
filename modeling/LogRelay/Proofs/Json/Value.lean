import LogRelay.Proofs.Json.Reading
import LogRelay.Proofs.Text

/-!
Written values are read back: null, texts, whole numbers of 64 bits, and objects of such values.
After a number it matters what follows, so a value is read back in front of anything that does not go
on with it (`Gives`). None of these texts holds a line end, whatever the texts within them are.
-/

namespace LogRelay.Json

open Value (write writeMembers readWith readWithin integer ofText?)

/-! ### Numbers -/

section Numbers

variable {n : Nat} {cs : List Char} {c : Char} {rest : List UInt8}

theorem toNat_lt_of_isDigit (h : c.isDigit = true) : c.toNat < 128 := by
  have hle : c.toNat ≤ '9'.toNat := (Char.isDigit_iff_toNat.1 h).2
  exact Nat.lt_of_le_of_lt hle (by decide)

theorem isDigit_byte (h : c.isDigit = true) : isDigit (byte c) = true := by
  have hc := Char.isDigit_iff_toNat.1 h
  have hbyte := toNat_byte (toNat_lt_of_isDigit h)
  rw [isDigit, Bool.and_eq_true, decide_eq_true_eq, decide_eq_true_eq, UInt8.le_iff_toNat_le,
    UInt8.le_iff_toNat_le, hbyte]
  exact hc

theorem utf8_digits (h : ∀ c ∈ cs, c.isDigit = true) : utf8 cs = cs.map byte := by
  induction cs with
  | nil => rfl
  | cons c cs ih =>
    have hc := toNat_lt_of_isDigit (h c List.mem_cons_self)
    rw [utf8_cons_of_ascii hc, ih fun d hd => h d (List.mem_cons_of_mem c hd), List.map_cons]

theorem spanDigits_append (h : ∀ c ∈ cs, c.isDigit = true) (hrest : NoDigit rest) :
    spanDigits (cs.map byte ++ rest) = (cs.map (·.toNat - 48), rest) := by
  have hdigits : ∀ b ∈ cs.map byte, isDigit b = true := by
    intro b hb
    obtain ⟨c, hc, rfl⟩ := List.mem_map.1 hb
    exact isDigit_byte (h c hc)
  have hvalues : (cs.map byte).map (·.toNat - 48) = cs.map (·.toNat - 48) := by
    rw [List.map_map]
    refine List.map_congr_left fun c hc => ?_
    exact congrArg (· - 48) (toNat_byte (toNat_lt_of_isDigit (h c hc)))
  rw [spanDigits, takeWhile_digits hdigits hrest, dropWhile_digits hdigits hrest, hvalues]

theorem le_ofDigitChars (cs : List Char) (n : Nat) : n ≤ Nat.ofDigitChars 10 cs n := by
  have hpos : 0 < 10 ^ cs.length := Nat.pow_pos (by decide)
  have hlead : 1 * n ≤ 10 ^ cs.length * n := Nat.mul_le_mul_right n hpos
  rw [Nat.ofDigitChars_eq_ofDigitChars_zero]
  omega

/-- Digits are used as long as the number fits. -/
theorem appendDigits_eq (h : Nat.ofDigitChars 10 cs n < Nat.pow 2 64) :
    appendDigits n (cs.map (·.toNat - 48)) = (Nat.ofDigitChars 10 cs n, cs.length) := by
  induction cs generalizing n with
  | nil => rfl
  | cons c cs ih =>
    rw [Nat.ofDigitChars_cons] at h ⊢
    have hfits : 10 * n + (c.toNat - 48) < Nat.pow 2 64 := Nat.lt_of_le_of_lt (le_ofDigitChars _ _) h
    have hrest := ih h
    rw [List.map_cons, appendDigits, if_pos hfits]
    dsimp only
    change appendDigits (10 * n + (c.toNat - 48)) _ = _ at hrest
    rw [hrest]
    rfl

/-- Only zero begins with a zero. -/
theorem exists_toDigits (h : 0 < n) : ∃ c cs, Nat.toDigits 10 n = c :: cs ∧ c ≠ '0' := by
  induction n using Nat.strongRecOn with
  | ind n ih =>
    rcases Nat.lt_or_ge n 10 with hlt | hge
    · have hall : ∀ n < 10, 0 < n → Nat.digitChar n ≠ '0' := by decide
      exact ⟨_, [], Nat.toDigits_of_lt_base hlt, hall n hlt h⟩
    · obtain ⟨c, cs, hcs, hc⟩ := ih (n / 10) (by omega) (by omega)
      refine ⟨c, cs ++ [Nat.digitChar (n % 10)], ?_, hc⟩
      rw [Nat.toDigits_eq_if (by decide), if_neg (Nat.not_lt.2 hge), hcs, List.cons_append]

/-- What the digits of a number are taken for. -/
theorem readFractionAndExponent_toDigits (negative : Bool) (hn : n < Nat.pow 2 64)
    (hrest : Ends rest) :
    readFractionAndExponent negative ((Nat.toDigits 10 n).map (·.toNat - 48)) rest =
      readFractionAndExponent.wholeNumber negative n 0 rest := by
  have hvalue : Nat.ofDigitChars 10 (Nat.toDigits 10 n) 0 = n :=
    Nat.ofDigitChars_toDigits (by decide) (by decide)
  have happend : appendDigits 0 ((Nat.toDigits 10 n).map (·.toNat - 48)) =
      (Nat.ofDigitChars 10 (Nat.toDigits 10 n) 0, (Nat.toDigits 10 n).length) :=
    appendDigits_eq (hvalue.symm ▸ hn)
  rw [hvalue] at happend
  cases rest with
  | nil => simp [readFractionAndExponent, happend]
  | cons b rest =>
    have hb := hrest b rfl
    simp only [Continues, not_or] at hb
    simp [readFractionAndExponent, happend, hb]

theorem readUnsigned_toDigits (negative : Bool) (hn : n < Nat.pow 2 64) (hrest : Ends rest) :
    readUnsigned negative (utf8 (Nat.toDigits 10 n) ++ rest) =
      readFractionAndExponent.wholeNumber negative n 0 rest := by
  have hdigits : ∀ c ∈ Nat.toDigits 10 n, c.isDigit = true := fun c hc =>
    Nat.isDigit_of_mem_toDigits (by decide) (by decide) hc
  rw [← readFractionAndExponent_toDigits negative hn hrest, utf8_digits hdigits]
  have hspan := spanDigits_append hdigits hrest.noDigit
  rcases Nat.eq_zero_or_pos n with rfl | hpos
  · have hnone : ¬ (rest.head?.map isDigit).getD false = true := by
      cases hhead : rest.head? with
      | none => simp
      | some b => simpa using hrest.noDigit b hhead
    change readUnsigned negative (byte '0' :: rest) = _
    rw [readUnsigned, if_pos rfl, if_neg hnone]
    rfl
  · obtain ⟨c, cs, hcs, hzero⟩ := exists_toDigits hpos
    rw [hcs] at hdigits hspan ⊢
    have hc := hdigits c List.mem_cons_self
    have hne : byte c ≠ byte '0' := by
      intro heq
      have hnat := congrArg UInt8.toNat heq
      rw [toNat_byte (toNat_lt_of_isDigit hc), toNat_byte (by decide)] at hnat
      exact hzero (Char.toNat_inj.1 hnat)
    rw [List.map_cons, List.cons_append, readUnsigned, if_neg hne, if_pos (isDigit_byte hc)]
    rw [List.map_cons, List.cons_append] at hspan
    rw [hspan]

theorem exists_utf8_toDigits (n : Nat) :
    ∃ b more, utf8 (Nat.toDigits 10 n) = b :: more ∧ isDigit b = true := by
  have hdigits : ∀ c ∈ Nat.toDigits 10 n, c.isDigit = true := fun c hc =>
    Nat.isDigit_of_mem_toDigits (by decide) (by decide) hc
  obtain ⟨c, cs, hcs⟩ := List.exists_cons_of_ne_nil (Nat.toDigits_ne_nil (b := 10) (n := n))
  rw [hcs] at hdigits ⊢
  exact ⟨byte c, cs.map byte, utf8_digits hdigits, isDigit_byte (hdigits c List.mem_cons_self)⟩

theorem toString_ofNat (n : Nat) : (toString (n : Int)).toList = Nat.toDigits 10 n := by
  change (Nat.repr n).toList = _
  simp

theorem toString_negSucc (n : Nat) :
    (toString (Int.negSucc n)).toList = '-' :: Nat.toDigits 10 (n + 1) := by
  simp [toString, Int.repr]

theorem exists_utf8_toString (k : Int) :
    ∃ b more, utf8 (toString k).toList = b :: more ∧ (b = byte '-' ∨ isDigit b = true) := by
  cases k with
  | ofNat n =>
    obtain ⟨b, more, hbytes, hb⟩ := exists_utf8_toDigits n
    exact ⟨b, more, by rw [Int.ofNat_eq_natCast, toString_ofNat, hbytes], .inr hb⟩
  | negSucc n =>
    exact ⟨_, _, by rw [toString_negSucc, utf8_cons_of_ascii (by decide)], .inl rfl⟩

/-- A whole number that fits 64 bits, with or without a sign, is read back. -/
theorem gives_readNumber {k : Int} (hlow : -(Nat.pow 2 63 : Int) ≤ k) (hhigh : k < Nat.pow 2 64) :
    Gives readNumber (utf8 (toString k).toList) (.integer k) := by
  intro rest hrest
  cases k with
  | ofNat n =>
    have hn : n < Nat.pow 2 64 := Int.ofNat_lt.1 hhigh
    have hread := readUnsigned_toDigits false hn hrest
    obtain ⟨b, more, hbytes, hb⟩ := exists_utf8_toDigits n
    rw [Int.ofNat_eq_natCast, toString_ofNat, hbytes, List.cons_append, readNumber,
      if_neg (isDigit_of_ne hb (by decide)), ← List.cons_append, ← hbytes, hread]
    rfl
  | negSucc n =>
    have hn : n + 1 ≤ Nat.pow 2 63 := by
      rw [Int.negSucc_eq] at hlow
      omega
    have hread := readUnsigned_toDigits true (Nat.lt_of_le_of_lt hn (by decide)) hrest
    rw [toString_negSucc, utf8_cons_of_ascii (by decide), List.cons_append, readNumber, if_pos rfl,
      hread, readFractionAndExponent.wholeNumber, if_neg (by decide), if_neg (by decide),
      if_pos ⟨Nat.succ_pos n, hn⟩]
    rfl

end Numbers

/-! ### Values -/

variable {depth fuel : Nat} {members acc : List (String × Value)} {v x : Value} {rest : List UInt8}

/-- The value is read back from what is written for it, if that many levels may lie within each
other. -/
def ReadsBack (depth : Nat) (v : Value) : Prop := Gives (readWithin depth) (utf8 v.write) v

theorem readsBack_of_readWith (h : ∀ nested, Gives (readWith nested) (utf8 v.write) v) :
    ReadsBack depth v := by
  cases depth with
  | zero => exact h none
  | succ depth => exact h (some (readWithin depth))

theorem readsBack_null : ReadsBack depth .null :=
  readsBack_of_readWith fun _ _ _ => rfl

theorem readsBack_text (s : String) : ReadsBack depth (.text s) := by
  refine readsBack_of_readWith fun nested rest _ => ?_
  rw [write, utf8_writeText, List.cons_append, List.append_assoc, readWith,
    skipBlanks_cons (by decide)]
  dsimp only
  rw [if_neg (by decide), if_neg (by decide), if_neg (by decide), if_neg (by decide), if_pos rfl,
    List.singleton_append, readLiteral_escaped]
  rfl

theorem readsBack_ofText? (s : Option String) : ReadsBack depth (ofText? s) := by
  cases s with
  | none => exact readsBack_null
  | some s => exact readsBack_text s

/-- A value that begins like a number is one. -/
theorem readWith_number {nested : Option (Reader Value)} {b : UInt8}
    (hb : b = byte '-' ∨ isDigit b = true) (bytes : List UInt8) :
    readWith nested (b :: bytes) =
      (readNumber (b :: bytes)).map fun (n, left) => (.number n, left) := by
  have hblank : isBlank b = false := by
    rcases hb with rfl | hb
    · decide
    · exact isBlank_of_isDigit hb
  have hother : ∀ c, isDigit c = false → byte '-' ≠ c → b ≠ c := by
    intro c hc hminus
    rcases hb with rfl | hb
    · exact hminus
    · exact isDigit_of_ne hb hc
  rw [readWith, skipBlanks_cons hblank]
  dsimp only
  rw [if_neg (hother _ (by decide) (by decide)), if_neg (hother _ (by decide) (by decide)),
    if_neg (hother _ (by decide) (by decide)), if_pos hb]

theorem readsBack_integer {k : Int} (hlow : -(Nat.pow 2 63 : Int) ≤ k) (hhigh : k < Nat.pow 2 64) :
    ReadsBack depth (integer k) := by
  refine readsBack_of_readWith fun nested rest hrest => ?_
  have hnumber := gives_readNumber hlow hhigh rest hrest
  obtain ⟨b, more, hbytes, hb⟩ := exists_utf8_toString k
  change readWith nested (utf8 (toString k).toList ++ rest) = _
  rw [hbytes, List.cons_append] at hnumber ⊢
  rw [readWith_number hb, hnumber]
  rfl

/-- Taking one member to the end of those before it. -/
def putMember (inner : Reader Value) (key : String) (acc : List (String × Value)) :
    Reader (List (String × Value)) := fun bytes =>
  match readColon bytes with
  | .error e => .error e
  | .ok after => (inner after).map fun (value, left) => (acc ++ [(key, value)], left)

theorem putMember_write {key : String} (h : ReadsBack depth x) (hrest : Ends rest) :
    putMember (readWithin depth) key acc (byte ':' :: (utf8 x.write ++ rest)) =
      .ok (acc ++ [(key, x)], rest) := by
  rw [putMember, readColon_colon]
  dsimp only
  rw [h rest hrest]
  rfl

theorem ends_writeMembers (members : List (String × Value)) (rest : List UInt8) :
    Ends (utf8 (writeMembers members) ++ byte '\x7d' :: rest) := by
  cases members with
  | nil => exact ends_cons not_continues_brace rest
  | cons m members =>
    rw [writeMembers, utf8_cons_of_ascii (by decide)]
    exact ends_cons not_continues_comma _

theorem readMembers_put (h : ∀ m ∈ members, ReadsBack depth m.2) (hfuel : members.length < fuel)
    (rest : List UInt8) :
    readMembers (putMember (readWithin depth)) fuel false acc
        (utf8 (writeMembers members) ++ byte '\x7d' :: rest) = .ok (acc ++ members, rest) := by
  induction members generalizing acc fuel with
  | nil =>
    obtain ⟨fuel, rfl⟩ := Nat.exists_eq_succ_of_ne_zero (Nat.ne_of_gt hfuel)
    rw [List.append_nil]
    rfl
  | cons m members ih =>
    obtain ⟨key, value⟩ := m
    obtain ⟨fuel, rfl⟩ := Nat.exists_eq_succ_of_ne_zero (Nat.ne_of_gt (Nat.zero_lt_of_lt hfuel))
    rw [utf8_writeMembers_cons, readMembers_member (nextKey?_comma _)
      (putMember_write (h _ List.mem_cons_self) (ends_writeMembers members rest)),
      ih (fun m hm => h m (List.mem_cons_of_mem _ hm)) (Nat.lt_of_succ_lt_succ hfuel),
      List.append_assoc, List.singleton_append]

theorem readMembers_putTail (h : ∀ m ∈ members, ReadsBack depth m.2) (hfuel : members.length < fuel)
    (rest : List UInt8) :
    readMembers (putMember (readWithin depth)) fuel true [] (utf8 (objectTail members) ++ rest) =
      .ok (members, rest) := by
  obtain ⟨fuel, rfl⟩ := Nat.exists_eq_succ_of_ne_zero (Nat.ne_of_gt (Nat.zero_lt_of_lt hfuel))
  cases members with
  | nil => rfl
  | cons m members =>
    obtain ⟨key, value⟩ := m
    rw [utf8_objectTail_cons, readMembers_member (nextKey?_first _)
      (putMember_write (h _ List.mem_cons_self) (ends_writeMembers members rest))]
    exact readMembers_put (fun m hm => h m (List.mem_cons_of_mem _ hm))
      (Nat.lt_of_succ_lt_succ hfuel) rest

/-- An object is read back if its members are, one level further down. -/
theorem readsBack_object (h : ∀ m ∈ members, ReadsBack depth m.2) :
    ReadsBack (depth + 1) (.object members) := by
  intro rest _
  have hread := readMembers_putTail h (length_lt_objectTail members rest) rest
  rw [utf8_object, readWithin, readWith, skipBlanks_cons (by decide)]
  dsimp only
  rw [if_neg (by decide), if_neg (by decide), if_neg (by decide), if_neg (by decide),
    if_neg (by decide), if_neg (by decide), if_pos rfl]
  change (readMembers (putMember (readWithin depth)) _ true [] _).map _ = _
  rw [hread]
  rfl

/-- The whole of what is written is the value and nothing else. -/
theorem parse_render (h : ReadsBack maxDepth v) :
    Value.parse (Text.Utf8.encode v.render) = .ok v := by
  have hread := h [] ends_nil
  rw [List.append_nil] at hread
  rw [Value.render, encode_ofList, Value.parse, readWhole, Value.read, hread]
  rfl

/-! ### Line ends -/

theorem Escapes.newline_notMem {c : Char} {cs : List Char} (h : Escapes c cs) : '\n' ∉ cs := by
  cases h with
  | @short letter hc hletter hu h =>
    have hne : '\n' ≠ letter := by
      rintro rfl
      cases h
    simpa using hne
  | hex hcontrol =>
    have hhigh : '\n' ≠ Nat.digitChar (c.toNat / 16) := (Text.digitChar_ne_newline (by omega)).symm
    have hlow : '\n' ≠ Nat.digitChar (c.toNat % 16) := (Text.digitChar_ne_newline (by omega)).symm
    simp [hhigh, hlow]
  | itself hquote hslash hcontrol =>
    have hne : '\n' ≠ c := by
      rintro rfl
      exact hcontrol (by decide)
    simpa using hne

theorem newline_notMem_writeText (s : String) : '\n' ∉ writeText s := by
  have hescaped : '\n' ∉ s.toList.flatMap escapeChar := by
    intro h
    obtain ⟨c, -, hc⟩ := List.mem_flatMap.1 h
    exact (escapes_escapeChar c).newline_notMem hc
  simpa [writeText] using hescaped

theorem newline_notMem_ofText? (s : Option String) : '\n' ∉ (ofText? s).write := by
  cases s with
  | none => decide
  | some s =>
    rw [ofText?, write]
    exact newline_notMem_writeText s

theorem newline_notMem_integer (k : Int) : '\n' ∉ (integer k).write := by
  have hdigits : ∀ n, '\n' ∉ Nat.toDigits 10 n := fun n h =>
    absurd (Nat.isDigit_of_mem_toDigits (by decide) (by decide) h) (by decide)
  change '\n' ∉ (toString k).toList
  cases k with
  | ofNat n =>
    rw [Int.ofNat_eq_natCast, toString_ofNat]
    exact hdigits n
  | negSucc n =>
    rw [toString_negSucc, List.mem_cons]
    exact fun h => h.elim (by decide) (hdigits (n + 1))

theorem newline_notMem_writeMembers (h : ∀ m ∈ members, '\n' ∉ m.2.write) :
    '\n' ∉ writeMembers members := by
  induction members with
  | nil => exact List.not_mem_nil
  | cons m members ih =>
    have hm := h m List.mem_cons_self
    have hrest := ih fun m hm => h m (List.mem_cons_of_mem _ hm)
    simp [writeMembers, newline_notMem_writeText, hm, hrest]

theorem newline_notMem_object (h : ∀ m ∈ members, '\n' ∉ m.2.write) :
    '\n' ∉ (Value.object members).write := by
  rw [write_object]
  cases members with
  | nil => decide
  | cons m members =>
    have hm := h m List.mem_cons_self
    have hrest := newline_notMem_writeMembers fun m hm => h m (List.mem_cons_of_mem _ hm)
    simp [objectTail, newline_notMem_writeText, hm, hrest]

/-- Only a line feed is written with the byte of one. -/
theorem newline_mem_utf8 {cs : List Char} : byte '\n' ∈ utf8 cs ↔ '\n' ∈ cs := by
  have hchar : ∀ c : Char, byte '\n' ∈ String.utf8EncodeChar c ↔ c = '\n' := by
    intro c
    rcases Nat.lt_or_ge c.toNat 128 with hascii | hlarge
    · rw [utf8EncodeChar_of_ascii hascii, List.mem_singleton]
      constructor
      · intro heq
        have hnat := congrArg UInt8.toNat heq
        rw [toNat_byte hascii] at hnat
        exact Char.toNat_inj.1 hnat.symm
      · rintro rfl
        rfl
    · constructor
      · exact fun h => absurd (le_of_mem_utf8EncodeChar hlarge h) (by decide)
      · rintro rfl
        exact absurd hlarge (by decide)
  simp [utf8, hchar]

end LogRelay.Json
