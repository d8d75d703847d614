import LogRelay.Proofs.Json.Grammar
import Mathlib.Data.List.DropRight

/-!
A value that nobody asks for is passed over to its end and no further, whatever it is and however
deep it nests. Only after a number does it matter what follows (`Ends`): more digits would belong to
it.
-/

namespace LogRelay.Json

variable {gap run ds bytes rest body v : List UInt8} {b c : UInt8} {fuel : Nat}

/-! ### What follows a value -/

/-- A byte that a number could go on with. -/
def Continues (b : UInt8) : Prop :=
  isDigit b = true ∨ b = byte '.' ∨ b = byte 'e' ∨ b = byte 'E'

/-- The bytes do not go on with a number before them. -/
def Ends (rest : List UInt8) : Prop := ∀ b ∈ rest.head?, ¬ Continues b

theorem ends_nil : Ends [] := nofun

theorem ends_cons (h : ¬ Continues b) (rest : List UInt8) : Ends (b :: rest) := by
  intro c hc
  obtain rfl : b = c := by simpa using hc
  exact h

theorem not_continues_of_isBlank (h : isBlank b = true) : ¬ Continues b := by
  rintro (hb | rfl | rfl | rfl)
  · simp only [isBlank, Bool.or_eq_true, beq_iff_eq] at h
    rcases h with ((rfl | rfl) | rfl) | rfl <;> exact absurd hb (by decide)
  all_goals exact absurd h (by decide)

theorem isBlank_of_isDigit (h : isDigit b = true) : isBlank b = false :=
  Bool.eq_false_iff.2 fun hblank => not_continues_of_isBlank hblank (.inl h)

/-- Blanks keep apart what they stand between. -/
theorem ends_blanks (hgap : IsBlanks gap) (h : Ends rest) : Ends (gap ++ rest) := by
  cases gap with
  | nil => exact h
  | cons b gap => exact ends_cons (not_continues_of_isBlank (hgap b List.mem_cons_self)) _

theorem IsBlanks.ends (hgap : IsBlanks gap) : Ends gap := by
  simpa using ends_blanks hgap ends_nil

theorem not_continues_comma : ¬ Continues (byte ',') := by
  rw [Continues]
  decide

theorem not_continues_bracket : ¬ Continues (byte ']') := by
  rw [Continues]
  decide

theorem not_continues_brace : ¬ Continues (byte '\x7d') := by
  rw [Continues]
  decide

/-! ### Blanks -/

theorem skipBlanks_append (hgap : IsBlanks gap) (bytes : List UInt8) :
    skipBlanks (gap ++ bytes) = skipBlanks bytes :=
  List.dropWhile_append_of_pos hgap

/-- Blanks up to a byte that is none. -/
theorem skipBlanks_gap (hgap : IsBlanks gap) (hb : isBlank b = false) (bytes : List UInt8) :
    skipBlanks (gap ++ b :: bytes) = b :: bytes := by
  rw [skipBlanks_append hgap, skipBlanks_cons hb]

theorem skipBlanks_idem (bytes : List UInt8) : skipBlanks (skipBlanks bytes) = skipBlanks bytes := by
  exact List.dropWhile_idempotent _ _

theorem skipBlanks_eq_nil (hgap : IsBlanks gap) : skipBlanks gap = [] :=
  List.dropWhile_eq_nil_iff.2 hgap

/-! ### String literals -/

theorem shortEscape?_u : shortEscape? (byte 'u') = none := rfl

theorem ne_u_of_shortEscape? (h : shortEscape? b = some c) : b ≠ byte 'u' := by
  rintro rfl
  rw [shortEscape?_u] at h
  cases h

theorem IsHex.length {n : Nat} (h : IsHex ds n) : ds.length = 4 := by
  cases h
  rfl

theorem IsHex.readHex_append {n : Nat} (h : IsHex ds n) (rest : List UInt8) :
    readHex (ds ++ rest) = .ok n := by
  cases h with
  | digits ha hb hc hd => simp only [List.cons_append, readHex, ha, hb, hc, hd]

theorem IsEscape.escapeSize_append (h : IsEscape run) (rest : List UInt8) :
    escapeSize (run ++ rest) = .ok run.length := by
  cases h with
  | short h =>
    rw [List.singleton_append, escapeSize, if_neg (ne_u_of_shortEscape? h), h]
    rfl
  | hex h =>
    rw [List.cons_append, escapeSize, if_pos rfl, h.readHex_append, List.length_cons, h.length]
    rfl

theorem skipLiteralFrom_plain (h : ∀ b ∈ run, IsPlain b) :
    skipLiteralFrom 0 (run ++ rest) = skipLiteralFrom 0 rest := by
  induction run with
  | nil => rfl
  | cons b run ih =>
    obtain ⟨hquote, hslash, hcontrol⟩ := h b List.mem_cons_self
    rw [List.cons_append, skipLiteralFrom, if_neg hquote, if_neg hslash, if_neg hcontrol,
      ih fun b hb => h b (List.mem_cons_of_mem _ hb)]

/-- The bytes of an escape are passed over whatever they are. -/
theorem skipLiteralFrom_length (run rest : List UInt8) :
    skipLiteralFrom run.length (run ++ rest) = skipLiteralFrom 0 rest := by
  induction run with
  | nil => rfl
  | cons b run ih => exact ih

/-- A literal is passed over up to its closing quote. -/
theorem IsLiteral.skipLiteral_append (h : IsLiteral body) (rest : List UInt8) :
    skipLiteral (body ++ byte '"' :: rest) = .ok rest := by
  rw [skipLiteral]
  induction h with
  | nil => rfl
  | @plain b body hb _ ih =>
    have hone : ∀ c ∈ [b], IsPlain c := by simpa using hb
    exact (skipLiteralFrom_plain hone).trans ih
  | escape hrun _ ih =>
    rw [List.cons_append, List.append_assoc, skipLiteralFrom, if_neg (by decide), if_pos rfl,
      hrun.escapeSize_append]
    exact (skipLiteralFrom_length _ _).trans ih

/-! ### Numbers -/

/-- No digit comes first. -/
def NoDigit (rest : List UInt8) : Prop := ∀ b ∈ rest.head?, isDigit b = false

theorem noDigit_cons (h : isDigit b = false) (rest : List UInt8) : NoDigit (b :: rest) := by
  intro c hc
  obtain rfl : b = c := by simpa using hc
  exact h

theorem Ends.noDigit (h : Ends rest) : NoDigit rest := by
  intro b hb
  simpa using fun hdigit => h b hb (.inl hdigit)

theorem dropWhile_digits (hds : ∀ d ∈ ds, isDigit d = true) (h : NoDigit rest) :
    (ds ++ rest).dropWhile isDigit = rest := by
  rw [List.dropWhile_append_of_pos hds]
  cases rest with
  | nil => rfl
  | cons b rest => exact List.dropWhile_cons_of_neg (by simp [h b rfl])

theorem takeWhile_digits (hds : ∀ d ∈ ds, isDigit d = true) (h : NoDigit rest) :
    (ds ++ rest).takeWhile isDigit = ds := by
  rw [List.takeWhile_append_of_pos hds]
  cases rest with
  | nil => simp
  | cons b rest => rw [List.takeWhile_cons_of_neg (by simp [h b rfl]), List.append_nil]

theorem isDigit_of_ne {d : UInt8} (hd : isDigit d = true) (hb : isDigit b = false) : d ≠ b := by
  rintro rfl
  rw [hd] at hb
  cases hb

theorem IsDigits.exists_cons (h : IsDigits ds) :
    ∃ d more, ds = d :: more ∧ isDigit d = true ∧ ∀ b ∈ more, isDigit b = true := by
  obtain ⟨hne, hds⟩ := h
  cases ds with
  | nil => exact absurd rfl hne
  | cons d more =>
    exact ⟨d, more, rfl, hds d List.mem_cons_self, fun b hb => hds b (List.mem_cons_of_mem d hb)⟩

theorem readExponentSign_append {sign : List UInt8}
    (hsign : sign = [] ∨ sign = [byte '+'] ∨ sign = [byte '-']) (hds : IsDigits ds)
    (rest : List UInt8) : (readExponentSign (sign ++ (ds ++ rest))).2 = ds ++ rest := by
  rcases hsign with rfl | rfl | rfl
  · obtain ⟨d, more, rfl, hd, -⟩ := hds.exists_cons
    rw [List.nil_append, List.cons_append, readExponentSign, if_neg (isDigit_of_ne hd (by decide)),
      if_neg (isDigit_of_ne hd (by decide))]
  · rfl
  · rfl

theorem skipExponent_append {sign : List UInt8}
    (hsign : sign = [] ∨ sign = [byte '+'] ∨ sign = [byte '-']) (hds : IsDigits ds)
    (h : NoDigit rest) : skipExponent (sign ++ (ds ++ rest)) = .ok rest := by
  rw [skipExponent, readExponentSign_append hsign hds]
  obtain ⟨d, more, rfl, hd, hmore⟩ := hds.exists_cons
  rw [List.cons_append]
  dsimp only
  rw [if_pos hd, dropWhile_digits hmore h]

/-- What follows the digits of a number without a fraction. -/
theorem IsExponent.skipFraction_append {exponent : List UInt8} (h : IsExponent exponent)
    (hends : Ends rest) : skipFraction (exponent ++ rest) = .ok rest := by
  cases h with
  | absent =>
    cases rest with
    | nil => rfl
    | cons b rest =>
      have hb := hends b rfl
      simp only [Continues, not_or] at hb
      rw [List.nil_append, skipFraction, if_neg hb.2.1, if_neg (by simp [hb.2.2])]
  | @digits mark sign ds hmark hsign hds =>
    have hpoint : mark ≠ byte '.' := by rcases hmark with rfl | rfl <;> decide
    rw [List.cons_append, List.append_assoc, skipFraction, if_neg hpoint, if_pos hmark]
    exact skipExponent_append hsign hds hends.noDigit

theorem IsExponent.noDigit_append {exponent : List UInt8} (h : IsExponent exponent)
    (hends : Ends rest) : NoDigit (exponent ++ rest) := by
  cases h with
  | absent => exact hends.noDigit
  | digits hmark => exact noDigit_cons (by rcases hmark with rfl | rfl <;> decide) _

theorem IsExponent.point_notMem_head? {exponent : List UInt8} (h : IsExponent exponent)
    (hends : Ends rest) : byte '.' ∉ (exponent ++ rest).head? := by
  cases h with
  | absent => exact fun hpoint => hends _ hpoint (.inr (.inl rfl))
  | digits hmark => rcases hmark with rfl | rfl <;> simp <;> decide

/-- After the digits of a fraction it goes on as without one. -/
theorem skipFraction_point (hds : IsDigits ds) (h : NoDigit bytes) (hpoint : byte '.' ∉ bytes.head?) :
    skipFraction (byte '.' :: (ds ++ bytes)) = skipFraction bytes := by
  rw [skipFraction, if_pos rfl, takeWhile_digits hds.digits h, dropWhile_digits hds.digits h]
  obtain ⟨d, more, rfl, -⟩ := hds.exists_cons
  cases bytes with
  | nil => rfl
  | cons c after =>
    have hc : c ≠ byte '.' := by simpa using hpoint
    rw [skipFraction, if_neg hc]

theorem skipFraction_append {fraction exponent : List UInt8} (hfraction : IsFraction fraction)
    (hexponent : IsExponent exponent) (hends : Ends rest) :
    skipFraction (fraction ++ (exponent ++ rest)) = .ok rest := by
  cases hfraction with
  | absent => exact hexponent.skipFraction_append hends
  | digits hds =>
    rw [List.cons_append, skipFraction_point hds (hexponent.noDigit_append hends)
      (hexponent.point_notMem_head? hends)]
    exact hexponent.skipFraction_append hends

theorem IsFraction.noDigit_append {fraction : List UInt8} (h : IsFraction fraction)
    (hbytes : NoDigit bytes) : NoDigit (fraction ++ bytes) := by
  cases h with
  | absent => exact hbytes
  | digits => exact noDigit_cons (by decide) _

theorem IsMagnitude.skipUnsigned_append {n : List UInt8} (h : IsMagnitude n) (hends : Ends rest) :
    skipUnsigned (n ++ rest) = .ok rest := by
  obtain ⟨hwhole, hfraction, hexponent⟩ := h
  have hnext := hfraction.noDigit_append (hexponent.noDigit_append hends)
  have hskip := skipFraction_append hfraction hexponent hends
  rw [List.append_assoc, List.append_assoc]
  cases hwhole with
  | zero =>
    rw [List.singleton_append, skipUnsigned, if_pos rfl, if_neg, hskip]
    cases hhead : List.head? _ with
    | none => simp
    | some b => simpa using hnext b hhead
  | digits hb hzero hmore =>
    rw [List.cons_append, skipUnsigned, if_neg hzero, if_pos hb, dropWhile_digits hmore hnext, hskip]

theorem IsMagnitude.exists_cons {n : List UInt8} (h : IsMagnitude n) :
    ∃ d more, n = d :: more ∧ isDigit d = true := by
  obtain ⟨hwhole, -, -⟩ := h
  cases hwhole with
  | zero => exact ⟨_, _, rfl, rfl⟩
  | digits hb => exact ⟨_, _, rfl, hb⟩

theorem IsNumber.skipNumber_append {n : List UInt8} (h : IsNumber n) (hends : Ends rest) :
    skipNumber (n ++ rest) = .ok rest := by
  cases h with
  | positive h =>
    have hskip := h.skipUnsigned_append hends
    obtain ⟨d, more, rfl, hd⟩ := h.exists_cons
    rw [List.cons_append, skipNumber, if_neg (isDigit_of_ne hd (by decide))]
    exact hskip
  | negative h =>
    rw [List.cons_append, skipNumber, if_pos rfl]
    exact h.skipUnsigned_append hends

/-! ### Values -/

/-- The first byte of a value: no blank, no comma and no closing bracket. -/
theorem IsValue.exists_cons (h : IsValue v) :
    ∃ b more, v = b :: more ∧ isBlank b = false ∧ b ≠ byte ']' := by
  cases h with
  | null => exact ⟨_, _, rfl, by decide, by decide⟩
  | yes => exact ⟨_, _, rfl, by decide, by decide⟩
  | no => exact ⟨_, _, rfl, by decide, by decide⟩
  | number h =>
    cases h with
    | positive h =>
      obtain ⟨d, more, rfl, hd⟩ := h.exists_cons
      exact ⟨d, more, rfl, isBlank_of_isDigit hd, isDigit_of_ne hd (by decide)⟩
    | negative => exact ⟨_, _, rfl, by decide, by decide⟩
  | text => exact ⟨_, _, rfl, by decide, by decide⟩
  | list text =>
    obtain ⟨more, rfl⟩ := text.exists_cons
    exact ⟨_, more, rfl, by decide, by decide⟩
  | object text =>
    obtain ⟨more, rfl⟩ := text.exists_cons
    exact ⟨_, more, rfl, by decide, by decide⟩

theorem skipValueWith_skipBlanks (fuel : Nat) (bytes : List UInt8) :
    skipValueWith fuel (skipBlanks bytes) = skipValueWith fuel bytes := by
  cases fuel with
  | zero => rfl
  | succ fuel => rw [skipValueWith, skipValueWith, skipBlanks_idem]

theorem skipElementsWith_skipBlanks (fuel : Nat) (bytes : List UInt8) :
    skipElementsWith fuel (skipBlanks bytes) = skipElementsWith fuel bytes := by
  cases fuel with
  | zero => rfl
  | succ fuel => rw [skipElementsWith, skipElementsWith, skipValueWith_skipBlanks]

theorem skipMembersWith_skipBlanks (fuel : Nat) (bytes : List UInt8) :
    skipMembersWith fuel (skipBlanks bytes) = skipMembersWith fuel bytes := by
  cases fuel with
  | zero => rfl
  | succ fuel => rw [skipMembersWith, skipMembersWith, skipKey, skipKey, skipBlanks_idem]

/-- The text is passed over with fuel for its length, whatever follows it. -/
def IsPassed (v : List UInt8) : Prop :=
  ∀ fuel rest, Ends rest → 2 * v.length ≤ fuel → skipValueWith fuel (v ++ rest) = .ok rest

theorem isPassed_of_succ (hne : v ≠ []) (h : ∀ fuel rest, Ends rest → 2 * v.length ≤ fuel + 1 →
    skipValueWith (fuel + 1) (v ++ rest) = .ok rest) : IsPassed v := by
  intro fuel rest hends hfuel
  have hpos : 0 < v.length := List.length_pos_iff.2 hne
  obtain ⟨fuel, rfl⟩ := Nat.exists_eq_succ_of_ne_zero (by omega : fuel ≠ 0)
  exact h fuel rest hends hfuel

theorem Item.IsPadded.skipValueWith_text {i : Item} (hi : i.IsPadded) (hv : IsPassed i.value)
    (hends : Ends rest) (hfuel : 2 * i.text.length ≤ fuel) :
    skipValueWith fuel (i.text ++ rest) = .ok (i.after ++ rest) := by
  have hlength : 2 * i.value.length ≤ fuel := by
    simp only [Item.text, List.length_append] at hfuel
    omega
  rw [Item.text, List.append_assoc, List.append_assoc, ← skipValueWith_skipBlanks,
    skipBlanks_append hi.before, skipValueWith_skipBlanks]
  exact hv fuel _ (ends_blanks hi.after hends) hlength

theorem Item.IsPadded.skipBlanks_text {i : Item} (hi : i.IsPadded) (hv : IsValue i.value)
    (rest : List UInt8) : ∃ b more, i.value ++ (i.after ++ rest) = b :: more ∧
      skipBlanks (i.text ++ rest) = b :: more ∧ b ≠ byte ']' := by
  obtain ⟨b, more, hfirst, hblank, hb⟩ := hv.exists_cons
  refine ⟨b, more ++ (i.after ++ rest), by rw [hfirst, List.cons_append], ?_, hb⟩
  rw [Item.text, hfirst, List.append_assoc, List.append_assoc, List.cons_append,
    skipBlanks_gap hi.before hblank]

theorem skipElementsWith_items {i : Item} {items : List Item} (hi : i.IsPadded)
    (hv : IsPassed i.value) (hpadded : ∀ j ∈ items, j.IsPadded)
    (hvalues : ∀ j ∈ items, IsPassed j.value)
    (hfuel : 2 * (i.text ++ moreParts (items.map Item.text)).length + 1 ≤ fuel)
    (rest : List UInt8) :
    skipElementsWith fuel (i.text ++ (moreParts (items.map Item.text) ++ byte ']' :: rest)) =
      .ok rest := by
  induction items generalizing i fuel with
  | nil =>
    obtain ⟨fuel, rfl⟩ := Nat.exists_eq_succ_of_ne_zero (by omega : fuel ≠ 0)
    have hlength : 2 * i.text.length ≤ fuel := by
      simp only [List.map_nil, moreParts_nil, List.append_nil] at hfuel
      omega
    rw [List.map_nil, moreParts_nil, List.nil_append, skipElementsWith,
      hi.skipValueWith_text hv (ends_cons not_continues_bracket _) hlength]
    dsimp only
    rw [skipBlanks_gap hi.after (by decide)]
    rfl
  | cons j items ih =>
    obtain ⟨fuel, rfl⟩ := Nat.exists_eq_succ_of_ne_zero (by omega : fuel ≠ 0)
    have hlength : 2 * i.text.length ≤ fuel := by
      rw [List.length_append] at hfuel
      omega
    have hmore : 2 * (j.text ++ moreParts (items.map Item.text)).length + 1 ≤ fuel := by
      simp only [List.map_cons, moreParts_cons, List.length_append, List.length_cons] at hfuel ⊢
      omega
    rw [List.map_cons, moreParts_cons, List.cons_append, List.append_assoc, skipElementsWith,
      hi.skipValueWith_text hv (ends_cons not_continues_comma _) hlength]
    dsimp only
    rw [skipBlanks_gap hi.after (by decide)]
    dsimp only
    rw [if_pos rfl]
    exact ih (hpadded j List.mem_cons_self) (hvalues j List.mem_cons_self)
      (fun k hk => hpadded k (List.mem_cons_of_mem j hk))
      (fun k hk => hvalues k (List.mem_cons_of_mem j hk)) hmore

theorem Member.IsFramed.skipKey_text {m : Member} (hm : m.IsFramed) (rest : List UInt8) :
    skipKey (m.text ++ rest) = .ok (m.item.text ++ rest) := by
  have hbytes : m.text ++ rest = m.before ++ byte '"' :: (m.key ++ byte '"' ::
      (m.gap ++ byte ':' :: (m.item.text ++ rest))) := by
    simp only [Member.text, List.append_assoc, List.cons_append]
  rw [hbytes, skipKey, skipBlanks_gap hm.before (by decide)]
  dsimp only
  rw [if_pos rfl, hm.key.skipLiteral_append]
  dsimp only
  rw [skipBlanks_gap hm.gap (by decide)]
  rfl

theorem Member.IsFramed.skipBlanks_text {m : Member} (hm : m.IsFramed) (rest : List UInt8) :
    ∃ more, skipBlanks (m.text ++ rest) = byte '"' :: more := by
  rw [Member.text, List.append_assoc, List.cons_append, skipBlanks_gap hm.before (by decide)]
  exact ⟨_, rfl⟩

theorem Member.length_item_text (m : Member) : m.item.text.length ≤ m.text.length := by
  simp only [Member.text, List.length_append, List.length_cons]
  omega

theorem skipMembersWith_members {m : Member} {members : List Member} (hm : m.IsFramed)
    (hv : IsPassed m.item.value) (hframed : ∀ n ∈ members, n.IsFramed)
    (hvalues : ∀ n ∈ members, IsPassed n.item.value)
    (hfuel : 2 * (m.text ++ moreParts (members.map Member.text)).length + 1 ≤ fuel)
    (rest : List UInt8) :
    skipMembersWith fuel (m.text ++ (moreParts (members.map Member.text) ++ byte '\x7d' :: rest)) =
      .ok rest := by
  have hitem := m.length_item_text
  induction members generalizing m fuel with
  | nil =>
    obtain ⟨fuel, rfl⟩ := Nat.exists_eq_succ_of_ne_zero (by omega : fuel ≠ 0)
    have hlength : 2 * m.item.text.length ≤ fuel := by
      simp only [List.map_nil, moreParts_nil, List.append_nil] at hfuel
      omega
    rw [List.map_nil, moreParts_nil, List.nil_append, skipMembersWith, hm.skipKey_text]
    dsimp only
    rw [hm.item.skipValueWith_text hv (ends_cons not_continues_brace _) hlength]
    dsimp only
    rw [skipBlanks_gap hm.item.after (by decide)]
    rfl
  | cons n members ih =>
    obtain ⟨fuel, rfl⟩ := Nat.exists_eq_succ_of_ne_zero (by omega : fuel ≠ 0)
    have hlength : 2 * m.item.text.length ≤ fuel := by
      rw [List.length_append] at hfuel
      omega
    have hmore : 2 * (n.text ++ moreParts (members.map Member.text)).length + 1 ≤ fuel := by
      simp only [List.map_cons, moreParts_cons, List.length_append, List.length_cons] at hfuel ⊢
      omega
    rw [List.map_cons, moreParts_cons, List.cons_append, List.append_assoc, skipMembersWith,
      hm.skipKey_text]
    dsimp only
    rw [hm.item.skipValueWith_text hv (ends_cons not_continues_comma _) hlength]
    dsimp only
    rw [skipBlanks_gap hm.item.after (by decide)]
    dsimp only
    rw [if_pos rfl]
    exact ih (hframed n List.mem_cons_self) (hvalues n List.mem_cons_self)
      (fun k hk => hframed k (List.mem_cons_of_mem n hk))
      (fun k hk => hvalues k (List.mem_cons_of_mem n hk)) hmore n.length_item_text

theorem skipValueWith_bracket (fuel : Nat) (bytes : List UInt8) :
    skipValueWith (fuel + 1) (byte '[' :: bytes) =
      match skipBlanks bytes with
      | [] => .error .endInList
      | c :: after => if c = byte ']' then .ok after else skipElementsWith fuel (c :: after) :=
  rfl

theorem skipValueWith_brace (fuel : Nat) (bytes : List UInt8) :
    skipValueWith (fuel + 1) (byte '\x7b' :: bytes) =
      match skipBlanks bytes with
      | [] => .error .endInObject
      | c :: after => if c = byte '\x7d' then .ok after else skipMembersWith fuel (c :: after) :=
  rfl

theorem isPassed_of_isListOf {items : List Item} (h : IsListOf items v)
    (hpassed : ∀ i ∈ items, IsPassed i.value) : IsPassed v := by
  obtain ⟨_, hopen⟩ := h.text.exists_cons
  refine isPassed_of_succ (by rw [hopen]; exact List.cons_ne_nil _ _) fun fuel rest _ hfuel => ?_
  cases items with
  | nil =>
    obtain ⟨gap, hgap, rfl⟩ := h.text.exists_gap
    rw [List.cons_append, skipValueWith_bracket, List.append_assoc, List.singleton_append,
      skipBlanks_gap hgap (by decide)]
    rfl
  | cons i items =>
    obtain rfl := h.text.eq_of_cons
    have hlength : 2 * (i.text ++ moreParts (items.map Item.text)).length + 1 ≤ fuel := by
      simp only [List.length_cons, List.length_append, List.length_nil] at hfuel ⊢
      omega
    have hskip := skipElementsWith_items (h.padded i List.mem_cons_self)
      (hpassed i List.mem_cons_self) (fun j hj => h.padded j (List.mem_cons_of_mem i hj))
      (fun j hj => hpassed j (List.mem_cons_of_mem i hj)) hlength rest
    obtain ⟨b, more, -, hfirst, hb⟩ := (h.padded i List.mem_cons_self).skipBlanks_text
      (h.values i List.mem_cons_self) (moreParts (items.map Item.text) ++ byte ']' :: rest)
    rw [← skipElementsWith_skipBlanks, hfirst] at hskip
    rw [List.cons_append, List.append_assoc, List.append_assoc, List.singleton_append,
      skipValueWith_bracket, hfirst]
    dsimp only
    rw [if_neg hb, hskip]

theorem isPassed_of_isObjectOf {members : List Member} (h : IsObjectOf members v)
    (hpassed : ∀ m ∈ members, IsPassed m.item.value) : IsPassed v := by
  obtain ⟨_, hopen⟩ := h.text.exists_cons
  refine isPassed_of_succ (by rw [hopen]; exact List.cons_ne_nil _ _) fun fuel rest _ hfuel => ?_
  cases members with
  | nil =>
    obtain ⟨gap, hgap, rfl⟩ := h.text.exists_gap
    rw [List.cons_append, skipValueWith_brace, List.append_assoc, List.singleton_append,
      skipBlanks_gap hgap (by decide)]
    rfl
  | cons m members =>
    obtain rfl := h.text.eq_of_cons
    have hlength : 2 * (m.text ++ moreParts (members.map Member.text)).length + 1 ≤ fuel := by
      simp only [List.length_cons, List.length_append, List.length_nil] at hfuel ⊢
      omega
    have hskip := skipMembersWith_members (h.framed m List.mem_cons_self)
      (hpassed m List.mem_cons_self) (fun n hn => h.framed n (List.mem_cons_of_mem m hn))
      (fun n hn => hpassed n (List.mem_cons_of_mem m hn)) hlength rest
    obtain ⟨more, hfirst⟩ := (h.framed m List.mem_cons_self).skipBlanks_text
      (moreParts (members.map Member.text) ++ byte '\x7d' :: rest)
    rw [← skipMembersWith_skipBlanks, hfirst] at hskip
    rw [List.cons_append, List.append_assoc, List.append_assoc, List.singleton_append,
      skipValueWith_brace, hfirst]
    dsimp only
    rw [if_neg (by decide), hskip]

theorem isPassed_of_isNumber {n : List UInt8} (h : IsNumber n) : IsPassed n := by
  have hsign : ∃ b more, n = b :: more ∧ (b = byte '-' ∨ isDigit b = true) := by
    cases h with
    | positive h =>
      obtain ⟨d, more, rfl, hd⟩ := h.exists_cons
      exact ⟨d, more, rfl, .inr hd⟩
    | negative => exact ⟨_, _, rfl, .inl rfl⟩
  obtain ⟨b, more, rfl, hb⟩ := hsign
  refine isPassed_of_succ (List.cons_ne_nil b more) fun fuel rest hends _ => ?_
  have hskip := h.skipNumber_append hends
  have hother : ∀ c : UInt8, c ≠ byte '-' → isDigit c = false → b ≠ c := by
    rintro c hminus hdigit rfl
    exact hb.elim hminus (isDigit_of_ne · hdigit rfl)
  have hblank : isBlank b = false := by
    rcases hb with rfl | hb
    · decide
    · exact isBlank_of_isDigit hb
  rw [List.cons_append] at hskip ⊢
  rw [skipValueWith, skipBlanks_cons hblank]
  dsimp only
  rw [if_neg (hother _ (by decide) (by decide)), if_neg (hother _ (by decide) (by decide)),
    if_neg (hother _ (by decide) (by decide)), if_pos hb, hskip]

/-- Every value is passed over. -/
theorem IsValue.isPassed (h : IsValue v) : IsPassed v := by
  induction h with
  | null | yes | no => exact isPassed_of_succ (List.cons_ne_nil _ _) fun _ _ _ _ => rfl
  | number h => exact isPassed_of_isNumber h
  | text h =>
    refine isPassed_of_succ (List.cons_ne_nil _ _) fun fuel rest _ _ => ?_
    rw [List.cons_append, List.append_assoc]
    exact h.skipLiteral_append rest
  | list text padded values ih => exact isPassed_of_isListOf ⟨text, padded, values⟩ ih
  | object text framed values ih => exact isPassed_of_isObjectOf ⟨text, framed, values⟩ ih

/-- Blanks and a value are passed over to the end of the value. -/
theorem IsValue.skipValue_append (h : IsValue v) (hgap : IsBlanks gap) (hends : Ends rest) :
    skipValue (gap ++ (v ++ rest)) = .ok rest := by
  rw [skipValue, ← skipValueWith_skipBlanks, skipBlanks_append hgap, skipValueWith_skipBlanks]
  apply h.isPassed _ _ hends
  simp only [List.length_append]
  omega

end LogRelay.Json
