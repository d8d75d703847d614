import LogRelay.Proofs.Time.Rfc3339

/-!
The grammar of RFC 3339 text, and that reading follows it: a text is read exactly if it says a day
of the calendar, a time of that day and an offset from UTC, and then it is read as the instant it
says (`parse?_eq_some_iff`).
-/

namespace LogRelay.Time.Rfc3339

/-- A day of the calendar with a year of four digits, and a time of that day. -/
structure LocalTime where
  year : Nat
  month : Nat
  day : Nat
  hour : Nat
  minute : Nat
  /-- The second 60 is a leap second. -/
  second : Nat
  year_lt : year < 10000
  isDay : (Date.mk year month day).isValid = true
  hour_lt : hour < 24
  minute_lt : minute < 60
  second_le : second ≤ 60

namespace LocalTime

/-- The characters of a local time. -/
def write (l : LocalTime) (separator : Char) : List Char :=
  padded 4 l.year ++ '-' :: padded 2 l.month ++ '-' :: padded 2 l.day ++
    separator :: padded 2 l.hour ++ ':' :: padded 2 l.minute ++ ':' :: padded 2 l.second

/-- The instant at which clocks that are ahead of UTC by `offset` show the local time. -/
def instant (l : LocalTime) (nano : Nat) (offset : Int) : Instant where
  second := Instant.startOf ⟨l.year, l.month, l.day⟩ +
    (l.hour * 3600 + l.minute * 60 + min l.second 59 : Nat) - offset
  nano := nano + if l.second = 60 then nanosPerSecond else 0

end LocalTime

/-- The characters are an optional decimal fraction of a second. What is less than a nanosecond is
cut off. -/
inductive Fraction : List Char → Nat → Prop
  | none : Fraction [] 0
  | some {digits : List Char} (nonempty : digits ≠ []) (decimal : ∀ c ∈ digits, c.isDigit = true) :
      Fraction ('.' :: digits)
        (Nat.ofDigitChars 10 digits 0 * nanosPerSecond / Nat.pow 10 digits.length)

/-- The characters say how far a local time is ahead of UTC. -/
inductive Offset : List Char → Int → Prop
  | utc {c : Char} (hc : c = 'Z' ∨ c = 'z') : Offset [c] 0
  | ahead {hours minutes : Nat} (hhours : hours < 24) (hminutes : minutes < 60) :
      Offset ('+' :: (padded 2 hours ++ ':' :: padded 2 minutes)) (hours * 3600 + minutes * 60)
  /-- The minus sign may stand for the hyphen. -/
  | behind {c : Char} {hours minutes : Nat} (hc : c = '-' ∨ c = '\u2212') (hhours : hours < 24)
      (hminutes : minutes < 60) :
      Offset (c :: (padded 2 hours ++ ':' :: padded 2 minutes)) (-(hours * 3600 + minutes * 60))

/-- The text says the instant. -/
def Denotes (text : String) (t : Instant) : Prop :=
  ∃ (l : LocalTime) (separator : Char) (fraction zone : List Char) (nano : Nat) (offset : Int),
    text.toList = l.write separator ++ (fraction ++ zone) ∧ isSeparator separator = true ∧
      Fraction fraction nano ∧ Offset zone offset ∧ l.instant nano offset = t

variable {a b c : Char} {n nano : Nat} {offset : Int} {text rest digits fraction zone : List Char}

/-! ### Digits -/

theorem digit?_eq_some_iff : digit? c = some n ↔ n < 10 ∧ c = Nat.digitChar n := by
  constructor
  · intro h
    rw [digit?, Option.ite_none_right_eq_some, Option.some.injEq, Char.isDigit_iff_toNat] at h
    obtain ⟨⟨hlow, hhigh⟩, rfl⟩ := h
    change 48 ≤ c.toNat at hlow
    change c.toNat ≤ 57 at hhigh
    have hlt : c.toNat - 48 < 10 := by omega
    refine ⟨hlt, Char.toNat_inj.1 ?_⟩
    rw [Nat.toNat_digitChar_of_lt_ten hlt]
    omega
  · rintro ⟨hlt, rfl⟩
    exact digit?_digitChar hlt

theorem pair?_eq_some_iff : pair? a b = some n ↔ n < 100 ∧ [a, b] = padded 2 n := by
  constructor
  · intro h
    simp only [pair?, Option.bind_eq_bind, Option.bind_eq_some_iff, digit?_eq_some_iff,
      Option.pure_def, Option.some.injEq] at h
    obtain ⟨tens, ⟨htens, rfl⟩, ones, ⟨hones, rfl⟩, rfl⟩ := h
    have hdiv : (10 * tens + ones) / 10 = tens := by omega
    have hmod : (10 * tens + ones) % 10 = ones := by omega
    refine ⟨by omega, ?_⟩
    rw [padded_two (by omega), hdiv, hmod]
  · rintro ⟨hlt, hpair⟩
    rw [padded_two hlt] at hpair
    obtain ⟨rfl, hb⟩ := List.cons.inj hpair
    obtain ⟨rfl, -⟩ := List.cons.inj hb
    exact pair?_of_lt hlt

theorem ofDigitChars_lt (decimal : ∀ c ∈ digits, c.isDigit = true) :
    Nat.ofDigitChars 10 digits 0 < 10 ^ digits.length := by
  induction digits with
  | nil => decide
  | cons c digits ih =>
    have hc := Char.isDigit_iff_toNat.1 (decimal c List.mem_cons_self)
    have hvalue : c.toNat - '0'.toNat ≤ 9 := Nat.sub_le_of_le_add hc.2
    have hlead := Nat.mul_le_mul_left (10 ^ digits.length) hvalue
    have hrest := ih fun d hd => decimal d (List.mem_cons_of_mem c hd)
    rw [Nat.ofDigitChars_cons, Nat.ofDigitChars_eq_ofDigitChars_zero, List.length_cons,
      Nat.pow_succ, Nat.mul_zero, Nat.zero_add]
    calc 10 ^ digits.length * (c.toNat - '0'.toNat) + Nat.ofDigitChars 10 digits 0
        ≤ 10 ^ digits.length * 9 + Nat.ofDigitChars 10 digits 0 := Nat.add_le_add_right hlead _
      _ < 10 ^ digits.length * 9 + 10 ^ digits.length := Nat.add_lt_add_left hrest _
      _ = 10 ^ digits.length * 10 := (Nat.mul_succ _ 9).symm

/-! ### Fraction -/

/-- Nine digits are kept. -/
theorem ofDigits_take (decimal : ∀ c ∈ digits, c.isDigit = true) :
    ofDigits (digits.take 9) * Nat.pow 10 (9 - (digits.take 9).length) =
      Nat.ofDigitChars 10 digits 0 * nanosPerSecond / Nat.pow 10 digits.length := by
  change Nat.ofDigitChars 10 (digits.take 9) 0 * 10 ^ (9 - (digits.take 9).length) =
    Nat.ofDigitChars 10 digits 0 * 10 ^ 9 / 10 ^ digits.length
  rcases Nat.le_or_ge digits.length 9 with hshort | hlong
  · rw [List.take_of_length_le hshort, Nat.mul_div_assoc _ (Nat.pow_dvd_pow 10 hshort),
      Nat.pow_div hshort (by decide)]
  · have hdrop := ofDigitChars_lt fun c hc => decimal c (List.mem_of_mem_drop hc (i := 9))
    have hlength : digits.length = (digits.drop 9).length + 9 := by
      rw [List.length_drop]
      omega
    have hvalue : Nat.ofDigitChars 10 digits 0 =
        10 ^ (digits.drop 9).length * Nat.ofDigitChars 10 (digits.take 9) 0 +
          Nat.ofDigitChars 10 (digits.drop 9) 0 := by
      rw [← Nat.ofDigitChars_eq_ofDigitChars_zero, ← Nat.ofDigitChars_append,
        List.take_append_drop]
    rw [List.length_take_of_le hlong, hlength, hvalue, Nat.pow_add,
      Nat.mul_div_mul_right _ _ (by decide), Nat.mul_add_div (Nat.pow_pos (by decide)),
      Nat.div_eq_of_lt hdrop]
    simp

theorem exists_fraction (h : fraction? text = some (nano, rest)) :
    ∃ fraction, text = fraction ++ rest ∧ Fraction fraction nano := by
  rw [fraction?.eq_def] at h
  split at h
  · rename_i text
    have hspan := Text.span_takeWhile Char.isDigit text
    simp only [List.isEmpty_iff, Option.ite_none_left_eq_some, Option.some.injEq,
      Prod.mk.injEq] at h
    obtain ⟨hne, rfl, rfl⟩ := h
    refine ⟨'.' :: text.takeWhile Char.isDigit, congrArg ('.' :: ·) hspan.split, ?_⟩
    rw [ofDigits_take hspan.inside]
    refine .some (fun hnil => hne ?_) hspan.inside
    rw [hnil, List.take_nil]
  · cases h
    exact ⟨[], rfl, .none⟩

theorem fraction?_append (h : Fraction fraction nano)
    (hzone : ∀ c, zone.head? = some c → c.isDigit = false ∧ c ≠ '.') :
    fraction? (fraction ++ zone) = some (nano, zone) := by
  cases h with
  | none =>
    rw [List.nil_append, fraction?.eq_def]
    split
    · exact absurd rfl (hzone '.' rfl).2
    · rfl
  | @some digits nonempty decimal =>
    have hspan : Text.Span Char.isDigit (digits ++ zone) digits zone :=
      ⟨rfl, decimal, fun c hc => (hzone c hc).1⟩
    have hne : ¬ (digits.take 9).isEmpty = true := by
      rw [List.isEmpty_iff, List.take_eq_nil_iff]
      simpa using nonempty
    rw [List.cons_append, fraction?, hspan.takeWhile_eq, hspan.dropWhile_eq, if_neg hne,
      ofDigits_take decimal]

/-! ### Offset -/

theorem sign?_eq_some_iff {sign : Int} : sign? c = some sign ↔
    c = '+' ∧ sign = 1 ∨ (c = '-' ∨ c = '\u2212') ∧ sign = -1 := by
  constructor
  · intro h
    rw [sign?] at h
    split at h
    · rename_i hplus
      exact .inl ⟨hplus, (Option.some.inj h).symm⟩
    · rw [Option.ite_none_right_eq_some] at h
      exact .inr ⟨h.1, (Option.some.inj h.2).symm⟩
  · rintro (⟨rfl, rfl⟩ | ⟨rfl | rfl, rfl⟩) <;> rfl

theorem offset_of_offset? (h : offset? zone = some offset) : Offset zone offset := by
  rw [offset?.eq_def] at h
  split at h
  · cases h
    exact .utc (.inl rfl)
  · cases h
    exact .utc (.inr rfl)
  · rename_i s h1 h2 m1 m2
    simp only [Option.bind_eq_bind, Option.bind_eq_some_iff, pair?_eq_some_iff,
      Option.ite_none_right_eq_some, Option.pure_def, Option.some.injEq] at h
    obtain ⟨sign, hsign, hours, ⟨-, hh⟩, minutes, ⟨-, hm⟩, ⟨hhours, hminutes⟩, rfl⟩ := h
    have htext : [s, h1, h2, ':', m1, m2] = s :: (padded 2 hours ++ ':' :: padded 2 minutes) := by
      rw [← hh, ← hm]
      rfl
    rw [htext]
    rcases sign?_eq_some_iff.1 hsign with ⟨rfl, rfl⟩ | ⟨hs, rfl⟩
    · rw [Int.one_mul]
      exact .ahead hhours hminutes
    · rw [Int.neg_one_mul]
      exact .behind hs hhours hminutes
  · cases h

theorem offset?_of_offset (h : Offset zone offset) : offset? zone = some offset := by
  cases h with
  | utc hc => rcases hc with rfl | rfl <;> rfl
  | ahead hhours hminutes =>
    rw [offset?_of_sign rfl ⟨_, hhours⟩ ⟨_, hminutes⟩, Int.one_mul]
  | behind hc hhours hminutes =>
    rw [offset?_of_sign (sign?_eq_some_iff.2 (.inr ⟨hc, rfl⟩)) ⟨_, hhours⟩ ⟨_, hminutes⟩,
      Int.neg_one_mul]

theorem Offset.head (h : Offset zone offset) (hc : zone.head? = some c) :
    c.isDigit = false ∧ c ≠ '.' := by
  cases h with
  | utc hz =>
    cases hc
    rcases hz with rfl | rfl <;> decide
  | ahead =>
    cases hc
    decide
  | behind hs =>
    cases hc
    rcases hs with rfl | rfl <;> decide

/-! ### The whole text -/

theorem clock?_eq_some_iff {hour minute second clock leap : Nat} :
    clock? hour minute second = some (clock, leap) ↔
      (hour < 24 ∧ minute < 60 ∧ second ≤ 60) ∧
        clock = hour * 3600 + minute * 60 + min second 59 ∧
        leap = if second = 60 then nanosPerSecond else 0 := by
  rw [clock?]
  split
  · rw [Option.some.injEq, Prod.mk.injEq]
    grind
  · grind

theorem LocalTime.read?_write (l : LocalTime) {separator : Char}
    (hseparator : isSeparator separator = true) (hfraction : Fraction fraction nano)
    (hoffset : Offset zone offset) :
    read? (l.write separator ++ (fraction ++ zone)) = some (l.instant nano offset) := by
  obtain ⟨hmonth, hday⟩ : l.month ≤ 12 ∧ l.day ≤ 31 := Date.bounds_of_isValid l.isDay
  have hhour := l.hour_lt
  have hminute := l.minute_lt
  have hsecond := l.second_le
  rw [write, read?_padded separator _ l.year_lt (by omega) (by omega) (by omega) (by omega)
    (by omega), clock?_eq_some_iff.2 ⟨⟨hhour, hminute, hsecond⟩, rfl, rfl⟩]
  simp only [Option.bind_some, fraction?_append hfraction fun _ => hoffset.head,
    offset?_of_offset hoffset, hseparator, l.isDay, Bool.and_self, if_true]
  rfl

theorem exists_localTime {t : Instant} (h : read? text = some t) :
    ∃ (l : LocalTime) (separator : Char) (fraction zone : List Char) (nano : Nat) (offset : Int),
      text = l.write separator ++ (fraction ++ zone) ∧ isSeparator separator = true ∧
        Fraction fraction nano ∧ Offset zone offset ∧ l.instant nano offset = t := by
  rw [read?.eq_def] at h
  split at h
  · rename_i y1 y2 y3 y4 o1 o2 d1 d2 separator h1 h2 n1 n2 s1 s2 rest
    simp only [Option.bind_eq_bind, Option.bind_eq_some_iff, pair?_eq_some_iff, Prod.exists,
      clock?_eq_some_iff, Option.ite_none_right_eq_some, Option.pure_def, Option.some.injEq,
      Bool.and_eq_true] at h
    obtain ⟨century, ⟨hcentury, hy⟩, year, ⟨hyear, hy'⟩, month, ⟨-, ho⟩, day, ⟨-, hd⟩, hour,
      ⟨-, hh⟩, minute, ⟨-, hn⟩, second, ⟨-, hs⟩, clock, leap,
      ⟨⟨hhour, hminute, hsecond⟩, rfl, rfl⟩, nano, zone, hread, offset, hoffset,
      ⟨hseparator, hvalid⟩, rfl⟩ := h
    obtain ⟨fraction, rfl, hfraction⟩ := exists_fraction hread
    refine ⟨⟨century * 100 + year, month, day, hour, minute, second, by omega, hvalid, hhour,
      hminute, hsecond⟩, separator, fraction, zone, nano, offset, ?_, hseparator, hfraction,
      offset_of_offset? hoffset, rfl⟩
    have hdiv : (century * 100 + year) / 100 = century := by omega
    have hmod : (century * 100 + year) % 100 = year := by omega
    rw [LocalTime.write, padded_four, hdiv, hmod, ← hy, ← hy', ← ho, ← hd, ← hh, ← hn, ← hs]
    rfl
  · cases h

/-- A text is read as the instant that it says, if it says one. -/
theorem parse?_eq_some_iff {text : String} {t : Instant} :
    parse? text = some t ↔ Denotes text t := by
  constructor
  · exact exists_localTime
  · rintro ⟨l, separator, fraction, zone, nano, offset, htext, hseparator, hfraction, hoffset, rfl⟩
    rw [parse?, htext]
    exact l.read?_write hseparator hfraction hoffset

/-- A leap second of UTC on the clock of another zone; the tenth digit is cut off. -/
example : parse? "2017-01-01t00:59:60.0000000019+01:00" = some ⟨1483228799, 1000000001⟩ := by
  decide +kernel

end LogRelay.Time.Rfc3339
