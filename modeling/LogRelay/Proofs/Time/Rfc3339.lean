import LogRelay.Proofs.Text
import LogRelay.Proofs.Time.Calendar
import LogRelay.Time.Rfc3339

/-!
Reading RFC 3339 text gives the instant that was written, whatever the zone and the fraction it is
written with (`parse?_of_isWritten`).
-/

namespace LogRelay.Time.Rfc3339

/-- How far a local time is ahead of UTC, in whole minutes and less than a day. -/
inductive Zone where
  /-- No offset; the letter may be a small one. -/
  | utc (small : Bool)
  | ahead (hours : Fin 24) (minutes : Fin 60)
  | behind (hours : Fin 24) (minutes : Fin 60)

namespace Zone

/-- The offset in seconds. -/
def seconds : Zone → Int
  | utc _ => 0
  | ahead hours minutes => hours * 3600 + minutes * 60
  | behind hours minutes => -(hours * 3600 + minutes * 60)

/-- The offset as it is written. -/
def write : Zone → List Char
  | utc false => ['Z']
  | utc true => ['z']
  | ahead hours minutes => '+' :: (padded 2 hours ++ ':' :: padded 2 minutes)
  | behind hours minutes => '-' :: (padded 2 hours ++ ':' :: padded 2 minutes)

end Zone

/-- The characters are a decimal fraction of a second, of at most nine digits, which is exactly that
many nanoseconds. -/
inductive IsFraction : List Char → Nat → Prop
  | none : IsFraction [] 0
  | some {digits : List Char} {nano : Nat} (nonempty : digits ≠ []) (short : digits.length ≤ 9)
      (decimal : ∀ c ∈ digits, c.isDigit = true)
      (value : Nat.ofDigitChars 10 digits 0 * Nat.pow 10 (9 - digits.length) = nano) :
      IsFraction ('.' :: digits) nano

/-- The local date of an instant. -/
def localDate (zone : Zone) (t : Instant) : Date :=
  Date.ofDayNumber ((t.second + zone.seconds) / 86400)

/-- The seconds since local midnight. -/
def localClock (zone : Zone) (t : Instant) : Nat :=
  ((t.second + zone.seconds) % 86400).toNat

/-- An instant in local time, with the separator between date and clock and the fraction given. -/
def writeLocal (zone : Zone) (separator : Char) (fraction : List Char) (t : Instant) : List Char :=
  let date := localDate zone t
  let clock := localClock zone t
  padded 4 date.year.toNat ++ '-' :: padded 2 date.month ++ '-' :: padded 2 date.day ++
    separator :: padded 2 (clock / 3600) ++ ':' :: padded 2 (clock / 60 % 60) ++
    ':' :: padded 2 (clock % 60) ++ fraction ++ zone.write

/-- The text is one of the ways to write the instant; its local year has four digits. -/
def IsWritten (text : String) (t : Instant) : Prop :=
  ∃ zone separator fraction, text.toList = writeLocal zone separator fraction t ∧
    0 ≤ (localDate zone t).year ∧ (localDate zone t).year ≤ 9999 ∧
    isSeparator separator = true ∧ IsFraction fraction t.nano

/-! ### Digits -/

theorem digit?_digitChar {d : Nat} (h : d < 10) : digit? (Nat.digitChar d) = some d := by
  have hall : ∀ d < 10, digit? (Nat.digitChar d) = some d := by decide
  exact hall d h

theorem pair?_digitChar {a b : Nat} (ha : a < 10) (hb : b < 10) :
    pair? (Nat.digitChar a) (Nat.digitChar b) = some (10 * a + b) := by
  rw [pair?, digit?_digitChar ha, digit?_digitChar hb]
  rfl

theorem padded_one {n : Nat} (h : n < 10) : padded 1 n = [Nat.digitChar n] := by
  rw [padded, Nat.toDigits_of_lt_base h]
  rfl

/-- The last digit comes off the end. -/
theorem padded_succ {width n : Nat} (h : 0 < width) :
    padded (width + 1) n = padded width (n / 10) ++ [Nat.digitChar (n % 10)] := by
  simp only [padded]
  rcases Nat.lt_or_ge n 10 with hlt | hge
  · have hzero : n / 10 = 0 := Nat.div_eq_of_lt hlt
    have hwidth : width + 1 - [Nat.digitChar n].length = width - 1 + 1 := by simp; omega
    rw [hzero, Nat.mod_eq_of_lt hlt, Nat.toDigits_of_lt_base hlt, hwidth, List.replicate_succ']
    rfl
  · have hsplit : Nat.toDigits 10 n = Nat.toDigits 10 (n / 10) ++ [Nat.digitChar (n % 10)] := by
      rw [Nat.toDigits_eq_if (by decide), if_neg (Nat.not_lt.2 hge)]
    rw [hsplit, List.length_append, List.length_singleton, Nat.add_sub_add_right, List.append_assoc]

theorem padded_two {n : Nat} (h : n < 100) :
    padded 2 n = [Nat.digitChar (n / 10), Nat.digitChar (n % 10)] := by
  rw [padded_succ (by decide), padded_one (by omega)]
  rfl

theorem padded_four (n : Nat) :
    padded 4 n = padded 2 (n / 100) ++ padded 2 (n % 100) := by
  have htens : n % 100 / 10 = n / 10 % 10 := by omega
  have hones : n % 100 % 10 = n % 10 := by omega
  rw [padded_succ (by decide), padded_succ (by decide), Nat.div_div_eq_div_mul,
    padded_two (Nat.mod_lt n (by decide)), htens, hones, List.append_assoc]
  rfl

theorem pair?_of_lt {n : Nat} (h : n < 100) :
    pair? (Nat.digitChar (n / 10)) (Nat.digitChar (n % 10)) = some n := by
  rw [pair?_digitChar (by omega) (by omega)]
  congr 1
  omega

/-! ### Zone and fraction -/

theorem offset?_of_sign {s : Char} {sign : Int} (hs : sign? s = some sign) (hours : Fin 24)
    (minutes : Fin 60) : offset? (s :: (padded 2 hours ++ ':' :: padded 2 minutes)) =
      some (sign * (hours * 3600 + minutes * 60)) := by
  have hhours := hours.isLt
  have hminutes := minutes.isLt
  rw [padded_two (by omega), padded_two (by omega)]
  change offset? [s, _, _, ':', _, _] = _
  rw [offset?, hs, pair?_of_lt (by omega), pair?_of_lt (by omega)]
  exact if_pos ⟨hhours, hminutes⟩

theorem offset?_write (zone : Zone) : offset? zone.write = some zone.seconds := by
  cases zone with
  | utc small => cases small <;> rfl
  | ahead hours minutes =>
    rw [Zone.write, offset?_of_sign rfl, Int.one_mul]
    rfl
  | behind hours minutes =>
    rw [Zone.write, offset?_of_sign rfl, Int.neg_one_mul]
    rfl

theorem span_digits {digits : List Char} (decimal : ∀ c ∈ digits, c.isDigit = true) (zone : Zone) :
    Text.Span Char.isDigit (digits ++ zone.write) digits zone.write where
  split := rfl
  inside := decimal
  boundary := fun c hc => by
    cases zone with
    | utc small => cases small <;> cases hc <;> rfl
    | ahead | behind =>
      cases hc
      rfl

theorem fraction?_write {fraction : List Char} {nano : Nat} (h : IsFraction fraction nano)
    (zone : Zone) : fraction? (fraction ++ zone.write) = some (nano, zone.write) := by
  cases h with
  | none =>
    cases zone with
    | utc small => cases small <;> rfl
    | ahead => rfl
    | behind => rfl
  | @some digits _ nonempty short decimal value =>
    subst value
    have hspan := span_digits decimal zone
    rw [List.cons_append, fraction?, hspan.takeWhile_eq, hspan.dropWhile_eq,
      List.take_of_length_le short]
    rw [if_neg (by simpa using nonempty)]
    rfl

/-! ### The whole text -/

theorem clock?_split {clock : Nat} (h : clock < 86400) :
    clock? (clock / 3600) (clock / 60 % 60) (clock % 60) = some (clock, 0) := by
  have hsum : clock / 3600 * 3600 + clock / 60 % 60 * 60 + clock % 60 = clock := by omega
  rw [clock?, if_pos (by omega), hsum]

theorem startOf_localDate (zone : Zone) (t : Instant) :
    Instant.startOf (localDate zone t) + localClock zone t - zone.seconds = t.second := by
  rw [Instant.startOf, localDate, localClock, Date.dayNumber_ofDayNumber]
  omega

/-- The digits of date and clock are read back two by two. -/
theorem read?_padded {year month day hour minute second : Nat} (separator : Char) (rest : List Char)
    (hyear : year < 10000) (hmonth : month < 100) (hday : day < 100) (hhour : hour < 100)
    (hminute : minute < 100) (hsecond : second < 100) :
    read? (padded 4 year ++ '-' :: padded 2 month ++ '-' :: padded 2 day ++
        separator :: padded 2 hour ++ ':' :: padded 2 minute ++ ':' :: padded 2 second ++ rest) =
      (clock? hour minute second).bind fun (clock, leap) =>
        (fraction? rest).bind fun (nanos, zone) => (offset? zone).bind fun offset =>
          if isSeparator separator && (Date.mk year month day).isValid then
            some ⟨Instant.startOf (Date.mk year month day) + clock - offset, nanos + leap⟩
          else none := by
  have hcentury : year / 100 < 100 := by omega
  have hjoin : year / 100 * 100 + year % 100 = year := by omega
  rw [padded_four, padded_two hcentury, padded_two (Nat.mod_lt year (by decide)),
    padded_two hmonth, padded_two hday, padded_two hhour, padded_two hminute, padded_two hsecond]
  simp only [List.cons_append, List.nil_append]
  rw [read?, pair?_of_lt hcentury, pair?_of_lt (Nat.mod_lt year (by decide)), pair?_of_lt hmonth,
    pair?_of_lt hday, pair?_of_lt hhour, pair?_of_lt hminute, pair?_of_lt hsecond]
  simp only [Option.bind_eq_bind, Option.bind_some, hjoin]
  rfl

theorem read?_writeLocal (zone : Zone) {separator : Char} {fraction : List Char} {t : Instant}
    (hfirst : 0 ≤ (localDate zone t).year) (hlast : (localDate zone t).year ≤ 9999)
    (hseparator : isSeparator separator = true) (hfraction : IsFraction fraction t.nano) :
    read? (writeLocal zone separator fraction t) = some t := by
  have hvalid : (localDate zone t).isValid = true := Date.isValid_ofDayNumber _
  obtain ⟨hmonth, hday⟩ := Date.bounds_of_isValid hvalid
  have hclock : localClock zone t < 86400 := by
    rw [localClock]
    omega
  have hdate : Date.mk (localDate zone t).year.toNat (localDate zone t).month
      (localDate zone t).day = localDate zone t := by
    rw [Int.toNat_of_nonneg hfirst]
  rw [writeLocal, List.append_assoc _ fraction, read?_padded separator _ (by omega) (by omega)
    (by omega) (by omega) (by omega) (by omega), clock?_split hclock, hdate]
  simp only [Option.bind_some, fraction?_write hfraction, offset?_write, hseparator, hvalid,
    Bool.and_self, if_true, startOf_localDate, Nat.add_zero]

theorem parse?_of_isWritten {text : String} {t : Instant} (h : IsWritten text t) :
    parse? text = some t := by
  obtain ⟨zone, separator, fraction, htext, hfirst, hlast, hseparator, hfraction⟩ := h
  rw [parse?, htext]
  exact read?_writeLocal zone hfirst hlast hseparator hfraction

end LogRelay.Time.Rfc3339
