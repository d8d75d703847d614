import LogRelay.Proofs.Time.Grammar

/-!
Instants as they are put out: in UTC, and with a year of any size. RFC 3339 has years of four digits
only; any other is written with its sign. A stamp says one instant at most (`Stamps.unique`), and what
is written for an instant says that instant (`stamps_render`).
-/

namespace LogRelay.Time

/-- The instant with its leap second at the end of a minute. Elsewhere the nanoseconds from 10⁹ on
just go on into the next second. -/
def Instant.settled (t : Instant) : Instant :=
  if nanosPerSecond ≤ t.nano ∧ t.second % 60 ≠ 59 then ⟨t.second + 1, t.nano - nanosPerSecond⟩ else t

namespace Rfc3339

/-- The characters are the year: four digits, or a sign and at least as many. -/
inductive IsYear : List Char → Int → Prop
  | plain {n : Nat} (h : n < 10000) : IsYear (padded 4 n) n
  | later {n : Nat} (h : 10000 ≤ n) : IsYear ('+' :: padded 4 n) n
  | earlier {n : Nat} (h : 0 < n) : IsYear ('-' :: padded 4 n) (-n)

/-- A day of the calendar and a time of that day in UTC. -/
structure UtcTime where
  date : Date
  hour : Nat
  minute : Nat
  /-- The second 60 is a leap second. -/
  second : Nat
  isDay : date.isValid = true
  hour_lt : hour < 24
  minute_lt : minute < 60
  second_le : second ≤ 60

namespace UtcTime

/-- The characters after the year. -/
def write (u : UtcTime) : List Char :=
  '-' :: padded 2 u.date.month ++ '-' :: padded 2 u.date.day ++
    'T' :: padded 2 u.hour ++ ':' :: padded 2 u.minute ++ ':' :: padded 2 u.second

/-- The instant that many nanoseconds later. -/
def instant (u : UtcTime) (nano : Nat) : Instant where
  second := Instant.startOf u.date + (u.hour * 3600 + u.minute * 60 + min u.second 59 : Nat)
  nano := nano + if u.second = 60 then nanosPerSecond else 0

end UtcTime

/-- The text says the instant in UTC. -/
def Stamps (text : String) (t : Instant) : Prop :=
  ∃ (u : UtcTime) (year fraction : List Char) (nano : Nat),
    text.toList = year ++ (u.write ++ (fraction ++ ['Z'])) ∧ IsYear year u.date.year ∧
      Fraction fraction nano ∧ u.instant nano = t

variable {width m n nano nano' : Nat} {y y' : Int} {u u' : UtcTime} {t t' : Instant}
  {year year' fraction fraction' rest rest' : List Char}

/-! ### Padded numbers -/

theorem isDigit_of_mem_padded : ∀ c ∈ padded width n, c.isDigit = true := by
  intro c hc
  rcases List.mem_append.1 hc with hc | hc
  · rw [List.eq_of_mem_replicate hc]
    rfl
  · exact Nat.isDigit_of_mem_toDigits (by decide) (by decide) hc

theorem ofDigitChars_padded (width n : Nat) : Nat.ofDigitChars 10 (padded width n) 0 = n := by
  simp only [padded]
  rw [Nat.ofDigitChars_append, Nat.ofDigitChars_replicate_zero, Nat.mul_zero,
    Nat.ofDigitChars_toDigits (by decide) (by decide)]

theorem padded_injective (h : padded width m = padded width n) : m = n := by
  have hvalue := congrArg (fun digits => Nat.ofDigitChars 10 digits 0) h
  simpa only [ofDigitChars_padded] using hvalue

theorem length_padded (hwidth : 0 < width) (h : n < 10 ^ width) : (padded width n).length = width := by
  have hdigits := (Nat.length_toDigits_le_iff (by decide) hwidth).2 h
  simp only [padded, List.length_append, List.length_replicate]
  omega

theorem padded_two_append_inj (hm : m < 100) (hn : n < 100)
    (h : padded 2 m ++ rest = padded 2 n ++ rest') : m = n ∧ rest = rest' := by
  have hlength : (padded 2 m).length = (padded 2 n).length := by
    rw [length_padded (by decide) hm, length_padded (by decide) hn]
  obtain ⟨hpadded, hrest⟩ := List.append_inj h hlength
  exact ⟨padded_injective hpadded, hrest⟩

/-! ### What a stamp says -/

/-- The number that the characters of a year stand for. -/
def yearOf : List Char → Int
  | '+' :: digits => Nat.ofDigitChars 10 digits 0
  | '-' :: digits => -Nat.ofDigitChars 10 digits 0
  | digits => Nat.ofDigitChars 10 digits 0

theorem exists_padded_four (n : Nat) : ∃ c digits, padded 4 n = c :: digits := by
  rw [padded_four]
  exact List.exists_cons_of_ne_nil (by simp [padded])

/-- After its first character a year has digits only. -/
theorem IsYear.exists_cons (h : IsYear year y) :
    ∃ c digits, year = c :: digits ∧ ∀ d ∈ digits, d.isDigit = true := by
  cases h with
  | @plain n h =>
    obtain ⟨c, digits, hn⟩ := exists_padded_four n
    refine ⟨c, digits, hn, fun d hd => ?_⟩
    exact isDigit_of_mem_padded d (hn ▸ List.mem_cons_of_mem c hd)
  | later => exact ⟨_, _, rfl, isDigit_of_mem_padded⟩
  | earlier => exact ⟨_, _, rfl, isDigit_of_mem_padded⟩

theorem IsYear.yearOf_eq (h : IsYear year y) : yearOf year = y := by
  cases h with
  | @plain n h =>
    obtain ⟨c, digits, hn⟩ := exists_padded_four n
    have hdigit : c.isDigit = true := isDigit_of_mem_padded c (hn ▸ List.mem_cons_self)
    have hvalue := ofDigitChars_padded 4 n
    rw [hn] at hvalue
    rw [hn, ← hvalue]
    unfold yearOf
    split
    · rename_i heq
      rw [(List.cons.inj heq).1] at hdigit
      cases hdigit
    · rename_i heq
      rw [(List.cons.inj heq).1] at hdigit
      cases hdigit
    · rfl
  | later => exact congrArg _ (ofDigitChars_padded 4 _)
  | earlier => exact congrArg (fun n : Nat => -(n : Int)) (ofDigitChars_padded 4 _)

/-- The year ends at the first hyphen after its first character. -/
theorem IsYear.append_inj (h : IsYear year y) (h' : IsYear year' y')
    (heq : year ++ '-' :: rest = year' ++ '-' :: rest') : y = y' ∧ rest = rest' := by
  have hy := h.yearOf_eq
  have hy' := h'.yearOf_eq
  obtain ⟨c, digits, rfl, hdigits⟩ := h.exists_cons
  obtain ⟨c', digits', rfl, hdigits'⟩ := h'.exists_cons
  rw [List.cons_append, List.cons_append] at heq
  obtain ⟨rfl, htail⟩ := List.cons.inj heq
  have hspan := Text.span_append_cons hdigits (c := '-') (by decide) rest
  have hspan' := Text.span_append_cons hdigits' (c := '-') (by decide) rest'
  have hrun := hspan.takeWhile_eq
  have hleft := hspan.dropWhile_eq
  rw [htail, hspan'.takeWhile_eq] at hrun
  rw [htail, hspan'.dropWhile_eq] at hleft
  subst hrun
  exact ⟨hy.symm.trans hy', ((List.cons.inj hleft).2).symm⟩

theorem fraction_append_inj (h : Fraction fraction nano) (h' : Fraction fraction' nano')
    (heq : fraction ++ ['Z'] = fraction' ++ ['Z']) : nano = nano' := by
  have hzone : ∀ c, (['Z'] : List Char).head? = some c → c.isDigit = false ∧ c ≠ '.' := by
    rintro _ ⟨⟩
    exact ⟨rfl, by decide⟩
  have hread := fraction?_append h hzone
  rw [heq, fraction?_append h' hzone] at hread
  exact (Prod.mk.inj (Option.some.inj hread)).1.symm

/-- A text says no two instants. -/
theorem Stamps.unique {text : String} (h : Stamps text t) (h' : Stamps text t') : t = t' := by
  obtain ⟨⟨⟨y, month, day⟩, hour, minute, second, isDay, hour_lt, minute_lt, second_le⟩, year,
    fraction, nano, htext, hyear, hfraction, rfl⟩ := h
  obtain ⟨⟨⟨y', month', day'⟩, hour', minute', second', isDay', hour_lt', minute_lt', second_le'⟩,
    year', fraction', nano', htext', hyear', hfraction', rfl⟩ := h'
  obtain ⟨hmonth, hday⟩ := Date.bounds_of_isValid isDay
  obtain ⟨hmonth', hday'⟩ := Date.bounds_of_isValid isDay'
  dsimp only at hyear hyear' hmonth hday hmonth' hday'
  rw [htext] at htext'
  simp only [UtcTime.write, List.append_assoc, List.cons_append] at htext'
  obtain ⟨rfl, hafterYear⟩ := hyear.append_inj hyear' htext'
  obtain ⟨rfl, hafterMonth⟩ := padded_two_append_inj (by omega) (by omega) hafterYear
  obtain ⟨rfl, hafterDay⟩ :=
    padded_two_append_inj (by omega) (by omega) (List.cons.inj hafterMonth).2
  obtain ⟨rfl, hafterHour⟩ :=
    padded_two_append_inj (by omega) (by omega) (List.cons.inj hafterDay).2
  obtain ⟨rfl, hafterMinute⟩ :=
    padded_two_append_inj (by omega) (by omega) (List.cons.inj hafterHour).2
  obtain ⟨rfl, hafterSecond⟩ :=
    padded_two_append_inj (by omega) (by omega) (List.cons.inj hafterMinute).2
  obtain rfl := fraction_append_inj hfraction hfraction' hafterSecond
  rfl

/-! ### What is written -/

theorem isYear_writeYear (y : Int) : IsYear (writeYear y) y := by
  rw [writeYear]
  split
  · rename_i h
    have hy : (y.toNat : Int) = y := Int.toNat_of_nonneg h.1
    have hplain : IsYear (padded 4 y.toNat) y.toNat := .plain (by omega)
    rwa [hy] at hplain
  · rename_i h
    split
    · rename_i hneg
      have hy : -(y.natAbs : Int) = y := by omega
      have hearlier : IsYear ('-' :: padded 4 y.natAbs) (-y.natAbs) := .earlier (by omega)
      rwa [hy] at hearlier
    · rename_i hpos
      have hy : (y.natAbs : Int) = y := by omega
      have hlater : IsYear ('+' :: padded 4 y.natAbs) y.natAbs := .later (by omega)
      rwa [hy] at hlater

theorem fraction_padded (hwidth : 0 < width) (h : n < 10 ^ width)
    (hvalue : n * nanosPerSecond / 10 ^ width = nano) : Fraction ('.' :: padded width n) nano := by
  have hlength := length_padded hwidth h
  have hne : padded width n ≠ [] := List.ne_nil_of_length_pos (hlength.symm ▸ hwidth)
  have hfraction : Fraction ('.' :: padded width n)
      (Nat.ofDigitChars 10 (padded width n) 0 * nanosPerSecond / 10 ^ (padded width n).length) :=
    .some hne isDigit_of_mem_padded
  rwa [ofDigitChars_padded, hlength, hvalue] at hfraction

theorem fraction_writeFraction (h : nano < nanosPerSecond) : Fraction (writeFraction nano) nano := by
  rw [nanosPerSecond] at h
  rw [writeFraction]
  split
  · rename_i hzero
    rw [hzero]
    exact .none
  · split
    · exact fraction_padded (by decide) (by omega) (by rw [nanosPerSecond]; omega)
    · split
      · exact fraction_padded (by decide) (by omega) (by rw [nanosPerSecond]; omega)
      · exact fraction_padded (by decide) (by omega) (by rw [nanosPerSecond]; omega)

/-- The day and the time of an instant; a leap second is the last of its minute. -/
def utcTime (t : Instant) : UtcTime where
  date := Date.ofDayNumber (t.second / 86400)
  hour := (t.second % 86400).toNat / 3600
  minute := (t.second % 86400).toNat / 60 % 60
  second := (t.second % 86400).toNat % 60 + if nanosPerSecond ≤ t.nano then 1 else 0
  isDay := Date.isValid_ofDayNumber _
  hour_lt := by omega
  minute_lt := Nat.mod_lt _ (by decide)
  second_le := by split <;> omega

/-- The nanoseconds of an instant after the second that is written. -/
def nanosAfter (t : Instant) : Nat :=
  if nanosPerSecond ≤ t.nano then t.nano - nanosPerSecond else t.nano

theorem instant_utcTime (t : Instant) : (utcTime t).instant (nanosAfter t) = t.settled := by
  have hdate : Instant.startOf (Date.ofDayNumber (t.second / 86400)) = t.second / 86400 * 86400 := by
    rw [Instant.startOf, Date.dayNumber_ofDayNumber]
  obtain ⟨second, nano⟩ := t
  dsimp only at hdate
  simp only [UtcTime.instant, utcTime, nanosAfter, Instant.settled, hdate]
  by_cases hleap : nanosPerSecond ≤ nano
  · by_cases hlast : second % 60 = 59
    · have hminute : (second % 86400).toNat % 60 + 1 = 60 := by omega
      simp only [hleap, hlast, hminute, if_true, ne_eq, not_true_eq_false, and_false, if_false,
        Instant.mk.injEq]
      omega
    · have hminute : (second % 86400).toNat % 60 + 1 ≠ 60 := by omega
      simp only [hleap, hlast, hminute, if_true, ne_eq, not_false_eq_true, and_self, if_false,
        Instant.mk.injEq]
      omega
  · have hminute : (second % 86400).toNat % 60 ≠ 60 := by omega
    simp only [hleap, hminute, if_false, false_and, Nat.add_zero, Instant.mk.injEq, and_true]
    omega

/-- What is written for an instant says that instant. -/
theorem stamps_render (h : t.nano < 2 * nanosPerSecond) : Stamps (render t) t.settled := by
  have hnano : nanosAfter t < nanosPerSecond := by
    rw [nanosAfter]
    split <;> omega
  refine ⟨utcTime t, writeYear (utcTime t).date.year, writeFraction (nanosAfter t), nanosAfter t, ?_,
    isYear_writeYear _, fraction_writeFraction hnano, instant_utcTime t⟩
  simp only [render, String.toList_ofList, write, UtcTime.write, utcTime, nanosAfter,
    List.append_assoc, List.cons_append]

/-- What is written for an instant does not tell a second that runs on from the one after it. -/
theorem render_settled (h : t.nano < 2 * nanosPerSecond) : render t.settled = render t := by
  obtain ⟨second, nano⟩ := t
  rw [Instant.settled]
  split
  · rename_i hleap
    obtain ⟨hnano, hlast⟩ := hleap
    dsimp only at h hnano hlast
    have hday : (second + 1) / 86400 = second / 86400 := by omega
    have hclock : ((second + 1) % 86400).toNat = (second % 86400).toNat + 1 := by omega
    have hhour : ((second % 86400).toNat + 1) / 3600 = (second % 86400).toNat / 3600 := by omega
    have hminute : ((second % 86400).toNat + 1) / 60 % 60 = (second % 86400).toNat / 60 % 60 := by
      omega
    have hsecond : ((second % 86400).toNat + 1) % 60 = (second % 86400).toNat % 60 + 1 := by omega
    have hplain : ¬ nanosPerSecond ≤ nano - nanosPerSecond := by omega
    simp only [render, write, hday, hclock, hhour, hminute, hsecond, hplain, hnano, if_true, if_false,
      Nat.add_zero]
  · rfl

/-- A stamp whose year has no sign is RFC 3339 text of the same instant. -/
theorem Stamps.denotes {text : String} (h : Stamps text t)
    (hsign : ∀ c ∈ text.toList.head?, c.isDigit = true) : Denotes text t := by
  obtain ⟨⟨⟨y, month, day⟩, hour, minute, second, isDay, hour_lt, minute_lt, second_le⟩, year,
    fraction, nano, htext, hyear, hfraction, rfl⟩ := h
  rw [htext] at hsign
  cases hyear with
  | plain hlt =>
    refine ⟨⟨_, month, day, hour, minute, second, hlt, isDay, hour_lt, minute_lt, second_le⟩, 'T',
      fraction, ['Z'], nano, 0, ?_, rfl, hfraction, .utc (.inl rfl), ?_⟩
    · rw [htext]
      simp only [LocalTime.write, UtcTime.write, List.append_assoc, List.cons_append]
    · rw [LocalTime.instant, UtcTime.instant, Int.sub_zero]
      rfl
  | later => exact absurd (hsign '+' rfl) (by decide)
  | earlier => exact absurd (hsign '-' rfl) (by decide)

/-! ### What is read -/

theorem Fraction.lt (h : Fraction fraction nano) : nano < nanosPerSecond := by
  cases h with
  | none => decide
  | @some digits nonempty decimal =>
    refine Nat.div_lt_of_lt_mul ?_
    exact Nat.mul_lt_mul_of_pos_right (ofDigitChars_lt decimal) (by decide)

/-- Offsets are whole minutes, so that leap seconds stay at the end of one. -/
theorem Denotes.isRegular {text : String} (h : Denotes text t) :
    t.nano < 2 * nanosPerSecond ∧ (nanosPerSecond ≤ t.nano → t.second % 60 = 59) := by
  obtain ⟨l, separator, fraction, zone, nano, offset, -, -, hfraction, hzone, rfl⟩ := h
  have hnano := hfraction.lt
  have hminutes : offset % 60 = 0 := by
    cases hzone <;> omega
  simp only [LocalTime.instant, Instant.startOf]
  by_cases hleap : l.second = 60
  · simp only [hleap, if_true]
    omega
  · simp only [hleap, if_false]
    omega

end Rfc3339

end LogRelay.Time
