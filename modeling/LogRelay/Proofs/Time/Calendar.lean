import LogRelay.Time.Calendar
import Mathlib.Tactic.IntervalCases

/-!
The date of a day number is a day of the calendar, and its day number is the one it came from. An era
of 400 years is 4 centuries of 36524 days and one day; a century is 25 cycles of 1461 days less one
day; a cycle is 4 years of 365 days and one day. The day that is left over goes to the last part.
-/

namespace LogRelay.Time.Date

/-! ### Years of an era -/

/-- The day `doe` of an era lies in its century `c`, the cycle `q` of that, the year `j` of that, and
is the day `d` of this year. A year has a day 365 only if it is the last of its cycle, and the last of
its century only in the last century. -/
structure InEra (doe c q j d : Nat) : Prop where
  sum : doe = 36524 * c + 1461 * q + 365 * j + d
  century : c ≤ 3
  cycle : q ≤ 24
  year : j ≤ 3
  day : d ≤ 364 ∨ d = 365 ∧ j = 3 ∧ (q < 24 ∨ c = 3)

variable {doe c q j d : Nat}

theorem exists_inEra (h : doe < 146097) : ∃ c q j d, InEra doe c q j d := by
  rcases Nat.lt_or_ge doe 146096 with hlt | hge
  · have hc : doe / 36524 ≤ 3 := by omega
    rcases Nat.lt_or_ge (doe % 36524 % 1461) 1460 with hday | hday
    · exact ⟨doe / 36524, doe % 36524 / 1461, doe % 36524 % 1461 / 365, doe % 36524 % 1461 % 365,
        by omega, hc, by omega, by omega, by omega⟩
    · exact ⟨doe / 36524, doe % 36524 / 1461, 3, 365, by omega, hc, by omega, by omega, by omega⟩
  · exact ⟨3, 24, 3, 365, by omega, by omega, by omega, by omega, by omega⟩

/-- Taking one day off for each cycle, and giving one back for each century, makes all years equally
long. -/
theorem InEra.yearOfEra_eq (h : InEra doe c q j d) :
    (doe - doe / 1460 + doe / 36524 - doe / 146096) / 365 = 100 * c + 4 * q + j := by
  obtain ⟨hsum, hc, hq, hj, hd⟩ := h
  by_cases hlast : doe = 146096
  · rw [hlast]
    omega
  · have hcentury : doe / 36524 = c := by omega
    have hera : doe / 146096 = 0 := by omega
    -- the last days of a cycle may already count as one of the next
    have hcycle : doe / 1460 = 25 * c + q + (24 * c + q + 365 * j + d) / 1460 := by omega
    have hfirst : 365 * j ≤ 365 * j + d - (24 * c + q + 365 * j + d) / 1460 := by omega
    have hnext : 365 * j + d - (24 * c + q + 365 * j + d) / 1460 < 365 * (j + 1) := by omega
    rw [hcentury, hera, hcycle]
    omega

theorem InEra.dayOfYear_eq (h : InEra doe c q j d) :
    doe - (365 * (100 * c + 4 * q + j) + (100 * c + 4 * q + j) / 4 - (100 * c + 4 * q + j) / 100) =
      d := by
  obtain ⟨rfl, hc, hq, hj, hd⟩ := h
  have hfour : (100 * c + 4 * q + j) / 4 = 25 * c + q := by omega
  have hhundred : (100 * c + 4 * q + j) / 100 = c := by omega
  rw [hfour, hhundred]
  omega

theorem InEra.isLeapYear (h : InEra doe c q j d) (hd : d = 365) (era : Int) :
    isLeapYear (100 * c + 4 * q + j + era * 400 + 1) = true := by
  obtain ⟨-, hc, hq, hj, hday⟩ := h
  obtain ⟨-, rfl, hlast⟩ : d = 365 ∧ j = 3 ∧ (q < 24 ∨ c = 3) := by omega
  have hfour : (100 * c + 4 * q + (3 : Nat) + era * 400 + 1 : Int) % 4 = 0 := by omega
  have hhundred : (100 * c + 4 * q + (3 : Nat) + era * 400 + 1 : Int) % 100 ≠ 0 ∨
      (100 * c + 4 * q + (3 : Nat) + era * 400 + 1 : Int) % 400 = 0 := by omega
  rw [Time.isLeapYear, hfour]
  simpa using hhundred

/-! ### Days of a year -/

/-- The day `d` of the year that begins on 1 March of `year`. -/
def ofYearDay (year : Int) (d : Nat) : Date :=
  let m := (5 * d + 2) / 153
  let month := if m < 10 then m + 3 else m - 9
  ⟨if month ≤ 2 then year + 1 else year, month, d - (153 * m + 2) / 5 + 1⟩

theorem ofDayNumber_eq (n : Int) (h : InEra ((n + 719468) % 146097).toNat c q j d) :
    ofDayNumber n =
      ofYearDay (100 * c + 4 * q + j + (n + 719468) / 146097 * 400) d := by
  rw [ofDayNumber, h.yearOfEra_eq, h.dayOfYear_eq]
  push_cast
  rfl

/-- The months from March on have 31, 30, 31, 30 and 31 days, and then again. -/
theorem dayNumber_ofYearDay (year : Int) (hd : d ≤ 365) : (ofYearDay year d).dayNumber =
    365 * year + year / 4 - year / 100 + year / 400 + d - 719468 := by
  have hm : (5 * d + 2) / 153 ≤ 11 := by omega
  rw [ofYearDay, dayNumber]
  generalize hm' : (5 * d + 2) / 153 = m at hm ⊢
  by_cases hmonth : m < 10
  · have hlate : ¬ m + 3 ≤ 2 := by omega
    simp only [hmonth, if_true, hlate, if_false, Nat.add_sub_cancel]
    omega
  · have hearly : m - 9 ≤ 2 := by omega
    have hback : m - 9 + 9 = m := by omega
    simp only [hmonth, if_false, hearly, if_true, hback, Int.add_sub_cancel]
    omega

/-- Every month but the last, which is February, has the days up to the start of the next. -/
theorem daysInMonth_eq (year : Int) {m : Nat} (hm : m < 11) :
    daysInMonth year (if m < 10 then m + 3 else m - 9) =
      (153 * (m + 1) + 2) / 5 - (153 * m + 2) / 5 := by
  interval_cases m <;> rfl

theorem isValid_ofYearDay (year : Int) (hd : d ≤ 365)
    (hleap : d = 365 → Time.isLeapYear (year + 1) = true) : (ofYearDay year d).isValid = true := by
  rw [isValid, Bool.and_eq_true, Bool.and_eq_true, Bool.and_eq_true]
  simp only [decide_eq_true_eq]
  dsimp only [ofYearDay]
  have hm : (5 * d + 2) / 153 ≤ 11 := by omega
  refine ⟨⟨⟨?_, ?_⟩, Nat.le_add_left 1 _⟩, ?_⟩
  · split <;> omega
  · split <;> omega
  · rcases Nat.lt_or_ge ((5 * d + 2) / 153) 11 with hlt | hge
    · rw [daysInMonth_eq _ hlt]
      omega
    · have heq : (5 * d + 2) / 153 = 11 := Nat.le_antisymm hm hge
      rw [heq]
      change d - 337 + 1 ≤ if Time.isLeapYear (year + 1) then 29 else 28
      split
      · omega
      · rename_i hshort
        have hne : d ≠ 365 := fun hlast => hshort (hleap hlast)
        omega

theorem bounds_of_isValid {date : Date} (h : date.isValid = true) :
    date.month ≤ 12 ∧ date.day ≤ 31 := by
  rw [isValid, Bool.and_eq_true, Bool.and_eq_true, Bool.and_eq_true] at h
  simp only [decide_eq_true_eq] at h
  have hmonth : daysInMonth date.year date.month ≤ 31 := by
    rw [daysInMonth]
    split
    · split <;> decide
    · split <;> decide
  exact ⟨h.1.1.2, Nat.le_trans h.2 hmonth⟩

/-! ### Day numbers -/

theorem exists_ofDayNumber_eq (n : Int) : ∃ c q j d, InEra ((n + 719468) % 146097).toNat c q j d := by
  exact exists_inEra (by omega)

theorem dayNumber_ofDayNumber (n : Int) : (ofDayNumber n).dayNumber = n := by
  obtain ⟨c, q, j, d, h⟩ := exists_ofDayNumber_eq n
  rw [ofDayNumber_eq n h]
  obtain ⟨hsum, hc, hq, hj, hd⟩ := h
  rw [dayNumber_ofYearDay _ (by omega)]
  generalize hera : (n + 719468) / 146097 = era
  have hfour : (100 * c + 4 * q + j + era * 400 : Int) / 4 = 25 * c + q + 100 * era := by omega
  have hhundred : (100 * c + 4 * q + j + era * 400 : Int) / 100 = c + 4 * era := by omega
  have hall : (100 * c + 4 * q + j + era * 400 : Int) / 400 = era := by omega
  rw [hfour, hhundred, hall]
  omega

theorem isValid_ofDayNumber (n : Int) : (ofDayNumber n).isValid = true := by
  obtain ⟨c, q, j, d, h⟩ := exists_ofDayNumber_eq n
  have hd : d ≤ 365 := by
    have hday := h.day
    omega
  rw [ofDayNumber_eq n h]
  exact isValid_ofYearDay _ hd fun hlast => h.isLeapYear hlast _

end LogRelay.Time.Date
