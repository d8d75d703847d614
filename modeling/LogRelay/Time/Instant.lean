import LogRelay.Time.Calendar

/-!
Points in time on the UTC scale, to the nanosecond and over a fixed range of years. A leap second is
written on the second before it, by a nanosecond count of 10⁹ or more, so the order of instants is
the order of the pairs.
-/

namespace LogRelay.Time

def nanosPerSecond : Nat := 1000000000

structure Instant where
  /-- Seconds since 1970-01-01T00:00:00Z. -/
  second : Int
  /-- Nanoseconds after that second; from 10⁹ on, the time lies in the leap second that follows. -/
  nano : Nat
  deriving DecidableEq, Repr

namespace Instant

/-- The first second of a date. -/
def startOf (d : Date) : Int :=
  d.dayNumber * 86400

def earliest : Instant := ⟨startOf ⟨-262143, 1, 1⟩, 0⟩

def latest : Instant := ⟨startOf ⟨262143, 1, 1⟩ - 1, 999999999⟩

def before (a b : Instant) : Prop :=
  a.second < b.second ∨ (a.second = b.second ∧ a.nano < b.nano)

instance : LT Instant := ⟨before⟩

instance (a b : Instant) : Decidable (a < b) :=
  inferInstanceAs (Decidable (a.second < b.second ∨ (a.second = b.second ∧ a.nano < b.nano)))

/-- Within the years that can be written. -/
def isRepresentable (t : Instant) : Bool :=
  earliest.second ≤ t.second && t.second ≤ latest.second

/-- That many seconds earlier. Leaving a leap second costs it first. `none` outside the range. -/
def minusSeconds? (t : Instant) (n : Nat) : Option Instant :=
  let u : Instant :=
    if nanosPerSecond ≤ t.nano ∧ 0 < n then ⟨t.second + 1 - n, t.nano - nanosPerSecond⟩
    else ⟨t.second - n, t.nano⟩
  if u.isRepresentable then some u else none

theorem lt_iff {a b : Instant} :
    a < b ↔ a.second < b.second ∨ (a.second = b.second ∧ a.nano < b.nano) :=
  Iff.rfl

end Instant

end LogRelay.Time
