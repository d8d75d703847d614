import LogRelay.Routing
import Mathlib.Algebra.Group.Nat.Defs

/-!
The horizon of freshness is exact. A window may reach back further than any instant that can be
represented, and be longer than any length of time that is computed with; either way the horizon
stays on the side of every representable instant on which the exact difference puts it.
-/

namespace LogRelay

namespace Time.Instant

variable {t now u : Instant} {n : Nat}

/-- The nanoseconds from `t` to `now`, fewer than none if `t` is the later one. A leap second that
`now` lies in has still to pass before any later second begins. -/
def nanosUntil (t now : Instant) : Int :=
  (now.second - t.second) * nanosPerSecond + (now.nano - t.nano) -
    if nanosPerSecond ≤ now.nano ∧ now.second < t.second then nanosPerSecond else 0

/-- Outside a leap second it is the difference of two numbers. -/
theorem nanosUntil_eq (h : now.nano < nanosPerSecond) :
    t.nanosUntil now =
      (now.second * nanosPerSecond + now.nano) - (t.second * nanosPerSecond + t.nano) := by
  have hleap : ¬ (nanosPerSecond ≤ now.nano ∧ now.second < t.second) := by omega
  rw [nanosUntil, if_neg hleap]
  unfold nanosPerSecond
  omega

/-- That many seconds earlier, whether that can be represented or not. -/
def back (t : Instant) (n : Nat) : Instant :=
  if nanosPerSecond ≤ t.nano ∧ 0 < n then ⟨t.second + 1 - n, t.nano - nanosPerSecond⟩
  else ⟨t.second - n, t.nano⟩

theorem minusSeconds?_eq (t : Instant) (n : Nat) :
    t.minusSeconds? n = if (t.back n).isRepresentable then some (t.back n) else none := rfl

theorem isRepresentable_iff : t.isRepresentable = true ↔
    earliest.second ≤ t.second ∧ t.second ≤ latest.second := by
  simp [isRepresentable]

theorem not_lt_earliest (h : t.isRepresentable = true) : ¬ t < earliest := by
  have hsecond := (isRepresentable_iff.1 h).1
  have hnano : earliest.nano = 0 := rfl
  rw [lt_iff]
  omega

/-- An instant outside leap seconds is before another one moved back exactly if more time lies
between the two. -/
theorem lt_back_iff (hnow : now.nano < 2 * nanosPerSecond) (ht : t.nano < nanosPerSecond) :
    t < now.back n ↔ (n * nanosPerSecond : Int) < t.nanosUntil now := by
  unfold back nanosUntil nanosPerSecond at *
  rw [lt_iff]
  split <;> split <;> simp only <;> omega

theorem second_back_le (t : Instant) (n : Nat) : (t.back n).second ≤ t.second := by
  unfold back
  split <;> simp only <;> omega

theorem second_back_add_le (t : Instant) (n : Nat) : (t.back n).second + n ≤ t.second + 1 := by
  unfold back
  split <;> simp only <;> omega

/-- Moving back further never comes out later. -/
theorem back_antitone {m : Nat} (h : n ≤ m) (hlt : u < t.back m) : u < t.back n := by
  unfold back nanosPerSecond at *
  rw [lt_iff] at *
  split at hlt <;> split <;> simp only at * <;> omega

theorem second_back_antitone {m : Nat} (h : n ≤ m) : (t.back m).second ≤ (t.back n).second := by
  unfold back
  split <;> split <;> simp only <;> omega

end Time.Instant

open Time (Instant nanosPerSecond)

/-- The horizon is the window before now, unless that is too early to be represented. -/
theorem freshnessHorizon_eq {now : Instant} (h : now.isRepresentable = true) (windowSecs : Nat) :
    freshnessHorizon now windowSecs =
      if Instant.earliest.second ≤ (now.back windowSecs).second then now.back windowSecs
      else Instant.earliest := by
  have hlatest := (Instant.isRepresentable_iff.1 h).2
  have hrepresentable : ∀ n, (now.back n).isRepresentable = true ↔
      Instant.earliest.second ≤ (now.back n).second := by
    intro n
    have hback := now.second_back_le n
    rw [Instant.isRepresentable_iff]
    omega
  rw [freshnessHorizon, Instant.minusSeconds?_eq]
  simp only [hrepresentable]
  rcases Nat.le_total windowSecs longestWindowSecs with hle | hle
  · rw [Nat.min_eq_left hle]
    split <;> rfl
  · -- the longest window already reaches back beyond all that can be represented
    have hrange : Instant.latest.second + 1 < Instant.earliest.second + longestWindowSecs := by decide
    have hlongest := now.second_back_add_le longestWindowSecs
    have hwindow := now.second_back_add_le windowSecs
    rw [Nat.min_eq_right hle, if_neg (by omega), if_neg (by omega)]
    rfl

variable {now t : Instant} {windowSecs wider : Nat}

/-- Whether the horizon is computed or replaced, it is passed by the same instants. -/
theorem lt_freshnessHorizon_iff (hnow : now.isRepresentable = true) (ht : t.isRepresentable = true) :
    t < freshnessHorizon now windowSecs ↔ t < now.back windowSecs := by
  rw [freshnessHorizon_eq hnow]
  split
  · rfl
  · have hearly := (Instant.isRepresentable_iff.1 ht).1
    have hlt := Instant.not_lt_earliest ht
    rw [iff_false_left hlt, Instant.lt_iff]
    omega

theorem freshnessHorizon_antitone (hnow : now.isRepresentable = true) (hle : windowSecs ≤ wider)
    (hlt : t < freshnessHorizon now wider) : t < freshnessHorizon now windowSecs := by
  have hback : (now.back wider).second ≤ (now.back windowSecs).second :=
    Instant.second_back_antitone hle
  have hnano : Instant.earliest.nano = 0 := rfl
  rw [freshnessHorizon_eq hnow] at hlt ⊢
  split at hlt
  · rw [if_pos (by omega)]
    exact Instant.back_antitone hle hlt
  · split
    · rw [Instant.lt_iff] at hlt ⊢
      omega
    · exact hlt

/-- A line whose time is known, and not within a leap second, is stale exactly if more time than the
window lies between it and now, however long the window and however early the time; unless now is
within a leap second, that is the difference of two numbers. Nothing is stale once the horizon is the
earliest instant, a line of unknown time never is, and a wider window makes no further line stale. -/
theorem stale_exactly_beyond_window (hnow : now.isRepresentable = true)
    (hnano : now.nano < 2 * nanosPerSecond) (windowSecs : Nat) :
    (∀ t : Instant, t.isRepresentable = true → t.nano < nanosPerSecond →
      (isStale (some t) (freshnessHorizon now windowSecs) = true ↔
        (windowSecs * nanosPerSecond : Int) < t.nanosUntil now) ∧
      (now.nano < nanosPerSecond → t.nanosUntil now =
        (now.second * nanosPerSecond + now.nano) - (t.second * nanosPerSecond + t.nano))) ∧
    (freshnessHorizon now windowSecs = Instant.earliest →
      ∀ t : Instant, t.isRepresentable = true →
        isStale (some t) (freshnessHorizon now windowSecs) = false) ∧
    isStale none (freshnessHorizon now windowSecs) = false ∧
    ∀ wider occurredAt, windowSecs ≤ wider →
      isStale occurredAt (freshnessHorizon now wider) = true →
      isStale occurredAt (freshnessHorizon now windowSecs) = true := by
  refine ⟨fun t ht hleap => ⟨?_, Instant.nanosUntil_eq⟩, fun hearliest t ht => ?_, rfl,
    fun wider occurredAt hle hstale => ?_⟩
  · rw [isStale, decide_eq_true_iff, lt_freshnessHorizon_iff hnow ht]
    exact Instant.lt_back_iff hnano hleap
  · rw [hearliest, isStale]
    exact decide_eq_false (Instant.not_lt_earliest ht)
  · cases occurredAt with
    | none => exact hstale
    | some t =>
      rw [isStale, decide_eq_true_iff] at hstale ⊢
      exact freshnessHorizon_antitone hnow hle hstale

/-- A clock reading half a second into the leap second at the end of 2016. -/
def leapNow : Instant := ⟨1483228799, 1500000000⟩

/-- Midnight is still to come, a line of a second ago is at the edge of a window of one second, and
the longest window of 64 bits reaches back beyond the earliest instant. -/
theorem stale_exactly_beyond_window_leapSecond :
    leapNow.isRepresentable = true ∧ leapNow.nano < 2 * nanosPerSecond ∧
      isStale (some ⟨1483228800, 0⟩) (freshnessHorizon leapNow 0) = false ∧
      isStale (some ⟨1483228799, 499999999⟩) (freshnessHorizon leapNow 1) = true ∧
      isStale (some ⟨1483228799, 500000000⟩) (freshnessHorizon leapNow 1) = false ∧
      isStale (some Instant.earliest) (freshnessHorizon leapNow (2 ^ 64 - 1)) = false := by
  have hnow : leapNow.isRepresentable = true := by decide
  have hnano : leapNow.nano < 2 * nanosPerSecond := by decide
  have hnone := (stale_exactly_beyond_window hnow hnano 0).1 ⟨1483228800, 0⟩ (by decide) (by decide)
  have hone := (stale_exactly_beyond_window hnow hnano 1).1
  have hstale := hone ⟨1483228799, 499999999⟩ (by decide) (by decide)
  have hfresh := hone ⟨1483228799, 500000000⟩ (by decide) (by decide)
  have hlongest := (stale_exactly_beyond_window hnow hnano (2 ^ 64 - 1)).1 Instant.earliest
    (by decide) (by decide)
  refine ⟨hnow, hnano, ?_, hstale.1.2 (by decide), ?_, ?_⟩
  · exact Bool.eq_false_iff.2 fun h => absurd (hnone.1.1 h) (by decide)
  · exact Bool.eq_false_iff.2 fun h => absurd (hfresh.1.1 h) (by decide)
  · exact Bool.eq_false_iff.2 fun h => absurd (hlongest.1.1 h) (by decide)

end LogRelay
