/-!
Numbers in the binary format of 64 bits, held as integers: a finite one is `m · 2^q`. Every
operation is the exact result rounded to the nearest such number, a tie going to the even `m`.
-/

namespace LogRelay.Decimal

inductive Binary64 where
  /-- The value `m · 2^q`, with `m < 2^53` and `-1074 ≤ q`. -/
  | finite (negative : Bool) (m : Nat) (q : Int)
  | infinite (negative : Bool)
  | nan
  deriving DecidableEq, Repr

/-- The nearest integer to `n / d`, a tie going to the even one. -/
def roundDiv (n d : Nat) : Nat :=
  let k := n / d
  let r := n % d
  if 2 * r < d then k else if d < 2 * r then k + 1 else k + k % 2

namespace Binary64

def zero (negative : Bool) : Binary64 := finite negative 0 (-1074)

/-- The fraction `num / (den · 2^q)` with a natural numerator and denominator. -/
def scale (num den : Nat) (q : Int) : Nat × Nat :=
  if 0 ≤ q then (num, den * Nat.pow 2 q.toNat) else (num * Nat.pow 2 (-q).toNat, den)

/-- The number nearest to `num / den`. -/
def ofRatio (negative : Bool) (num den : Nat) : Binary64 :=
  if num = 0 ∨ den = 0 then zero negative
  else
    let guess : Int := (Nat.log2 num : Int) - Nat.log2 den - 53
    let (a, b) := scale num den guess
    let q := max (if Nat.pow 2 53 ≤ a / b then guess + 1 else guess) (-1074)
    let (a, b) := scale num den q
    let m := roundDiv a b
    let (m, q) := if m = Nat.pow 2 53 then (Nat.pow 2 52, q + 1) else (m, q)
    if 971 < q then infinite negative else finite negative m q

/-- The number nearest to `digits · 10^exponent`. Exponents far outside the range of the format
are settled without computing the power. -/
def ofDecimal (negative : Bool) (digits : Nat) (exponent : Int) : Binary64 :=
  if digits = 0 then zero negative
  else if 400 < exponent then infinite negative
  else if exponent < -(1200 + Nat.log2 digits : Int) then zero negative
  else if 0 ≤ exponent then ofRatio negative (digits * Nat.pow 10 exponent.toNat) 1
  else ofRatio negative digits (Nat.pow 10 (-exponent).toNat)

/-- A finite value as a fraction of natural numbers, without its sign. -/
def ratio (m : Nat) (q : Int) : Nat × Nat :=
  if 0 ≤ q then (m * Nat.pow 2 q.toNat, 1) else (m, Nat.pow 2 (-q).toNat)

/-- Times a finite number without sign; other values are kept. -/
def mulFinite (x : Binary64) (m : Nat) (q : Int) : Binary64 :=
  match x with
  | finite s m₁ q₁ =>
    let (a, b) := ratio m₁ q₁
    let (c, d) := ratio m q
    ofRatio s (a * c) (b * d)
  | x => x

/-- Divided by a finite number without sign; other values are kept. -/
def divFinite (x : Binary64) (m : Nat) (q : Int) : Binary64 :=
  match x with
  | finite s m₁ q₁ =>
    let (a, b) := ratio m₁ q₁
    let (c, d) := ratio m q
    ofRatio s (a * d) (b * c)
  | x => x

def neg : Binary64 → Binary64
  | finite s m q => finite (!s) m q
  | infinite s => infinite (!s)
  | nan => nan

def isZero : Binary64 → Bool
  | finite _ m _ => m == 0
  | _ => false

def isInfinite : Binary64 → Bool
  | infinite _ => true
  | _ => false

example : ofDecimal false 5 (-324) = finite false 1 (-1074) := by decide +kernel
example : ofDecimal false 1 309 = infinite false := by decide +kernel

end Binary64

end LogRelay.Decimal
