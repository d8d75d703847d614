import LogRelay.Decimal.Binary64

/-!
The shortest decimal digits that read back as a given binary number, and the two ways they are laid
out: always positional, or with an exponent outside a middle range.
-/

namespace LogRelay.Decimal

/-- The value `digits · 10^exponent`. -/
structure Digits where
  digits : Nat
  exponent : Int
  deriving DecidableEq, Repr

/-- The number of decimal places before the point of `num / den`; negative for leading zeros. -/
def magnitude (num den : Nat) : Int :=
  ((Nat.toDigits 10 (num * Nat.pow 10 400 / den)).length : Int) - 400

/-- The distance of two fractions over the same denominator. -/
private def gap (a b : Nat) : Nat := (a - b) + (b - a)

/-- The point of the grid of `10^e` nearest to `v / den` that lies between `lo / den` and
`hi / den`; the ends count if `closed`. -/
private def gridPoint? (lo v hi den : Nat) (closed : Bool) (e : Int) : Option Nat :=
  let unit := if 0 ≤ e then den * Nat.pow 10 e.toNat else den
  let up := if 0 ≤ e then 1 else Nat.pow 10 (-e).toNat
  let inside (k : Nat) : Bool :=
    if closed then lo * up ≤ k * unit && k * unit ≤ hi * up
    else lo * up < k * unit && k * unit < hi * up
  let below := v * up / unit
  let above := below + 1
  match inside below, inside above with
  | true, true =>
    let d₀ := gap (v * up) (below * unit)
    let d₁ := gap (v * up) (above * unit)
    if d₀ < d₁ ∨ (d₀ = d₁ ∧ below % 2 = 0) then some below else some above
  | true, false => some below
  | false, true => some above
  | false, false => none

/-- Tries one digit, then two, and so on. -/
private def search (lo v hi den : Nat) (closed : Bool) (top : Int) : Nat → Nat → Digits
  | 0, k => ⟨0, top - k⟩
  | fuel + 1, k =>
    match gridPoint? lo v hi den closed (top - k) with
    | some d => ⟨d, top - k⟩
    | none => search lo v hi den closed top fuel (k + 1)

/-- The fewest digits whose value rounds to `m · 2^q`, for a positive `m`; of several the nearest. -/
def shortest (m : Nat) (q : Int) : Digits :=
  let (num, den) := Binary64.ratio m q
  let low := if m = Nat.pow 2 52 ∧ -1074 < q then 1 else 2
  let (unit, den) := if 0 ≤ q then (Nat.pow 2 q.toNat, 4 * den) else (1, 4 * den)
  let v := 4 * num
  search (v - low * unit) v (v + 2 * unit) den (m % 2 == 0) (magnitude v den) 20 1

def Digits.strip (d : Digits) : Digits :=
  let cs := (Nat.toDigits 10 d.digits).reverse
  let zeros := (cs.takeWhile (· == '0')).length
  if d.digits = 0 then ⟨0, 0⟩ else ⟨d.digits / Nat.pow 10 zeros, d.exponent + zeros⟩

/-- Positional text of the digits, with a point only if there are decimals. -/
def Digits.positional (d : Digits) : List Char :=
  let cs := Nat.toDigits 10 d.digits
  if 0 ≤ d.exponent then cs ++ List.replicate d.exponent.toNat '0'
  else
    let places := (-d.exponent).toNat
    let cs := List.replicate (places + 1 - cs.length) '0' ++ cs
    cs.take (cs.length - places) ++ '.' :: cs.drop (cs.length - places)

/-- Scientific text: one digit before the point, a signed exponent of at least two digits. -/
def Digits.scientific (d : Digits) : List Char :=
  let cs := Nat.toDigits 10 d.digits
  let exponent := d.exponent + cs.length - 1
  let ds := Nat.toDigits 10 exponent.natAbs
  cs.take 1 ++ (if cs.length = 1 then [] else '.' :: cs.drop 1) ++
    ['e', if exponent < 0 then '-' else '+'] ++ List.replicate (2 - ds.length) '0' ++ ds

namespace Binary64

private def signed (negative : Bool) (cs : List Char) : String :=
  String.ofList (if negative then '-' :: cs else cs)

/-- Positional at every magnitude; a whole number has no point. -/
def renderPlain : Binary64 → String
  | nan => "NaN"
  | infinite s => signed s ['i', 'n', 'f']
  | finite s 0 _ => signed s ['0']
  | finite s m q => signed s (shortest m q).strip.positional

/-- Positional with a point from 10⁻⁵ up to below 10¹⁶, scientific elsewhere. -/
def renderMarked : Binary64 → String
  | nan => "NaN"
  | infinite s => signed s ['i', 'n', 'f']
  | finite s 0 _ => signed s ['0', '.', '0']
  | finite s m q =>
    let d := (shortest m q).strip
    let point : Int := (Nat.toDigits 10 d.digits).length + d.exponent
    if -5 < point ∧ point ≤ 16 then
      signed s (if 0 ≤ d.exponent then d.positional ++ ['.', '0'] else d.positional)
    else signed s d.scientific

example : renderPlain (ofDecimal false 15 (-1)) = "1.5" := by decide +kernel
example : renderMarked (ofDecimal true 1 300) = "-1e+300" := by decide +kernel
example : renderMarked (ofDecimal false 5 (-324)) = "5e-324" := by decide +kernel
example : renderMarked (ofDecimal false 9007199254740993 0) = "9007199254740992.0" := by
  decide +kernel

end Binary64

end LogRelay.Decimal
