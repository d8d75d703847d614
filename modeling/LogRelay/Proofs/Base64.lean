import LogRelay.Base64

/-!
Decoding undoes encoding. Three bytes and the four six-bit values of their group determine each
other; the last group may hold one or two bytes, and its padding says how many.
-/

namespace LogRelay.Base64

theorem value?_symbol {n : Nat} (h : n < 64) : value? (symbol n) = some n := by
  have hall : ∀ n < 64, value? (symbol n) = some n := by decide
  exact hall n h

theorem value?_pad : value? pad = none := by decide

/-! ### One group -/

variable (a b c : UInt8)

theorem first_lt : a.toNat / 4 < 64 := by
  have ha := a.toNat_lt
  omega

theorem second_lt : a.toNat % 4 * 16 + b.toNat / 16 < 64 := by
  have hb := b.toNat_lt
  omega

theorem third_lt : b.toNat % 16 * 4 + c.toNat / 64 < 64 := by
  have hc := c.toNat_lt
  omega

theorem fourth_lt : c.toNat % 64 < 64 := Nat.mod_lt _ (by decide)

/-- A byte is the six bits of one value and two of the next. -/
theorem ofNat_first : UInt8.ofNat (a.toNat / 4 * 4 + (a.toNat % 4 * 16 + b.toNat / 16) / 16) = a := by
  have hb := b.toNat_lt
  have hsum : a.toNat / 4 * 4 + (a.toNat % 4 * 16 + b.toNat / 16) / 16 = a.toNat := by omega
  rw [hsum, UInt8.ofNat_toNat]

theorem ofNat_second : UInt8.ofNat ((a.toNat % 4 * 16 + b.toNat / 16) % 16 * 16 +
    (b.toNat % 16 * 4 + c.toNat / 64) / 4) = b := by
  have hb := b.toNat_lt
  have hc := c.toNat_lt
  have hsum : (a.toNat % 4 * 16 + b.toNat / 16) % 16 * 16 + (b.toNat % 16 * 4 + c.toNat / 64) / 4 =
      b.toNat := by omega
  rw [hsum, UInt8.ofNat_toNat]

theorem joinFull_values : joinFull (a.toNat / 4) (a.toNat % 4 * 16 + b.toNat / 16)
    (b.toNat % 16 * 4 + c.toNat / 64) (c.toNat % 64) = [a, b, c] := by
  have hsum : (b.toNat % 16 * 4 + c.toNat / 64) % 4 * 64 + c.toNat % 64 = c.toNat := by
    have hc := c.toNat_lt
    omega
  rw [joinFull, ofNat_first, ofNat_second, hsum, UInt8.ofNat_toNat]

theorem decodeLast_one (offset : Nat) : decodeLast offset (encode [a]) = .ok [a] := by
  have h1 := value?_symbol (first_lt a)
  have h2 := value?_symbol (second_lt a 0)
  have hbyte := ofNat_first a 0
  rw [UInt8.toNat_zero, Nat.zero_div, Nat.add_zero] at h2 hbyte
  have hleading : leading (encode [a]) =
      [(a.toNat / 4, symbol (a.toNat / 4)), (a.toNat % 4 * 16, symbol (a.toNat % 4 * 16))] := by
    simp only [encode, leading, h1, h2, value?_pad]
  rw [decodeLast, hleading]
  change (if a.toNat % 4 * 16 % 16 ≠ 0 then _ else _) = _
  rw [if_neg (not_not_intro (Nat.mul_mod_left _ 16)), hbyte]

theorem decodeLast_two (offset : Nat) : decodeLast offset (encode [a, b]) = .ok [a, b] := by
  have h1 := value?_symbol (first_lt a)
  have h2 := value?_symbol (second_lt a b)
  have h3 := value?_symbol (third_lt b 0)
  have hbyte := ofNat_second a b 0
  rw [UInt8.toNat_zero, Nat.zero_div, Nat.add_zero] at h3 hbyte
  have hleading : leading (encode [a, b]) =
      [(a.toNat / 4, symbol (a.toNat / 4)),
        (a.toNat % 4 * 16 + b.toNat / 16, symbol (a.toNat % 4 * 16 + b.toNat / 16)),
        (b.toNat % 16 * 4, symbol (b.toNat % 16 * 4))] := by
    simp only [encode, leading, h1, h2, h3, value?_pad]
  rw [decodeLast, hleading]
  change (if b.toNat % 16 * 4 % 4 ≠ 0 then _ else _) = _
  rw [if_neg (not_not_intro (Nat.mul_mod_left _ 4)), ofNat_first, hbyte]

theorem decodeLast_three (offset : Nat) : decodeLast offset (encode [a, b, c]) = .ok [a, b, c] := by
  have hleading : leading (encode [a, b, c]) =
      [(a.toNat / 4, symbol (a.toNat / 4)),
        (a.toNat % 4 * 16 + b.toNat / 16, symbol (a.toNat % 4 * 16 + b.toNat / 16)),
        (b.toNat % 16 * 4 + c.toNat / 64, symbol (b.toNat % 16 * 4 + c.toNat / 64)),
        (c.toNat % 64, symbol (c.toNat % 64))] := by
    simp only [encode, leading, value?_symbol (first_lt a), value?_symbol (second_lt a b),
      value?_symbol (third_lt b c), value?_symbol (fourth_lt c)]
  rw [decodeLast, hleading]
  exact congrArg Except.ok (joinFull_values a b c)

theorem decodeFrom_encode (offset : Nat) (bytes : List UInt8) :
    decodeFrom offset (encode bytes) = .ok bytes := by
  fun_induction encode bytes generalizing offset with
  | case1 => rfl
  | case2 a => exact decodeLast_one a offset
  | case3 a b => exact decodeLast_two a b offset
  | case4 a b c rest ih =>
    cases hrest : encode rest with
    | nil =>
      have hnil := ih offset
      rw [hrest] at hnil
      obtain rfl : [] = rest := Except.ok.inj hnil
      exact decodeLast_three a b c offset
    | cons e more =>
      rw [decodeFrom, value?_symbol (first_lt a), value?_symbol (second_lt a b),
        value?_symbol (third_lt b c), value?_symbol (fourth_lt c), ← hrest, ih]
      exact congrArg (fun group => Except.ok (group ++ rest)) (joinFull_values a b c)

theorem length_encode_mod (bytes : List UInt8) : (encode bytes).length % 4 = 0 := by
  fun_induction encode bytes with
  | case1 => rfl
  | case2 => simp only [List.length_cons, List.length_nil]
  | case3 => simp only [List.length_cons, List.length_nil]
  | case4 a b c rest ih =>
    simp only [List.length_cons]
    omega

theorem decode_encode (bytes : List UInt8) : decode (encode bytes) = .ok bytes := by
  have hstray : strayByte? (encode bytes) = none := by
    rw [strayByte?, length_encode_mod]
    rfl
  rw [decode, hstray]
  exact decodeFrom_encode 0 bytes

end LogRelay.Base64
