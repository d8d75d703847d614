/-!
Text as UTF-8 bytes and back. Decoding is exact (`decode?`, which undoes `encode`) or replaces each
longest piece that cannot be part of any character by U+FFFD.
-/

namespace LogRelay.Text.Utf8

def encode (s : String) : List UInt8 :=
  s.toList.flatMap String.utf8EncodeChar

/-- The text those bytes encode, if they encode one. -/
def decode? (bytes : List UInt8) : Option String :=
  String.fromUTF8? bytes.toByteArray

theorem encode_append (s t : String) : encode (s ++ t) = encode s ++ encode t := by
  simp [encode]

theorem encode_toByteArray (s : String) : (encode s).toByteArray = s.toByteArray := by
  rw [← String.utf8Encode_toList]
  rfl

theorem decode?_encode (s : String) : decode? (encode s) = some s := by
  have h : (encode s).toByteArray.IsValidUTF8 := by
    rw [encode_toByteArray]; exact s.isValidUTF8
  simp only [decode?, String.fromUTF8?, h, dite_true, Option.some.injEq]
  apply String.toByteArray_inj.1
  exact encode_toByteArray s

/-- The bytes allowed after a first byte: how many there are, and the range of the next one. -/
private def follow (b : UInt8) : Nat × UInt8 × UInt8 :=
  if b < 0xC2 then (0, 0, 0)
  else if b < 0xE0 then (1, 0x80, 0xBF)
  else if b = 0xE0 then (2, 0xA0, 0xBF)
  else if b = 0xED then (2, 0x80, 0x9F)
  else if b < 0xF0 then (2, 0x80, 0xBF)
  else if b = 0xF0 then (3, 0x90, 0xBF)
  else if b < 0xF4 then (3, 0x80, 0xBF)
  else if b = 0xF4 then (3, 0x80, 0x8F)
  else (0, 0, 0)

/-- The number of bytes after the first that can belong to the same character. -/
private def extent : Nat → UInt8 → UInt8 → List UInt8 → Nat
  | n + 1, low, high, b :: rest =>
    if low ≤ b ∧ b ≤ high then 1 + extent n 0x80 0xBF rest else 0
  | _, _, _, _ => 0

/-- The characters from left to right; the number says how many bytes belong to the one before. -/
private def lossyFrom : Nat → List UInt8 → List Char
  | _, [] => []
  | n + 1, _ :: rest => lossyFrom n rest
  | 0, b :: rest =>
    if b < 0x80 then Char.ofNat b.toNat :: lossyFrom 0 rest
    else
      let (want, low, high) := follow b
      let got := extent want low high rest
      if want = 0 ∨ got < want then '\uFFFD' :: lossyFrom got rest
      else
        let lead := b.toNat % (Nat.pow 2 (6 - want))
        let code := (rest.take want).foldl (fun n c => n * 64 + c.toNat % 64) lead
        Char.ofNat code :: lossyFrom want rest

def decodeLossy (bytes : List UInt8) : String :=
  String.ofList (lossyFrom 0 bytes)

example : decodeLossy [0x61, 0xC3, 0xA9, 0xE2, 0x82, 0x62] = "aé\uFFFDb" := by decide +kernel

end LogRelay.Text.Utf8
