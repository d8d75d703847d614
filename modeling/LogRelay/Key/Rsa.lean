import LogRelay.Key.Der
import LogRelay.Key.Pem

/-!
RSA keys for signing. Reading a key only finds the bytes of it; whether they are a usable private key
is found out when something is to be signed.
-/

namespace LogRelay.Key.Rsa

/-- Why a text holds no RSA key. -/
inductive FormatError where
  /-- It is no PEM of a known label around DER, or the key is of another kind. -/
  | badFormat
  /-- The key is said to be RSA but there are no bytes of one. -/
  | missingBytes
  deriving DecidableEq, Repr

def FormatError.message : FormatError → String
  | badFormat => "InvalidKeyFormat"
  | missingBytes => "InvalidEcdsaKey"

inductive Algorithm where
  | ellipticCurve | rsa | edwards25519
  deriving DecidableEq, Repr

/-- The kind of key an object identifier stands for. -/
def algorithm? : Der → Option Algorithm
  | .objectId arcs =>
    if arcs = [1, 2, 840, 10045, 2, 1] then some .ellipticCurve
    else if arcs = [1, 2, 840, 113549, 1, 1, 1] then some .rsa
    else if arcs = [1, 3, 101, 112] then some .edwards25519
    else none
  | _ => none

def bytes? : Der → Option (List UInt8)
  | .bitString bytes => some bytes
  | .octetString bytes => some bytes
  | _ => none

/-- The bytes of an RSA key in PEM. One labelled as RSA is taken as it is; in a general one the
algorithm must be RSA, and the first string of bytes is the key. -/
def ofPem (text : String) : Except FormatError (List UInt8) :=
  match Pem.parse? text with
  | none => .error .badFormat
  | some pem =>
    match Der.parse? pem.data with
    | none => .error .badFormat
    | some items =>
      if pem.label = "RSA PRIVATE KEY" ∨ pem.label = "RSA PUBLIC KEY" then .ok pem.data
      else if ["PRIVATE KEY", "PUBLIC KEY", "CERTIFICATE"].contains pem.label then
        if Der.findAmong? algorithm? items = some .rsa then
          match Der.findAmong? bytes? items with
          | some bytes => .ok bytes
          | none => .error .missingBytes
        else .error .badFormat
      else .error .badFormat

/-- Why a key cannot sign. -/
inductive Rejection where
  | invalidEncoding
  | versionNotSupported
  | tooSmall
  | tooLarge
  | invalidComponent
  | inconsistentComponents
  deriving DecidableEq, Repr

def Rejection.message : Rejection → String
  | invalidEncoding => "InvalidEncoding"
  | versionNotSupported => "VersionNotSupported"
  | tooSmall => "TooSmall"
  | tooLarge => "TooLarge"
  | invalidComponent => "InvalidComponent"
  | inconsistentComponents => "InconsistentComponents"

/-- A number that is not negative and has no needless zero byte in front. -/
def natural? : List UInt8 → Option Nat
  | [] => none
  | [b] => if b.toNat < 128 then some b.toNat else none
  | b :: c :: rest =>
    if 128 ≤ b.toNat ∨ (b = 0 ∧ c.toNat < 128) then none
    else some ((b :: c :: rest).foldl (fun n x => n * 256 + x.toNat) 0)

/-- One value with a definite tag byte, in the shortest form of its length, and the rest. -/
def element? (tag : UInt8) : List UInt8 → Option (List UInt8 × List UInt8)
  | [] => none
  | t :: rest =>
    if t ≠ tag then none
    else
      match rest with
      | [] => none
      | b :: after =>
        match Der.readLength rest with
        | none => none
        | some (size, body) =>
          let shortest := b.toNat < 128 ∨ (b = 0x81 ∧ 128 ≤ size) ∨ (b = 0x82 ∧ 256 ≤ size)
          if shortest ∧ size ≤ body.length ∧ after.length ≥ size then
            some (body.take size, body.drop size)
          else none

/-- The whole numbers of a private key, all that are left. -/
def naturals? : (fuel : Nat) → List UInt8 → Option (List Nat)
  | _, [] => some []
  | 0, _ => none
  | fuel + 1, bytes => do
    let (body, rest) ← element? 2 bytes
    return (← natural? body) :: (← naturals? fuel rest)

def bitLength (n : Nat) : Nat := if n = 0 then 0 else Nat.log2 n + 1

/-- Whether the bytes are a private key that can sign: of 2048 to 4096 bits, and in itself sound. -/
def check (key : List UInt8) : Except Rejection Unit :=
  match element? 0x30 key with
  | some (body, []) =>
    match naturals? 16 body with
    | some (version :: rest) =>
      if version ≠ 0 then .error .versionNotSupported
      else
        match rest with
        | [n, e, d, p, q, dp, dq, qInv] =>
          if bitLength n < 2048 then .error .tooSmall
          else if 4096 < bitLength n then .error .tooLarge
          else if n % 2 = 0 ∨ e % 2 = 0 then .error .invalidComponent
          else if e < 65537 then .error .tooSmall
          else if Nat.pow 2 33 ≤ e then .error .tooLarge
          else if bitLength p ≠ bitLength q ∨ p * q ≠ n then .error .inconsistentComponents
          else if d % 2 = 0 ∨ n ≤ d then .error .inconsistentComponents
          else if p ≤ dp ∨ q ≤ dq ∨ (e * dp) % (p - 1) ≠ 1 ∨ (e * dq) % (q - 1) ≠ 1 ∨
              (qInv * q) % p ≠ 1 then .error .inconsistentComponents
          else .ok ()
        | _ => .error .invalidEncoding
    | _ => .error .invalidEncoding
  | _ => .error .invalidEncoding

end LogRelay.Key.Rsa
