import LogRelay.Json.Value
import LogRelay.Key.Rsa

/-!
Signed assertions: a service account's statement of who it is and what it wants, which is exchanged
for a token. The signature itself is left to whoever sends the assertion.
-/

namespace LogRelay.Key

/-- An assertion, with the key it is to be signed with. -/
structure Assertion where
  key : List UInt8
  keyId : Option String
  issuer : String
  scope : String
  audience : String
  /-- Seconds since 1970. -/
  issuedAt : Nat
  deriving DecidableEq, Repr

namespace Assertion

def lifetimeSecs : Nat := 3600

def header (a : Assertion) : Json.Value :=
  .object ([("typ", .text "JWT"), ("alg", .text "RS256")] ++
    (a.keyId.map fun id => ("kid", Json.Value.text id)).toList)

def claims (a : Assertion) : Json.Value :=
  .object [("iss", .text a.issuer), ("scope", .text a.scope), ("aud", .text a.audience),
    ("iat", .integer a.issuedAt), ("exp", .integer (a.issuedAt + lifetimeSecs))]

end Assertion

end LogRelay.Key
