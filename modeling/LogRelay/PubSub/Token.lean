import LogRelay.Credentials
import LogRelay.PubSub.Failure

/-!
Tokens that authorise requests: where they come from, and how long one is used before the next is
asked for. A token is kept until a minute before it expires, and for a day at most; a failure to get
a new one leaves what is kept as it is.
-/

namespace LogRelay.PubSub

inductive TokenIssuer where
  /-- The metadata server of the machine, at that address. -/
  | metadata (address : String)
  /-- The account server, to whoever has credentials. -/
  | account (credentials : Credentials)
  deriving DecidableEq, Repr

structure Token where
  text : String
  /-- The token is used before that time, in milliseconds since 1970. -/
  freshUntil : Nat
  deriving DecidableEq, Repr

/-- How the answer to a request for a token is written. -/
structure Token.Grant where
  token : Option String := none
  expiresInSecs : Option Nat := none

namespace Token

/-- The fields of an answer that matter here. -/
def Grant.schema : Json.Schema Grant where
  name := "TokenResponse"
  start := {}
  fields := [
    { key := "access_token", optional := false, isSet := (·.token.isSome)
      read := fun g bytes => (Json.readText bytes).map fun (s, rest) =>
        ({ g with token := some s }, rest) },
    { key := "expires_in", optional := true, isSet := (·.expiresInSecs.isSome)
      read := fun g bytes => (Json.readCount bytes).map fun (n, rest) =>
        ({ g with expiresInSecs := some n }, rest) }]

/-- How long before it expires a token is no longer used, in seconds. -/
def marginSecs : Nat := 60

/-- How long a token is used at most, before the margin is taken off, in seconds. -/
def longestSecs : Nat := 24 * 60 * 60

/-- How long a token is used that expires in so many seconds. -/
def lifetimeSecs (expiresInSecs : Nat) : Nat := min expiresInSecs longestSecs - marginSecs

/-- The token of an answer that came at `time`. -/
def ofGrant (g : Grant) (time : Nat) : Token :=
  ⟨g.token.getD "", time + 1000 * lifetimeSecs (g.expiresInSecs.getD 0)⟩

def isFresh (t : Token) (now : Nat) : Bool := now < t.freshUntil

end Token

namespace TokenIssuer

/-- The metadata server of the cloud's machines. -/
def metadataAddress : String :=
  "http://metadata.google.internal/computeMetadata/v1/instance/service-accounts/default/token"

/-- What tokens are for. -/
def scope : String := "https://www.googleapis.com/auth/pubsub"

/-- The kind of grant that an assertion is exchanged in. -/
def assertionGrant : String := "urn:ietf:params:oauth:grant-type:jwt-bearer"

/-- What an account with credentials says to get a token. -/
def accountBody (now : Nat) : Credentials → Except Failure Http.Body
  | .serviceAccount email keyId key tokenUri =>
    match Key.Rsa.check key with
    | .error cause => .error (.signing cause)
    | .ok () => .ok (.assertion [("grant_type", assertionGrant)] "assertion"
        ⟨key, keyId, email, scope, tokenUri, now / 1000⟩)
  | .authorizedUser clientId clientSecret refreshToken _ =>
    .ok (.form [("grant_type", "refresh_token"), ("client_id", clientId),
      ("client_secret", clientSecret), ("refresh_token", refreshToken)])

def request (issuer : TokenIssuer) (now : Nat) :
    Except Failure (String × (Http.Url → Http.Request)) :=
  match issuer with
  | metadata address => .ok (address, fun url => { method := .get, url := url, forMetadata := true })
  | account credentials =>
    (accountBody now credentials).map fun body =>
      (credentials.tokenUri, fun url => { method := .post, url := url, body := body })

def tokenOf (answer : Http.Answer) : Except Failure Token :=
  if Http.Status.isSuccess answer.status then
    match answer.read Token.Grant.schema.read with
    | .ok grant => .ok (Token.ofGrant grant answer.time)
    | .error cause => .error (.http cause)
  else .error (.tokenRefused answer.status answer.text)

def fetch (issuer : TokenIssuer) (read : Http.Url.Reader) (now : Nat) :
    Http.Call (Except Failure Token) :=
  match issuer.request now with
  | .error f => .done (.error f)
  | .ok (address, request) => do
    match ← Http.exchange read address request with
    | .ok answer => return tokenOf answer
    | .error cause => return .error (.http cause)

/-- A token to use now, and the token to keep. -/
def token (issuer : TokenIssuer) (read : Http.Url.Reader) (kept : Option Token) (now : Nat) :
    Http.Call (Except Failure String × Option Token) :=
  match kept.filter (·.isFresh now) with
  | some t => .done (.ok t.text, kept)
  | none => do
    match ← issuer.fetch read now with
    | .ok t => return (.ok t.text, some t)
    | .error f => return (.error f, kept)

end TokenIssuer

end LogRelay.PubSub
