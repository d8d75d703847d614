import LogRelay.PubSub.Token
import LogRelay.SubscriptionPath

/-!
The client of one subscription: it pulls messages and acknowledges them. Every call gets a token
first, if one is needed, and makes its own request only with it. Message data is passed on as it is
found, so that one corrupt message does not spoil the others.
-/

namespace LogRelay.PubSub

structure Client where
  subscription : SubscriptionPath
  pullUrl : String
  acknowledgeUrl : String
  /-- How many messages are asked for at once. -/
  maxMessages : Nat
  /-- Who issues the tokens that authorise requests, unless none are needed. -/
  issuer : Option TokenIssuer
  deriving DecidableEq, Repr

/-- A message of an answer while its fields are read. -/
structure Client.Draft where
  ackId : Option String := none
  data : Option String := none
  hasMessage : Bool := false

namespace Client

/-- The client of a subscription at an endpoint. At least one message is asked for. -/
def make (endpoint : String) (path : SubscriptionPath) (maxMessages : Nat)
    (issuer : Option TokenIssuer) : Client :=
  ⟨path, path.pullUrl endpoint, path.acknowledgeUrl endpoint, max maxMessages 1, issuer⟩

/-- The fields of a message that matter here. -/
def messageSchema : Json.Schema (Option String) where
  name := "PubsubMessage"
  start := none
  fields := [
    { key := "data", optional := true, isSet := Option.isSome
      read := fun _ bytes => (Json.readText bytes).map fun (s, rest) => (some s, rest) }]

def deliverySchema : Json.Schema Draft where
  name := "WireReceivedMessage"
  start := {}
  fields := [
    { key := "ackId", optional := false, isSet := (·.ackId.isSome)
      read := fun d bytes => (Json.readText bytes).map fun (s, rest) =>
        ({ d with ackId := some s }, rest) },
    { key := "message", optional := true, isSet := (·.hasMessage)
      read := fun d bytes => (messageSchema.read bytes).map fun (data, rest) =>
        ({ d with data := data, hasMessage := true }, rest) }]

/-- A delivered message; data that is missing is empty. -/
def readMessage : Json.Reader Message := fun bytes =>
  (deliverySchema.read bytes).map fun (d, rest) =>
    (⟨d.ackId.getD "", Text.Utf8.encode (d.data.getD "")⟩, rest)

def pullSchema : Json.Schema (Option (List Message)) where
  name := "PullResponse"
  start := none
  fields := [
    { key := "receivedMessages", optional := true, isSet := Option.isSome
      read := fun _ bytes => (Json.readList readMessage bytes).map fun (ms, rest) =>
        (some ms, rest) }]

def checked (answer : Http.Answer) : Except Failure Http.Answer :=
  if Http.Status.isSuccess answer.status then .ok answer
  else .error (.refused answer.url answer.status answer.text)

/-- The messages that a pull brings. No message within the time a pull may take is no failure. -/
def pulled : Except Http.Error Http.Answer → Except Failure (List Message)
  | .error (.timedOut _) => .ok []
  | .error cause => .error (.http cause)
  | .ok answer => do
    let answer ← checked answer
    match answer.read pullSchema.read with
    | .ok messages => return messages.getD []
    | .error cause => .error (.http cause)

/-- Whether an acknowledgement came through. -/
def acknowledged : Except Http.Error Http.Answer → Except Failure Unit
  | .error cause => .error (.http cause)
  | .ok answer => (checked answer).map fun _ => ()

def pullBody (c : Client) : Http.Body :=
  .json (.object [("maxMessages", .integer c.maxMessages)])

def acknowledgeBody (ids : List String) : Http.Body :=
  .json (.object [("ackIds", .list (ids.map .text))])

/-- A token to use now, if one is needed, and the token to keep. -/
def bearer (c : Client) (read : Http.Url.Reader) (kept : Option Token) (now : Nat) :
    Http.Call (Except Failure (Option String) × Option Token) :=
  match c.issuer with
  | none => .done (.ok none, kept)
  | some issuer => do
    let (token, kept) ← issuer.token read kept now
    return (token.map some, kept)

def pullLimitSecs : Nat := 90

def acknowledgeLimitSecs : Nat := 30

/-- Makes a request, authorised if need be; with the token to keep. -/
def authorised {α : Type} (c : Client) (read : Http.Url.Reader) (kept : Option Token) (now : Nat)
    (address : String) (body : Http.Body) (limitSecs : Nat)
    (result : Except Http.Error Http.Answer → Except Failure α) :
    Http.Call (Except Failure α × Option Token) := do
  match ← c.bearer read kept now with
  | (.error f, kept) => return (.error f, kept)
  | (.ok bearer, kept) =>
    let answer ← Http.exchange read address fun url =>
      { method := .post, url := url, body := body, bearer := bearer, limitSecs := some limitSecs }
    return (result answer, kept)

def receive (c : Client) (read : Http.Url.Reader) (kept : Option Token) (now : Nat) :
    Http.Call (Except Failure (List Message) × Option Token) :=
  c.authorised read kept now c.pullUrl c.pullBody pullLimitSecs pulled

/-- Tells the service that the messages need not be delivered again. -/
def acknowledge (c : Client) (read : Http.Url.Reader) (kept : Option Token) (now : Nat)
    (ids : List String) : Http.Call (Except Failure Unit × Option Token) :=
  c.authorised read kept now c.acknowledgeUrl (acknowledgeBody ids) acknowledgeLimitSecs
    acknowledged

end Client

end LogRelay.PubSub
