import LogRelay.Base64
import LogRelay.Http.Form
import LogRelay.Http.Status
import LogRelay.Key.Assertion

/-!
Exchanges with a web server: a request and what becomes of it. A computation that makes requests is
a tree (`Call`): it is done, or it sends a request and goes on with the reply. Nothing is sent in the
definition itself, so a call can be run against any server, real or made up.
-/

namespace LogRelay.Http

/-- What is done to a resource. -/
inductive Method where
  | get
  | post
  deriving DecidableEq, Repr

def Method.name : Method → String
  | get => "GET"
  | post => "POST"

/-- What a request carries. -/
inductive Body where
  | empty
  | json (value : Json.Value)
  | form (fields : List (String × String))
  /-- A form whose last field, of that name, is a signed assertion. -/
  | assertion (fields : List (String × String)) (name : String) (assertion : Key.Assertion)
  deriving Repr

namespace Body

/-- The kind of content, where there is any. -/
def contentType? : Body → Option String
  | empty => none
  | json _ => some "application/json"
  | form _ => some "application/x-www-form-urlencoded"
  | assertion .. => some "application/x-www-form-urlencoded"

/-- The text of the body, up to a signed assertion. -/
def text : Body → String
  | empty => ""
  | json value => value.render
  | form fields => Form.render fields
  | assertion fields name _ => Form.render (fields ++ [(name, "")])

end Body

structure Request where
  method : Method
  url : Url
  body : Body := .empty
  /-- The token that authorises the request. -/
  bearer : Option String := none
  /-- Tells a machine's metadata server that the request is meant for it. -/
  forMetadata : Bool := false
  /-- After how long there need not be an answer any more, in seconds. -/
  limitSecs : Option Nat := none
  deriving Repr

namespace Request

def basic? (r : Request) : Option String :=
  r.url.account.map fun (name, password) =>
    "Basic " ++ String.ofList ((Base64.encode (Text.Utf8.encode (name ++ ":" ++ password))).map
      fun b => Char.ofNat b.toNat)

def bearerValue? (r : Request) : Option String := r.bearer.map ("Bearer " ++ ·)

def headers (r : Request) : List (String × String) :=
  (r.basic?.map ("authorization", ·)).toList ++
    (if r.forMetadata then [("metadata-flavor", "Google")] else []) ++
    (r.body.contentType?.map ("content-type", ·)).toList ++
    (r.bearerValue?.map ("authorization", ·)).toList

/-- Whether a text can be the value of a header. -/
def isHeaderText (s : String) : Bool :=
  s.toList.all fun c => (32 ≤ c.toNat && c.toNat ≠ 127) || c = '\t'

end Request

/-- What becomes of a request. -/
inductive Outcome where
  | answered (status : Nat) (body : List UInt8)
  /-- An answer begins, but its body does not come to an end. -/
  | cutOff (status : Nat)
  /-- The connection is refused, or closed before there is an answer. -/
  | lost
  | timedOut
  deriving DecidableEq, Repr

/-- The outcome of a request, and when it came, in milliseconds. -/
structure Reply where
  outcome : Outcome
  time : Nat
  deriving DecidableEq, Repr

/-- Why there is no answer of use. -/
inductive Error where
  /-- The request cannot be made: its address or its token is none. -/
  | unmakeable
  /-- The address is of a kind that cannot be requested. -/
  | unusable (address : String)
  | lost (url : Url)
  | timedOut (url : Url)
  /-- The body of the answer is not what it must be. -/
  | undecodable
  deriving DecidableEq, Repr

def Error.message : Error → String
  | unmakeable => "builder error"
  | unusable address => "builder error for url (" ++ address ++ ")"
  | lost url => "error sending request for url (" ++ url.render ++ ")"
  | timedOut url => "error sending request for url (" ++ url.render ++ ")"
  | undecodable => "error decoding response body"

structure Answer where
  url : Url
  status : Nat
  /-- There is none if it does not come to an end. -/
  body : Option (List UInt8)
  /-- When the answer came. -/
  time : Nat
  deriving DecidableEq, Repr

/-- The body as text; empty if there is none. -/
def Answer.text (a : Answer) : String := (a.body.map Text.Utf8.decodeLossy).getD ""

/-- The value that the body is in JSON. -/
def Answer.read {α : Type} (a : Answer) (reader : Json.Reader α) : Except Error α :=
  match a.body with
  | none => .error .undecodable
  | some body => (Json.readWhole reader body).mapError fun _ => .undecodable

/-- A computation that makes requests. -/
inductive Call (α : Type) where
  | done (result : α)
  | send (request : Request) (next : Reply → Call α)

namespace Call

variable {α β : Type}

/-- Goes on with the result of a call. -/
def bind : Call α → (α → Call β) → Call β
  | done a, f => f a
  | send r next, f => send r fun reply => (next reply).bind f

instance : Monad Call where
  pure := done
  bind := bind

/-- Runs a call against a server, which may never reply; with the requests that were made. -/
def run {σ : Type} (server : Request → σ → Option Reply × σ) :
    Call α → σ → (Option α × List Request) × σ
  | done a, s => ((some a, []), s)
  | send r next, s =>
    match server r s with
    | (none, s) => ((none, [r]), s)
    | (some reply, s) =>
      let ((result, requests), s) := (next reply).run server s
      ((result, r :: requests), s)

end Call

def Reply.answer (reply : Reply) (url : Url) : Except Error Answer :=
  match reply.outcome with
  | .answered status body =>
    .ok ⟨url, status, some (if Status.hasBody status then body else []), reply.time⟩
  | .cutOff status => .ok ⟨url, status, if Status.hasBody status then none else some [], reply.time⟩
  | .lost => .error (.lost url)
  | .timedOut => .error (.timedOut url)

/-- Sends a request to an address and waits for the answer. -/
def exchange (read : Url.Reader) (address : String) (request : Url → Request) :
    Call (Except Error Answer) :=
  match read address with
  | .error .malformed => .done (.error .unmakeable)
  | .error (.unusable text) => .done (.error (.unusable text))
  | .ok url =>
    if ((request url).bearer.map Request.isHeaderText).getD true then
      .send (request url) fun reply => .done (reply.answer url)
    else .done (.error .unmakeable)

end LogRelay.Http
