import LogRelay.Http.Exchange
import LogRelay.Key.Rsa
import LogRelay.Receiving

/-!
What can go wrong between a client and the message service. None of it is a call that was called
off, so a failure is always one of the transport.
-/

namespace LogRelay.PubSub

/-- Why a call to the service failed. -/
inductive Failure where
  | http (cause : Http.Error)
  /-- The assertion that a token is asked for with cannot be signed. -/
  | signing (cause : Key.Rsa.Rejection)
  /-- There is no token; an answer says so. -/
  | tokenRefused (status : Nat) (body : String)
  /-- The service answers that it has not done what it was asked for. -/
  | refused (url : Http.Url) (status : Nat) (body : String)
  deriving DecidableEq, Repr

namespace Failure

def message : Failure → String
  | http cause => cause.message
  | signing cause => "Failed to sign JWT: RSA key invalid: " ++ cause.message
  | tokenRefused status body =>
    "Failed to fetch access token: " ++ Http.Status.render status ++ ": " ++ body
  | refused url status body =>
    "Pub/Sub request to " ++ url.render ++ " failed: " ++ Http.Status.render status ++ ": " ++ body

def toReceiveError (f : Failure) : ReceiveError := .transport f.message

@[simp] theorem isCancelled_toReceiveError (f : Failure) : f.toReceiveError.isCancelled = false :=
  rfl

end Failure

end LogRelay.PubSub
