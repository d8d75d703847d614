/-!
What a provider hands over and how it fails. A cancelled call is an orderly end and is never tried
again; anything else that goes wrong is a failure of the transport.
-/

namespace LogRelay

/-- A message as delivered, still encoded. -/
structure Message where
  /-- The provider's handle for acknowledging the message. -/
  ackId : String
  data : List UInt8
  deriving DecidableEq, Repr

inductive ReceiveError where
  | cancelled
  | transport (cause : String)
  deriving DecidableEq, Repr

namespace ReceiveError

/-- Whether the call was called off rather than failed. -/
def isCancelled : ReceiveError → Bool
  | cancelled => true
  | transport _ => false

def message : ReceiveError → String
  | cancelled => "receive cancelled"
  | transport cause => cause

end ReceiveError

end LogRelay
