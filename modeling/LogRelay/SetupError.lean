import LogRelay.Credentials

/-!
Why the subscription of one server cannot be set up. Nothing has been started when one of these
arises.
-/

namespace LogRelay

/-- Why a subscription cannot be set up. -/
inductive SetupError where
  | invalidSubscription (text : String)
  | credentials (path : String) (cause : Credentials.Error)
  | client (cause : String)
  deriving DecidableEq, Repr

def SetupError.message : SetupError → String
  | invalidSubscription text =>
    "Unsupported subscription format - must be " ++
      "\"projects/PROJECT_NAME/subscriptions/SUBSCRIPTION_NAME\", got: " ++ text
  | credentials path cause => "Failed to read credentials file " ++ path ++ ": " ++ cause.message
  | client cause => "Failed to create Google PubSub client: " ++ cause

end LogRelay
