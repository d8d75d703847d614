import LogRelay.Settings

/-!
How the message service is reached: at an emulator, which knows no accounts, or at an endpoint where
every request is authorised.
-/

namespace LogRelay.PubSub

/-- Where the service is and how it is talked to. -/
structure Access where
  endpoint : String
  maxMessages : Nat
  /-- Requests carry no authorisation. -/
  anonymous : Bool
  deriving DecidableEq, Repr

namespace Access

def defaultEndpoint : String := "https://pubsub.googleapis.com"

def providerName : String := "google_pubsub"

/-- An emulator's host, if it is given and not blank, goes before the endpoint of the settings. -/
def ofSettings (s : Settings) (emulatorHost : Option String) : Access :=
  match Server.trimmed? emulatorHost with
  | some host => ⟨"http://" ++ host, s.maxMessages, true⟩
  | none => ⟨s.endpoint.getD defaultEndpoint, s.maxMessages, false⟩

end Access

end LogRelay.PubSub
