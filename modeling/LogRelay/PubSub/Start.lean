import LogRelay.PubSub.Access
import LogRelay.PubSub.Client
import LogRelay.SetupError
import LogRelay.Startup
import LogRelay.Worker

/-!
What it takes to start the subscription of a server: its path, and credentials unless the service is
reached without. All of it is checked before there is a client, and a worker runs on a client.
-/

namespace LogRelay.PubSub.Access

/-- Who issues the tokens for a server: the account of its credentials file, or else the machine's
metadata server. -/
def issuer (access : Access) (files : Files) (server : Server) :
    Except SetupError (Option TokenIssuer) :=
  if access.anonymous then .ok none
  else
    match Server.trimmed? server.credentialsFile with
    | none => .ok (some (.metadata TokenIssuer.metadataAddress))
    | some path =>
      match Credentials.load files path with
      | .ok credentials => .ok (some (.account credentials))
      | .error cause => .error (.credentials path cause)

def client (access : Access) (files : Files) (server : Server) (subscription : String) :
    Except SetupError Client :=
  match SubscriptionPath.parse? subscription with
  | none => .error (.invalidSubscription subscription)
  | some path =>
    (access.issuer files server).map (Client.make access.endpoint path access.maxMessages)

/-- The service as a provider. A server without a subscription has nothing to start. -/
def provider {σ : Type} (access : Access) (files : Files) : Provider σ Client where
  key? := Server.subscription?
  start server s := (access.client files server (server.subscription?.getD ""), s)

/-- The same where making the HTTP client, which is tried last, may fail as well; `make` says what comes of
it, and may depend on the state that all starts share. -/
def providerWith {σ : Type} (access : Access) (files : Files) (make : σ → Except String Unit × σ) :
    Provider σ Client where
  key? := Server.subscription?
  start server s :=
    match access.client files server (server.subscription?.getD "") with
    | .error e => (.error e, s)
    | .ok client =>
      match make s with
      | (.ok (), s) => (.ok client, s)
      | (.error cause, s) => (.error (.client cause), s)

/-- Where it never fails it makes no difference. -/
theorem providerWith_ok {σ : Type} (access : Access) (files : Files) :
    (access.providerWith files fun s => (.ok (), s)) = (access.provider files : Provider σ Client) := by
  simp only [providerWith, provider, Provider.mk.injEq, true_and]
  funext server s
  cases access.client files server (server.subscription?.getD "") <;> rfl

def worker (client : Client) (settings : Settings) (server : Server) : Worker where
  subscription := client.subscription.render
  decode := Envelope.decode
  retrySecs := settings.retryIntervalSecs
  server := some server.name

end LogRelay.PubSub.Access
