import LogRelay.PubSub.Client
import LogRelay.Rehearsal.Responder

/-!
Clients on a made-up network, as the provider of a rehearsal.
-/

namespace LogRelay.Rehearsal

/-- A network: what becomes of a request at a time, unless it is never answered. -/
abbrev Network (σ : Type) := Http.Request → (now : Nat) → σ → Option Http.Outcome × σ

/-- What a network is to a call that begins at a time: no time passes until it replies. -/
def Network.server {σ : Type} (network : Network σ) (now : Nat) (r : Http.Request) (s : σ) :
    Option Http.Reply × σ :=
  let (outcome, s) := network r now s
  (outcome.map (⟨·, now⟩), s)

structure Clients (σ : Type) where
  /-- The tokens that are kept, by client. -/
  kept : List (Option PubSub.Token)
  network : σ
  /-- The requests in their order. -/
  requests : List Http.Request := []

namespace Clients

variable {σ α : Type}

def call (network : Network σ) (client now : Nat) (c : Clients σ)
    (request : Option PubSub.Token → Http.Call (Except PubSub.Failure α × Option PubSub.Token)) :
    Option (Except ReceiveError α) × Clients σ :=
  let ((result, requests), s) :=
    (request ((c.kept[client]?).getD none)).run (network.server now) c.network
  let c := { c with network := s, requests := c.requests ++ requests }
  match result with
  | none => (none, c)
  | some (outcome, kept) =>
    (some (outcome.mapError (·.toReceiveError)), { c with kept := c.kept.set client kept })

/-- The provider that the clients are. -/
def responder (read : Http.Url.Reader) (network : Network σ) (clients : List PubSub.Client) :
    Responder (Clients σ) where
  receive i now c :=
    match clients[i]? with
    | some client => c.call network i now fun kept => client.receive read kept now
    | none => (none, c)
  acknowledge i now ids c :=
    match clients[i]? with
    | some client => c.call network i now fun kept => client.acknowledge read kept now ids
    | none => (none, c)

end Clients

end LogRelay.Rehearsal
