import LogRelay.Event
import LogRelay.Registry
import LogRelay.Server
import LogRelay.SetupError

/-!
Setting up the subscriptions of all servers. Every server is tried with every provider, server by
server. A subscription that is live already is shared; one whose start failed may be tried again by
a later server. In strict mode the first failure is the last attempt.
-/

namespace LogRelay

/-- A way to receive logs. What `start` does may depend on a state `σ` that all providers share; what
it starts is a `τ`. -/
structure Provider (σ τ : Type) where
  /-- The subscription that a server has with the provider. Servers with one key share it. -/
  key? : Server → Option String
  start : Server → σ → Except SetupError τ × σ

/-- A call of a provider's `start`. -/
structure Attempt (τ : Type) where
  server : Server
  /-- Which of the providers. -/
  provider : Nat
  key : String
  outcome : Except SetupError τ

namespace Attempt

variable {τ : Type}

def started? (a : Attempt τ) : Option τ := a.outcome.toOption

def failure? (a : Attempt τ) : Option SetupError :=
  match a.outcome with
  | .ok _ => none
  | .error e => some e

end Attempt

/-- What setting up has come to. -/
structure Startup (τ : Type) where
  /-- The calls made, in their order. -/
  attempts : List (Attempt τ)
  /-- The subscriptions that are live. -/
  registry : Registry
  /-- The failure that the setup has ended with, if it has. -/
  result : Except SetupError Unit
  /-- What is told about servers that go without their logs. -/
  warnings : List Event

namespace Startup

variable {σ τ : Type}

/-- Servers with the providers to try, in the order in which they are tried. -/
def pairs (servers : List Server) (providers : List (Provider σ τ)) :
    List (Server × Nat × Provider σ τ) :=
  servers.flatMap fun server => providers.zipIdx.map fun (provider, i) => (server, i, provider)

/-- A call with what is told about it, and the setup that goes on after it. -/
def begin (a : Attempt τ) (told : List Event) (later : Startup τ) : Startup τ :=
  { later with attempts := a :: later.attempts, warnings := told ++ later.warnings }

/-- Tries one server with one provider after the other. -/
def visit (strict : Bool) : List (Server × Nat × Provider σ τ) → Registry → σ → Startup τ
  | [], registry, _ => ⟨[], registry, .ok (), []⟩
  | (server, i, provider) :: rest, registry, s =>
    match provider.key? server with
    | none => visit strict rest registry s
    | some key =>
      match registry.reserve key with
      | (false, registry) => visit strict rest registry s
      | (true, registry) =>
        match provider.start server s with
        | (.ok started, s) => begin ⟨server, i, key, .ok started⟩ [] (visit strict rest registry s)
        | (.error e, s) =>
          let registry := registry.release key
          if strict then ⟨[⟨server, i, key, .error e⟩], registry, .error e, []⟩
          else
            begin ⟨server, i, key, .error e⟩ [⟨.serverSkipped e, some server.name⟩]
              (visit strict rest registry s)

def run (strict : Bool) (servers : List Server) (providers : List (Provider σ τ)) (s : σ) :
    Startup τ :=
  visit strict (pairs servers providers) Registry.empty s

/-- What was started, with the server that it was started for and its key. -/
def started (u : Startup τ) : List (Server × String × τ) :=
  u.attempts.filterMap fun a => a.started?.map (a.server, a.key, ·)

end Startup

end LogRelay
