import LogRelay.PubSub.Client
import LogRelay.Worker.System

/-!
A worker at its client. The worker says when a call begins and the client makes it, one request after
the other; only the end of the call moves the worker on. Whoever answers the requests may do so at any
time, or never.
-/

namespace LogRelay.PubSub

/-- What a worker calls its client for. -/
inductive Operation where
  | pull
  | acknowledge (ids : List String)
  deriving DecidableEq, Repr

/-- The operation that begins with an effect, if one does. -/
def Operation.ofEffect? : Worker.Effect → Option Operation
  | .receive => some .pull
  | .acknowledge ids => some (.acknowledge ids)
  | _ => none

/-- Carries out an operation. It ends with a move of the worker, and with the token to keep. -/
def Client.perform (c : Client) (read : Http.Url.Reader) (kept : Option Token) (now : Nat) :
    Operation → Http.Call (Worker.Move × Option Token)
  | .pull => do
    let (outcome, kept) ← c.receive read kept now
    return (.received (outcome.mapError (·.toReceiveError)), kept)
  | .acknowledge ids => do
    let (outcome, kept) ← c.acknowledge read kept now ids
    return (.acknowledged (outcome.mapError (·.toReceiveError)), kept)

/-- A worker at work with its client. -/
structure Session where
  worker : Worker.System
  /-- The token that the client keeps. -/
  kept : Option Token := none
  /-- The call under way. -/
  call : Option (Http.Call (Worker.Move × Option Token)) := none

namespace Session

/-- One step of the worker, of the client or of what is around them. -/
inductive Action where
  | worker (a : Worker.Action)
  /-- The request under way has its outcome. -/
  | reply (outcome : Http.Outcome)
  /-- The call under way is over. -/
  | finish

/-- Whether the action is the end of a call, which only the client brings about. -/
def isClients : Worker.Action → Bool
  | .move (.received _) => true
  | .move (.acknowledged _) => true
  | _ => false

/-- Carries out an action on the worker, and begins the call that it leads to. A worker that has ended
drops its call. -/
def follow (read : Http.Url.Reader) (client : Client) (w : Worker) (s : Session) (a : Worker.Action) :
    Option (Session × List Worker.Effect) :=
  (s.worker.act? w a).map fun (worker, effects) =>
    let begun := (effects.findSome? Operation.ofEffect?).map (client.perform read s.kept worker.now)
    ({ s with worker, call := if worker.state.isLive then begun <|> s.call else none }, effects)

/-- Carries out an action, if it is possible now. -/
def act? (read : Http.Url.Reader) (client : Client) (w : Worker) (s : Session) :
    Action → Option (Session × List Worker.Effect)
  | .worker a => if isClients a then none else s.follow read client w a
  | .reply outcome =>
    match s.call with
    | some (.send _ next) => some ({ s with call := some (next ⟨outcome, s.worker.now⟩) }, [])
    | _ => none
  | .finish =>
    match s.call with
    | some (.done (move, kept)) => { s with kept, call := none }.follow read client w (.move move)
    | _ => none

def run? (read : Http.Url.Reader) (client : Client) (w : Worker) (s : Session) :
    List Action → Option (Session × List Worker.Effect)
  | [] => some (s, [])
  | a :: rest => do
    let (s, effects) ← s.act? read client w a
    let (s, more) ← s.run? read client w rest
    return (s, effects ++ more)

end Session

end LogRelay.PubSub
