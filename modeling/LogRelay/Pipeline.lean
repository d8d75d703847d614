import LogRelay.Transformer
import LogRelay.Worker

/-!
The pipeline: any number of workers put records on one stream, the transformer turns them into lines
on the sink. Each action is one step of a worker, of the transformer or of what is around them, and
a run is a list of actions in any order that the pipeline allows.
-/

namespace LogRelay

/-- A subscription that is received: its worker, and where that is. -/
structure Subscription where
  worker : Worker
  state : Worker.State := .starting

structure Pipeline where
  router : Router
  subscriptions : List Subscription
  stream : Channel Record
  transformer : Transformer.State := .waiting
  sink : Channel RoutedLine
  /-- The time in milliseconds since 1970. -/
  now : Nat
  cancelled : Bool := false

namespace Pipeline

inductive Action where
  | worker (i : Nat) (m : Worker.Move)
  | transformer
  /-- The reader of the sink takes a line. -/
  | take
  /-- The reader of the sink goes away. -/
  | closeSink
  | cancel
  /-- Time passes. -/
  | tick (milliseconds : Nat)

/-- What others see of a step. -/
inductive Effect where
  | worker (i : Nat) (e : Worker.Effect)
  | transformer (e : Transformer.Effect)
  /-- The reader of the sink has a line. -/
  | line (line : RoutedLine)
  deriving DecidableEq, Repr

/-- Whether records can still come: each live worker may put one on the stream. -/
def isOpen (p : Pipeline) : Bool := p.subscriptions.any (·.state.isLive)

def liveTasks (p : Pipeline) : Nat :=
  p.subscriptions.countP (·.state.isLive) + if p.transformer.isLive then 1 else 0

/-- Carries out an action, if it is possible now. With the end of the transformer the stream is
closed. -/
def act? (p : Pipeline) : Action → Option (Pipeline × List Effect)
  | .worker i m => do
    let s ← p.subscriptions[i]?
    let (state, stream, effects) ← s.worker.move? p.cancelled p.now p.stream s.state m
    return ({ p with subscriptions := p.subscriptions.set i { s with state }, stream },
      effects.map (.worker i))
  | .transformer => do
    let (state, stream, sink, effects) ←
      Transformer.move? p.router p.cancelled p.isOpen p.stream p.sink p.transformer
    return ({ p with
      transformer := state, sink, stream := if state.isLive then stream else stream.close },
      effects.map .transformer)
  | .take => do
    let (line, sink) ← p.sink.take?
    return ({ p with sink }, [.line line])
  | .closeSink => some ({ p with sink := p.sink.close }, [])
  | .cancel => some ({ p with cancelled := true }, [])
  | .tick n => some ({ p with now := p.now + n }, [])

def run? (p : Pipeline) : List Action → Option (Pipeline × List Effect)
  | [] => some (p, [])
  | a :: rest => do
    let (p, effects) ← p.act? a
    let (p, more) ← p.run? rest
    return (p, effects ++ more)

def instantOf (milliseconds : Nat) : Time.Instant :=
  ⟨milliseconds / 1000, milliseconds % 1000 * 1000000⟩

/-- The pipeline of some settings and workers before its first step; `none` if there cannot be a
stream of that room. -/
def make? (settings : Settings) (parser : Postgres.LineParser) (workers : List Worker) (now : Nat)
    (sink : Channel RoutedLine) : Option Pipeline :=
  (Channel.open? settings.streamCapacity).map fun stream => {
    router := {
      servers := settings.servers, parser
      horizon := freshnessHorizon (instantOf now) settings.freshnessWindowSecs }
    subscriptions := workers.map fun worker => { worker }
    stream, sink, now }

def event? (p : Pipeline) : Effect → Option Event
  | .worker i (.report h) => some ⟨h, (p.subscriptions[i]?).bind (·.worker.server)⟩
  | .transformer (.report h) => some ⟨h, none⟩
  | _ => none

end Pipeline

end LogRelay
