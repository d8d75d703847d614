import LogRelay.Worker

/-!
A worker with everything it meets: its stream, the clock, whoever reads the stream, and whoever may
call it off. Each action is one step of one of them; a run is a list of actions, in any order that
the system allows.
-/

namespace LogRelay.Worker

/-- A worker at work. -/
structure System where
  state : State := .starting
  stream : Channel Record
  /-- The time in milliseconds. -/
  now : Nat := 0
  cancelled : Bool := false
  deriving DecidableEq, Repr

/-- One step of the worker or of what is around it. -/
inductive Action where
  | move (m : Move)
  /-- The reader of the stream takes a record. -/
  | take
  /-- The reader of the stream goes away. -/
  | close
  | cancel
  /-- Time passes. -/
  | tick (milliseconds : Nat)

namespace System

/-- Carries out an action, if it is possible now. -/
def act? (w : Worker) (s : System) : Action → Option (System × List Effect)
  | .move m =>
    (w.move? s.cancelled s.now s.stream s.state m).map fun (state, stream, effects) =>
      ({ s with state, stream }, effects)
  | .take => s.stream.take?.map fun (_, stream) => ({ s with stream }, [])
  | .close => some ({ s with stream := s.stream.close }, [])
  | .cancel => some ({ s with cancelled := true }, [])
  | .tick n => some ({ s with now := s.now + n }, [])

def run? (w : Worker) (s : System) : List Action → Option (System × List Effect)
  | [] => some (s, [])
  | a :: rest => do
    let (s, effects) ← s.act? w a
    let (s, more) ← s.run? w rest
    return (s, effects ++ more)

end System

end LogRelay.Worker
