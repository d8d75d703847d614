import LogRelay.Transformer

/-!
The transformer with everything it meets: the stream and its writers, the sink and its reader, and
whoever may call it off. Each action is one step of one of them.
-/

namespace LogRelay.Transformer

/-- The transformer at work. -/
structure System where
  state : State := .waiting
  stream : Channel Record
  /-- Whether records can still come. -/
  isOpen : Bool := true
  sink : Channel RoutedLine
  cancelled : Bool := false
  deriving DecidableEq, Repr

/-- One step of the transformer or of what is around it. -/
inductive Action where
  | move
  /-- A record is put on the stream. -/
  | put (record : Record)
  /-- No record will come any more. -/
  | finish
  /-- The reader of the sink takes a line. -/
  | take
  /-- The reader of the sink goes away. -/
  | close
  | cancel
  deriving DecidableEq, Repr

namespace System

/-- Carries out an action, if it is possible now. With the end of the transformer its stream is
closed. -/
def act? (router : Router) (s : System) : Action → Option (System × List Effect)
  | .move =>
    (Transformer.move? router s.cancelled s.isOpen s.stream s.sink s.state).map
      fun (state, stream, sink, effects) =>
        ({ s with state, sink, stream := if state.isLive then stream else stream.close }, effects)
  | .put record =>
    if s.isOpen then
      match s.stream.send record with
      | .sent stream => some ({ s with stream }, [])
      | _ => none
    else none
  | .finish => some ({ s with isOpen := false }, [])
  | .take => s.sink.take?.map fun (_, sink) => ({ s with sink }, [])
  | .close => some ({ s with sink := s.sink.close }, [])
  | .cancel => some ({ s with cancelled := true }, [])

def run? (router : Router) (s : System) : List Action → Option (System × List Effect)
  | [] => some (s, [])
  | a :: rest => do
    let (s, effects) ← s.act? router a
    let (s, more) ← s.run? router rest
    return (s, effects ++ more)

end System

end LogRelay.Transformer
