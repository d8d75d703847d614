import LogRelay.Channel
import LogRelay.Event
import LogRelay.Routing

/-!
The one task that reads the stream of records and writes lines to the sink. It takes a record, puts
all the lines of the record on the sink, in their order, and only then takes the next one. It ends
when it is called off, when no record can come any more, or when nobody reads the sink.
-/

namespace LogRelay.Transformer

/-- What the transformer waits for. -/
inductive State where
  /-- The next record. -/
  | waiting
  /-- Room for a line on the sink; further lines of the record are still to come. -/
  | sending (line : RoutedLine) (rest : List RoutedLine)
  /-- Nothing any more. -/
  | ended
  deriving DecidableEq, Repr

def State.isLive : State → Bool
  | ended => false
  | _ => true

inductive Effect where
  /-- A record is taken off the stream. -/
  | take (record : Record)
  /-- A line is put on the sink. -/
  | emit (line : RoutedLine)
  | report (happening : Happening)
  deriving DecidableEq, Repr

/-- What is said about a record whose text is no entry. -/
def complaint (router : Router) (record : Record) : List Effect :=
  match router.line? record with
  | some _ => []
  | none => [.report (.unparsable record.content)]

/-- The state in which the lines are still to be sent. -/
def State.ofLines : List RoutedLine → State
  | [] => waiting
  | line :: rest => sending line rest

/-- Moves the transformer; `none` if it has to wait. `isOpen` says whether records can still come. -/
def move? (router : Router) (cancelled isOpen : Bool) (stream : Channel Record)
    (sink : Channel RoutedLine) :
    State → Option (State × Channel Record × Channel RoutedLine × List Effect)
  | .ended => none
  | .waiting =>
    if cancelled then some (.ended, stream, sink, [])
    else
      match stream.take? with
      | some (record, stream) =>
        some (.ofLines (router.route record), stream, sink,
          .take record :: complaint router record)
      | none => if isOpen then none else some (.ended, stream, sink, [])
  | .sending line rest =>
    if cancelled then some (.ended, stream, sink, [])
    else
      match sink.send line with
      | .sent sink => some (.ofLines rest, stream, sink, [.emit line])
      | .closed => some (.ended, stream, sink, [])
      | .full => none

end LogRelay.Transformer
