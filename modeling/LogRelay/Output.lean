import LogRelay.Channel
import LogRelay.Event
import LogRelay.Json.Value
import LogRelay.Record
import LogRelay.Time.Rfc3339

/-!
The output: one JSON object a line for every routed line. A JSON text holds no line end, so a line of
the output never breaks, whatever its content is.
-/

namespace LogRelay

def Identity.json (i : Identity) : Json.Value :=
  .object [("system_id", .text i.systemId), ("system_type", .text i.systemType),
    ("system_scope", .text i.systemScope)]

def Postgres.Line.json (l : Postgres.Line) : Json.Value :=
  .object [("occurred_at", .ofText? (l.occurredAt.map Time.Rfc3339.render)),
    ("log_level", .text l.level.name),
    ("backend_pid", (l.backendPid.map Json.Value.integer).getD .null),
    ("database", .ofText? l.database), ("username", .ofText? l.username),
    ("content", .text l.content)]

def RoutedLine.json (r : RoutedLine) : Json.Value :=
  .object [("identifier", r.identity.json), ("log_line", r.line.json)]

/-- A routed line as it is written, without the line end. -/
def RoutedLine.text (r : RoutedLine) : String := r.json.render

/-- The bytes that a routed line puts out. -/
def RoutedLine.bytes (r : RoutedLine) : List UInt8 := Text.Utf8.encode (r.text ++ "\n")

namespace Writer

inductive State where
  | writing
  | ended
  deriving DecidableEq, Repr

/-- What others see of a step of the writer. -/
inductive Effect where
  | write (line : RoutedLine)
  | report (happening : Happening)
  deriving DecidableEq, Repr

/-- Moves the writer: it writes the next line, which may fail; `none` if it has to wait. It does not
care whether the rest is called off, and ends when no line can come any more. -/
def move? (isOpen : Bool) (failure : Option String) (sink : Channel RoutedLine) :
    State → Option (State × Channel RoutedLine × List Effect)
  | .ended => none
  | .writing =>
    match sink.take? with
    | some (line, sink) =>
      match failure with
      | none => some (.writing, sink, [.write line])
      | some cause => some (.ended, sink.close, [.report (.outputLost cause)])
    | none => if isOpen then none else some (.ended, sink, [])

end Writer

end LogRelay
