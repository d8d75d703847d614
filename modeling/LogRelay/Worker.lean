import LogRelay.Channel
import LogRelay.Event

/-!
The receive loop of one subscription. A worker asks for messages, acknowledges each batch as a whole,
and only then puts the records of the batch on the stream, in their order. A failure of the provider
lets it rest for a while; it ends when it is called off or when nobody reads the stream.

A worker is a machine that moves only when what it waits for has come. A move changes its state and
the stream, and has effects that others see.
-/

namespace LogRelay

structure Worker where
  subscription : String
  /-- Turns a message into a record; `none` for messages that are passed over. -/
  decode : List UInt8 → Except Envelope.Error (Option Record)
  retrySecs : Nat
  /-- The server whose setup started the worker. -/
  server : Option String := none

namespace Worker

/-- What a worker waits for. -/
inductive State where
  /-- Its first turn. -/
  | starting
  /-- The next batch of messages. -/
  | receiving
  /-- The acknowledgement of a batch. -/
  | acknowledging (batch : List Message)
  /-- Room for a record on the stream; the messages after it are still to be decoded. -/
  | sending (record : Record) (rest : List Message)
  /-- The end of the pause after an empty batch. -/
  | pausing (wake : Nat)
  /-- The end of the rest after a failure. -/
  | coolingDown (wake : Nat)
  /-- Nothing any more. -/
  | ended
  deriving DecidableEq, Repr

inductive Move where
  /-- The provider's call for messages ends. -/
  | received (outcome : Except ReceiveError (List Message))
  /-- The provider's call to acknowledge ends. -/
  | acknowledged (outcome : Except ReceiveError Unit)
  /-- The worker looks whether it can go on. -/
  | resume

inductive Effect where
  /-- A call for messages begins. -/
  | receive
  /-- A call to acknowledge begins. -/
  | acknowledge (ids : List String)
  /-- A record is put on the stream. -/
  | emit (record : Record)
  | report (happening : Happening)
  deriving DecidableEq, Repr

/-- How long the pause after an empty batch is, in milliseconds. -/
def emptyBatchPause : Nat := 1000

/-- What comes of a move that leaves the stream alone. -/
abbrev Next := State × List Effect

/-- Begins a call for messages, unless the worker is called off. -/
def begin (cancelled : Bool) : Next :=
  if cancelled then (.ended, []) else (.receiving, [.receive])

/-- Goes through acknowledged messages up to the next record. -/
def proceed (w : Worker) (cancelled : Bool) : List Message → Next
  | [] => begin cancelled
  | m :: rest =>
    match w.decode m.data with
    | .ok (some record) => (.sending record rest, [])
    | .ok none => proceed w cancelled rest
    | .error cause =>
      let (state, effects) := proceed w cancelled rest
      (state, .report (.undecodable cause) :: effects)

/-- What follows a failed call: rest, unless the call was called off. -/
def fail (w : Worker) (now : Nat) (cause : ReceiveError) : Next :=
  if cause.isCancelled then (.ended, [])
  else
    (.coolingDown (now + 1000 * w.retrySecs),
      [.report (.receiveFailed w.subscription w.retrySecs cause)])

/-- Moves a worker at the time `now`; `none` if the move does not apply. A worker that is called off
ends whatever it waits for. -/
def move? (w : Worker) (cancelled : Bool) (now : Nat) (stream : Channel Record) :
    State → Move → Option (State × Channel Record × List Effect)
  | .ended, _ => none
  | .coolingDown wake, .resume =>
    if wake ≤ now then
      let (state, effects) := begin cancelled
      some (state, stream, effects)
    else if cancelled then some (.ended, stream, [])
    else none
  | state, move =>
    let unchanged (next : Next) : Option (State × Channel Record × List Effect) :=
      some (next.1, stream, next.2)
    if cancelled then some (.ended, stream, [])
    else
      match state, move with
      | .starting, .resume => unchanged (begin cancelled)
      | .receiving, .received (.error cause) => unchanged (w.fail now cause)
      | .receiving, .received (.ok []) => unchanged (.pausing (now + emptyBatchPause), [])
      | .receiving, .received (.ok batch) =>
        unchanged (.acknowledging batch, [.acknowledge (batch.map (·.ackId))])
      | .acknowledging _, .acknowledged (.error cause) => unchanged (w.fail now cause)
      | .acknowledging batch, .acknowledged (.ok ()) => unchanged (w.proceed cancelled batch)
      | .sending record rest, .resume =>
        match stream.send record with
        | .sent stream =>
          let (state, effects) := w.proceed cancelled rest
          some (state, stream, .emit record :: effects)
        | .closed => some (.ended, stream, [])
        | .full => none
      | .pausing wake, .resume => if wake ≤ now then unchanged (begin cancelled) else none
      | _, _ => none

namespace State

def isLive : State → Bool
  | ended => false
  | _ => true

/-- When a resting worker goes on. -/
def wake? : State → Option Nat
  | pausing wake => some wake
  | coolingDown wake => some wake
  | _ => none

end State

end Worker

end LogRelay
