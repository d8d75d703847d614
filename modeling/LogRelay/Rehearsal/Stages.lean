import LogRelay.Agent
import LogRelay.Rehearsal.Run
import LogRelay.Worker.System

/-!
The systems that can be rehearsed: one worker, the pipeline, and the whole program.
-/

namespace LogRelay.Rehearsal

/-- One worker, whose stream is read from outside. -/
def workerStage (w : Worker) : Stage Worker.System Worker.Action Worker.Effect where
  act? := Worker.System.act? w
  move _ m := .move m
  workerOf?
    | .move _ => some 0
    | _ => none
  workerEffect? := some
  others := []
  workers s := [s.state]
  now s := s.now
  tick := .tick

/-- The worker that an action of the pipeline moves. -/
def workerOf? : Pipeline.Action → Option Nat
  | .worker i _ => some i
  | _ => none

/-- The worker's effect that an effect on the pipeline is. -/
def workerEffect? : Pipeline.Effect → Option Worker.Effect
  | .worker _ e => some e
  | _ => none

/-- The pipeline, whose sink is read from outside. -/
def pipelineStage : Stage Pipeline Pipeline.Action Pipeline.Effect where
  act? := Pipeline.act?
  move := .worker
  workerOf? := workerOf?
  workerEffect? := workerEffect?
  others := [.transformer]
  workers p := p.subscriptions.map (·.state)
  now p := p.now
  tick := .tick

/-- The whole program. Writing fails for the reason given, if there is one. -/
def agentStage (failure : Option String) : Stage Agent.System Agent.Action Agent.Effect where
  act? := Agent.System.act?
  move i m := .pipeline (.worker i m)
  workerOf?
    | .pipeline a => workerOf? a
    | .write _ => none
  workerEffect?
    | .pipeline e => workerEffect? e
    | .writer _ => none
  others := [.write failure, .pipeline .transformer]
  workers s := s.pipeline.subscriptions.map (·.state)
  now s := s.pipeline.now
  tick n := .pipeline (.tick n)

end LogRelay.Rehearsal
