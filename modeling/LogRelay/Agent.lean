import LogRelay.Layers.Load
import LogRelay.Output
import LogRelay.Pipeline
import LogRelay.Postgres.Parser
import LogRelay.PubSub.Start

/-!
The program around the pipeline. It loads its settings, sets up the subscriptions, writes the lines
that come off the sink, and runs until it is told to stop. After a failed or a tested setup it stops
at once. Stopping calls off the pipeline; the lines on the sink are still written.
-/

namespace LogRelay.Agent

/-- The variable that says where the settings are. -/
def pathVariable : String := "DBFLEET_CONFIG"

/-- Where the settings are unless the variable says otherwise. -/
def defaultPath : String := "dbfleet.yaml"

/-- The variable that says where an emulator of the service is. -/
def emulatorVariable : String := "PUBSUB_EMULATOR_HOST"

def sinkCapacity : Nat := 1000

def abortCode : Nat := 101

/-- The events that are shown at a level. -/
def shown (level : String) (events : List Event) : List Event :=
  events.filter (·.happening.severity.isShownAt level)

/-- What the program does once its settings are known. -/
structure Plan where
  settings : Settings
  startup : Startup PubSub.Client

namespace Plan

def clients (p : Plan) : List PubSub.Client := p.startup.started.map (·.2.2)

def workers (p : Plan) : List Worker :=
  p.startup.started.map fun (server, _, client) => PubSub.Access.worker client p.settings server

def pipeline? (p : Plan) (now : Nat) : Option Pipeline :=
  Pipeline.make? p.settings Postgres.parseLine p.workers now { capacity := sinkCapacity }

/-- What is told about the setup as a whole. -/
def verdict (p : Plan) : Happening :=
  match p.startup.result with
  | .error cause => .setupFailed cause
  | .ok () =>
    if p.settings.testRun then .setupTested p.settings.servers.length
    else .receiving p.settings.servers.length

/-- Whether the program goes on until it is told to stop. -/
def goesOn (p : Plan) : Bool :=
  match p.verdict with
  | .receiving _ => true
  | _ => false

def code (p : Plan) : Nat :=
  match p.verdict with
  | .setupFailed _ => 1
  | _ => 0

def events (p : Plan) : List Event :=
  shown p.settings.logLevel (p.startup.warnings ++ [⟨p.verdict, none⟩])

end Plan

inductive Start where
  /-- It ends at once. -/
  | finished (events : List Event) (code : Nat)
  | planned (plan : Plan)

def start (files : Files) (env : Layers.Environment) : Start :=
  let path := (env.get? pathVariable).getD defaultPath
  match Layers.load files path env with
  | .error cause => .finished [⟨.settingsMissing path cause, none⟩] 1
  | .ok settings =>
    if settings.servers.isEmpty then
      .finished (shown settings.logLevel [⟨.nothingToDo, none⟩]) 0
    else
      let access := PubSub.Access.ofSettings settings (env.get? emulatorVariable)
      .planned {
        settings
        startup := Startup.run settings.testRun settings.servers [access.provider files] () }

/-! ### The running program -/

/-- The pipeline with the writer of its lines. -/
structure System where
  pipeline : Pipeline
  writer : Writer.State := .writing

/-- One step of the pipeline or of the writer. -/
inductive Action where
  | pipeline (a : Pipeline.Action)
  /-- The writer takes its turn; a write would fail for the reason given, if there is one. -/
  | write (failure : Option String)

/-- What others see of a step. -/
inductive Effect where
  | pipeline (e : Pipeline.Effect)
  | writer (e : Writer.Effect)
  deriving DecidableEq, Repr

namespace System

/-- Whether every task of the program has ended. -/
def isDone (s : System) : Bool := s.pipeline.liveTasks = 0 && s.writer = .ended

/-- Whether the step is one of the writer's, who alone reads the sink. -/
def isReaders : Pipeline.Action → Bool
  | .take => true
  | .closeSink => true
  | _ => false

/-- Carries out an action, if it is possible now. -/
def act? (s : System) : Action → Option (System × List Effect)
  | .pipeline a =>
    if isReaders a then none
    else
      (s.pipeline.act? a).map fun (pipeline, effects) =>
        ({ s with pipeline }, effects.map .pipeline)
  | .write failure =>
    (Writer.move? s.pipeline.transformer.isLive failure s.pipeline.sink s.writer).map
      fun (writer, sink, effects) =>
        ({ pipeline := { s.pipeline with sink }, writer }, effects.map .writer)

def run? (s : System) : List Action → Option (System × List Effect)
  | [] => some (s, [])
  | a :: rest => do
    let (s, effects) ← s.act? a
    let (s, more) ← s.run? rest
    return (s, effects ++ more)

def event? (s : System) : Effect → Option Event
  | .pipeline e => s.pipeline.event? e
  | .writer (.report h) => some ⟨h, none⟩
  | .writer (.write _) => none

end System

def Effect.line? : Effect → Option RoutedLine
  | .writer (.write line) => some line
  | _ => none

end LogRelay.Agent
