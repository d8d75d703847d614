import LogRelay.Agent
import LogRelay.Http.Wire
import LogRelay.PubSub.Session
import Std.Async.DNS
import Std.Async.Signal
import Std.Async.TCP
import Std.Time.DateTime.Timestamp

/-!
The program itself: it reads the files and the environment, carries out the requests of the clients,
and moves the pipeline as calls end and time passes. Requests go over plain connections; an address
that needs a secure one, or a signed assertion, counts as a server that cannot be reached.
-/

namespace LogRelay.Main

open Std.Async Std.Net

def currentTime : IO Nat := do
  return (← Std.Time.Timestamp.now).toMillisecondsSinceUnixEpoch.val.toNat

def addresses (url : Http.Url) (port : UInt16) : Async (List SocketAddress) := do
  let found ← DNS.getAddrInfo url.host.render (toString port)
  return found.toList.map fun
    | .v4 a => .v4 ⟨a, port⟩
    | .v6 a => .v6 ⟨a, port⟩

/-- All the bytes that a connection brings; those that have come are kept in `bytes`. -/
partial def receiveAll (client : TCP.Socket.Client) (bytes : IO.Ref ByteArray) : Async Unit := do
  match ← client.recv? 65536 with
  | some more =>
    bytes.modify (· ++ more)
    receiveAll client bytes
  | none => return

/-- Sends a request over a new connection. -/
def transfer (request : Http.Request) (bytes : IO.Ref ByteArray) : Async Http.Outcome := do
  let port := UInt16.ofNat (request.url.port.getD 80)
  match ← addresses request.url port with
  | [] => return .lost
  | address :: _ =>
    let client ← TCP.Socket.Client.mk
    client.connect address
    client.send request.bytes.toByteArray
    receiveAll client bytes
    return .ofBytes (← bytes.get).toList

/-- Waits for an outcome until a time, or until the program is stopped. -/
partial def await (stopped : IO.Ref Bool) (limit : Option Nat) (bytes : IO.Ref ByteArray)
    (task : AsyncTask Http.Outcome) : IO Http.Outcome := do
  if ← IO.hasFinished task then
    match task.get with
    | .ok outcome => return outcome
    | .error _ => return .ofPart (← bytes.get).toList .lost
  let now ← IO.monoMsNow
  if limit.any (· ≤ now) || (← stopped.get) then
    return .ofPart (← bytes.get).toList .timedOut
  IO.sleep 2
  await stopped limit bytes task

def exchange (stopped : IO.Ref Bool) (request : Http.Request) : IO Http.Outcome := do
  match request.url.secure, request.body with
  | true, _ | _, .assertion .. => return .lost
  | _, _ =>
    let started ← IO.monoMsNow
    let bytes ← IO.mkRef ByteArray.empty
    let task ← (transfer request bytes).toIO
    await stopped (request.limitSecs.map (started + 1000 * ·)) bytes task

def perform {α : Type} (stopped : IO.Ref Bool) : Http.Call α → IO α
  | .done a => pure a
  | .send request next => do
    let outcome ← exchange stopped request
    perform stopped (next ⟨outcome, ← currentTime⟩)

def call? (stopped : IO.Ref Bool) (client : PubSub.Client) (kept : Option PubSub.Token)
    (now : Nat) (e : Worker.Effect) : Option (IO (Worker.Move × Option PubSub.Token)) :=
  (PubSub.Operation.ofEffect? e).map fun operation =>
    perform stopped (client.perform Http.Url.parse kept now operation)

abbrev Pending := Task (Except IO.Error (Worker.Move × Option PubSub.Token))

structure Running where
  plan : Agent.Plan
  system : Agent.System
  /-- The token that each client keeps. -/
  kept : List (Option PubSub.Token)
  /-- The call of each worker. -/
  calls : List (Option Pending)
  /-- Whether a signal has come; open calls are given up then. -/
  stopped : IO.Ref Bool

def showEvents (level : String) (events : List Event) : IO Unit := do
  let err ← IO.getStderr
  for e in Agent.shown level events do
    err.putStrLn (e.render level)
  err.flush

/-- The text shown for an error of writing. -/
def writeError : IO.Error → String
  | .resourceVanished 32 _ => "Broken pipe (os error 32)"
  | e => toString e

def writeLine (line : RoutedLine) : IO (Option String) := do
  try
    let out ← IO.getStdout
    out.write line.bytes.toByteArray
    out.flush
    return none
  catch e => return some (writeError e)

namespace Running

/-- Carries out what others see of a step. -/
def follow (r : Running) (effects : List Agent.Effect) : IO Running := do
  showEvents r.plan.settings.logLevel (effects.filterMap r.system.event?)
  let mut calls := r.calls
  for e in effects do
    if let .pipeline (.worker i e) := e then
      if let some client := r.plan.clients[i]? then
        if let some call := call? r.stopped client ((r.kept[i]?).getD none) r.system.pipeline.now e then
          calls := calls.set i (some (← IO.asTask call .dedicated))
  return { r with calls }

def act? (r : Running) (a : Agent.Action) : IO (Option Running) := do
  match r.system.act? a with
  | none => return none
  | some (system, effects) => return some (← Running.follow { r with system } effects)

def act (r : Running) (a : Agent.Action) : IO Running := do
  return (← r.act? a).getD r

/-- Hands the end of a call to its task. -/
def endCall (r : Running) (i : Nat) : IO Running := do
  match (r.calls[i]?).getD none with
  | none => return r
  | some task =>
    if ← IO.hasFinished task then
      let r := { r with calls := r.calls.set i none }
      match task.get with
      | .ok (move, kept) =>
        Running.act { r with kept := r.kept.set i kept } (.pipeline (.worker i move))
      | .error _ => return r
    else return r

/-- Writes the next line, if there is one. -/
def write? (r : Running) : IO (Option Running) := do
  match r.system.writer, r.system.pipeline.sink.items with
  | .writing, line :: _ => r.act? (.write (← writeLine line))
  | _, _ => r.act? (.write none)

partial def settle (r : Running) : IO Running := do
  if let some r ← r.write? then return ← settle r
  if let some r ← r.act? (.pipeline .transformer) then return ← settle r
  for i in List.range r.calls.length do
    if let some r ← r.act? (.pipeline (.worker i .resume)) then return ← settle r
  return r

/-- Goes on until everything has ended. -/
partial def loop (r : Running) (signals : List (StopSignal × AsyncTask Int)) : IO Unit := do
  let now ← currentTime
  let mut r ← r.act (.pipeline (.tick (now - r.system.pipeline.now)))
  for (signal, task) in signals do
    if !(← r.stopped.get) && (← IO.hasFinished task) then
      r.stopped.set true
      showEvents r.plan.settings.logLevel [⟨.stopping signal, none⟩]
      r ← r.act (.pipeline .cancel)
  for i in List.range r.calls.length do
    r ← r.endCall i
  r ← r.settle
  unless r.system.isDone && (← r.stopped.get) do
    IO.sleep 5
    loop r signals

end Running

/-- Why a file could not be read. -/
def fileError : IO.Error → FileError
  | .noFileOrDirectory .. => .notFound
  | .permissionDenied .. => .denied
  | .inappropriateType _ code _ => if code = 21 then .isDirectory else .notDirectory
  | e => .system (toString e) 0

/-- The answers to the reading of some paths. -/
abbrev Answers := List (String × Except FileError (List UInt8))

def readFile (path : String) : IO (String × Except FileError (List UInt8)) := do
  try return (path, .ok (← IO.FS.readBinFile path).toList)
  catch e => return (path, .error (fileError e))

/-- The files by the answers of the system; a path that was not read has no file. -/
def filesOf (directory : Option (List String)) (answers : Answers) : Files :=
  let read (path : String) := (answers.lookup path).getD (.error .notFound)
  { directory, read
    isFile path := match read path with
      | .ok _ | .error (.system _ 13) => true
      | .error _ => false }

/-- The directory that the program runs in. -/
def currentDirectory : IO (Option (List String)) := do
  try return some (Files.names (toString (← IO.currentDir)))
  catch _ => return none

/-- The files that the settings may name: their own file, and those of credentials. -/
def readFiles (env : Layers.Environment) : IO Files := do
  let path := (env.get? Agent.pathVariable).getD Agent.defaultPath
  let directory ← currentDirectory
  let own ← (Files.candidates directory path).mapM readFile
  match Layers.load (filesOf directory own) path env with
  | .error _ => return filesOf directory own
  | .ok settings =>
    let named := settings.servers.filterMap fun s => Server.trimmed? s.credentialsFile
    return filesOf directory (own ++ (← named.eraseDups.mapM readFile))

/-- The variables of the environment, which end with a zero byte each. -/
def readVariables (bytes : List UInt8) : Layers.Environment :=
  ((Text.Utf8.decodeLossy bytes).toList.splitOn '\x00').filterMap fun entry =>
    let name := entry.takeWhile (· ≠ '=')
    if name.length < entry.length then
      some (String.ofList name, String.ofList (entry.drop (name.length + 1)))
    else none

/-- The environment of the program. -/
def readEnvironment : IO Layers.Environment := do
  try return readVariables (← IO.FS.readBinFile "/proc/self/environ").toList
  catch _ => return []

/-- Runs the program; the answer is its exit code. -/
def run : IO Nat := do
  let env ← readEnvironment
  match Agent.start (← readFiles env) env with
  | .finished events code =>
    showEvents "info" events
    return code
  | .planned plan =>
    match plan.pipeline? (← currentTime) with
    | none => return Agent.abortCode
    | some pipeline =>
      showEvents plan.settings.logLevel plan.events
      if plan.goesOn then
        let terminate ← (← Signal.Waiter.mk .sigterm false).wait
        let interrupt ← (← Signal.Waiter.mk .sigint false).wait
        Running.loop {
          plan, system := { pipeline }
          kept := plan.clients.map fun _ => none
          calls := plan.clients.map fun _ => none
          stopped := ← IO.mkRef false }
          [(.terminate, terminate), (.interrupt, interrupt)]
      return plan.code

end LogRelay.Main

def main : IO UInt32 := do
  return UInt32.ofNat (← LogRelay.Main.run)
