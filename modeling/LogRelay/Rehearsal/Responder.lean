import LogRelay.Worker

/-!
Providers for rehearsals, whose calls end at once or never. One kind follows a script.
-/

namespace LogRelay.Rehearsal

/-- A provider whose calls end at once or never. The first argument says which worker calls. -/
structure Responder (ω : Type) where
  receive : (worker now : Nat) → ω → Option (Except ReceiveError (List Message)) × ω
  acknowledge : (worker now : Nat) → List String → ω → Option (Except ReceiveError Unit) × ω

namespace Responder

variable {ω : Type}

/-- The end of the call that begins with the effects, if one does and it ends. -/
def answer (r : Responder ω) (worker now : Nat) : List Worker.Effect → ω → Option Worker.Move × ω
  | [], s => (none, s)
  | .receive :: _, s =>
    let (outcome, s) := r.receive worker now s
    (outcome.map .received, s)
  | .acknowledge ids :: _, s =>
    let (outcome, s) := r.acknowledge worker now ids s
    (outcome.map .acknowledged, s)
  | _ :: rest, s => r.answer worker now rest s

end Responder

/-- How a call ends: with success, with a failure, or never. -/
inductive Scripted (α : Type) where
  | ends (outcome : Except ReceiveError α)
  | hangs

/-- Calls whose ends are known beforehand, for one subscription. -/
structure Script where
  /-- How the calls for messages end; further ones never do. -/
  receives : List (Scripted (List Message)) := []
  /-- How the calls to acknowledge end; further ones succeed. -/
  acknowledges : List (Scripted Unit) := []

namespace Scripted

def outcome? {α : Type} : Scripted α → Option (Except ReceiveError α)
  | ends outcome => some outcome
  | hangs => none

end Scripted

namespace Script

def receive (s : Script) : Option (Except ReceiveError (List Message)) × Script :=
  (s.receives.head?.bind Scripted.outcome?, { s with receives := s.receives.drop 1 })

def acknowledge (s : Script) : Option (Except ReceiveError Unit) × Script :=
  match s.acknowledges with
  | [] => (some (.ok ()), s)
  | c :: rest => (c.outcome?, { s with acknowledges := rest })

def responder : Responder (List Script) where
  receive i _ scripts :=
    match scripts[i]? with
    | some s => (s.receive.1, scripts.set i s.receive.2)
    | none => (none, scripts)
  acknowledge i _ _ scripts :=
    match scripts[i]? with
    | some s => (s.acknowledge.1, scripts.set i s.acknowledge.2)
    | none => (some (.ok ()), scripts)

end Script

end LogRelay.Rehearsal
