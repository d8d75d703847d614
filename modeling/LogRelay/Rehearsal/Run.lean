import LogRelay.Rehearsal.Responder

/-!
Rehearsals of a system with workers in it. What is not a worker goes first, and the workers take their
turns in their order. A call that a step begins ends at once or never.
-/

namespace LogRelay.Rehearsal

/-- A system with workers in it: its states `S`, the actions `A` on them, and the effects `E`. -/
structure Stage (S A E : Type) where
  act? : S → A → Option (S × List E)
  /-- The move of a worker as an action. -/
  move : (worker : Nat) → Worker.Move → A
  /-- The worker that an action moves. -/
  workerOf? : A → Option Nat
  /-- The worker's effect that an effect is. -/
  workerEffect? : E → Option Worker.Effect
  /-- What else the system may do by itself. -/
  others : List A
  /-- Where the workers are. -/
  workers : S → List Worker.State
  now : S → Nat
  /-- The action that lets time pass. -/
  tick : (milliseconds : Nat) → A

structure Run (S E ω : Type) where
  state : S
  /-- The ends of the calls under way by worker, where they end. -/
  pending : List (Option Worker.Move)
  surroundings : ω
  /-- What has been seen, in its order. -/
  effects : List E := []

namespace Stage

variable {S A E ω : Type}

def start (stage : Stage S A E) (state : S) (surroundings : ω) : Run S E ω where
  state := state
  pending := (stage.workers state).map fun _ => none
  surroundings := surroundings

/-- Carries out an action, and begins the call that it leads to. -/
def perform? (stage : Stage S A E) (responder : Responder ω) (r : Run S E ω) (a : A) :
    Option (Run S E ω) :=
  (stage.act? r.state a).map fun (state, effects) =>
    let (pending, surroundings) :=
      match stage.workerOf? a with
      | some i =>
        let (move, s) := responder.answer i (stage.now state)
          (effects.filterMap stage.workerEffect?) r.surroundings
        (r.pending.set i move, s)
      | none => (r.pending, r.surroundings)
    { state, pending, surroundings, effects := r.effects ++ effects }

def perform (stage : Stage S A E) (responder : Responder ω) (r : Run S E ω) (a : A) : Run S E ω :=
  (stage.perform? responder r a).getD r

/-- The actions that may be tried next: a call that ends goes before a look around. -/
def candidates (stage : Stage S A E) (r : Run S E ω) : List A :=
  stage.others ++ r.pending.zipIdx.flatMap fun (pending, i) =>
    (pending.map (stage.move i)).toList ++ [stage.move i .resume]

/-- The next step that the system takes by itself. -/
def next? (stage : Stage S A E) (responder : Responder ω) (r : Run S E ω) : Option (Run S E ω) :=
  (stage.candidates r).findSome? (stage.perform? responder r)

/-- Goes on until everything waits, for so many steps at most. -/
def settle (stage : Stage S A E) (responder : Responder ω) : (limit : Nat) → Run S E ω → Run S E ω
  | 0, r => r
  | limit + 1, r =>
    match stage.next? responder r with
    | some r => settle stage responder limit r
    | none => r

/-- How long it is until the next resting worker goes on. -/
def untilWake? (stage : Stage S A E) (r : Run S E ω) : Option Nat :=
  ((stage.workers r.state).filterMap fun s => s.wake?.map (· - stage.now r.state)).min?

/-- Goes on, and lets time pass while everything waits, until enough has happened or nothing more
can. -/
def runUntil (stage : Stage S A E) (responder : Responder ω) (enough : Run S E ω → Bool)
    (limit : Nat) : (waits : Nat) → Run S E ω → Run S E ω
  | 0, r => stage.settle responder limit r
  | waits + 1, r =>
    let r := stage.settle responder limit r
    if enough r then r
    else
      match stage.untilWake? r with
      | none => r
      | some n => runUntil stage responder enough limit waits (stage.perform responder r (stage.tick n))

end Stage

end LogRelay.Rehearsal
