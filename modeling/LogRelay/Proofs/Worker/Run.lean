import LogRelay.Proofs.Runs
import LogRelay.Proofs.Worker.Path
import LogRelay.Worker.System

/-!
Runs of a worker by itself: between its moves time passes, its stream is read or abandoned, and it
may be called off. A run is a path of the worker, and the account of its stream balances throughout.
-/

namespace LogRelay.Worker

/-- The worker's move, if the action is one. -/
def Action.ownMove? : Action → Option Move
  | .move m => some m
  | _ => none

/-- The worker's moves among what happens. -/
def moves (actions : List Action) : List Move := actions.filterMap Action.ownMove?

namespace System

/-- A worker before its first move, with an empty stream. -/
def start (capacity now : Nat) : System := { stream := { capacity }, now }

/-- The record that an action takes off the stream. -/
def takes (s : System) : Action → List Record
  | .take => (s.stream.take?.map (·.1)).toList
  | _ => []

/-- The records that the reader of the stream takes. -/
def taken (w : Worker) (s : System) (actions : List Action) : List Record :=
  gather (act? w) takes s actions

variable {w : Worker} {s s' : System} {a : Action} {m : Move} {actions : List Action}
  {effects : List Effect}

theorem act?_move_iff :
    s.act? w (.move m) = some (s', effects) ↔
      Step w s.cancelled s.now s.stream s.state m s'.state s'.stream effects ∧
        s'.now = s.now ∧ s'.cancelled = s.cancelled := by
  simp only [act?, Option.map_eq_some_iff, Prod.exists, move?_eq_some_iff, Prod.mk.injEq]
  constructor
  · rintro ⟨state, stream, es, h, rfl, rfl⟩
    exact ⟨h, rfl, rfl⟩
  · rintro ⟨h, hnow, hc⟩
    exact ⟨_, _, _, h, by rw [← hnow, ← hc], rfl⟩

/-- An action is a move of the worker, or it neither moves the worker nor is seen. -/
theorem act?_cases (h : s.act? w a = some (s', effects)) :
    (∃ m, a = .move m ∧ Step w s.cancelled s.now s.stream s.state m s'.state s'.stream effects) ∨
      (a.ownMove? = none ∧ s'.state = s.state ∧ effects = []) := by
  cases a with
  | move m => exact .inl ⟨m, rfl, (act?_move_iff.1 h).1⟩
  | take =>
    obtain ⟨_, -, hs⟩ := Option.map_eq_some_iff.1 h
    cases hs
    exact .inr ⟨rfl, rfl, rfl⟩
  | close => cases h; exact .inr ⟨rfl, rfl, rfl⟩
  | cancel => cases h; exact .inr ⟨rfl, rfl, rfl⟩
  | tick n => cases h; exact .inr ⟨rfl, rfl, rfl⟩

theorem run?_eq_some_iff :
    s.run? w actions = some (s', effects) ↔ Runs (act? w) s actions effects s' :=
  Runs.of_recursion (fun _ => rfl) fun _ _ _ => rfl

theorem path_of_runs (h : Runs (act? w) s actions effects s') :
    Path w s.state (moves actions) effects s'.state := by
  induction h with
  | nil => exact .rest _
  | @cons s mid s' a actions first more ha _ ih =>
    rcases act?_cases ha with ⟨m, rfl, hstep⟩ | ⟨hm, hstate, rfl⟩
    · exact .move hstep ih
    · simpa [moves, List.filterMap_cons, hm, hstate] using ih

/-- What was put on the stream and what was taken from it keep adding up. -/
theorem accounts_of_runs {sent read : List Record} (h : Runs (act? w) s actions effects s')
    (hs : s.stream.Accounts sent read) :
    s'.stream.Accounts (sent ++ emitted effects) (read ++ s.taken w actions) := by
  induction h generalizing sent read with
  | nil => exact hs.unchanged
  | @cons s mid s' a actions first more ha _ ih =>
    rw [taken, gather_cons ha, emitted_append, ← List.append_assoc, ← List.append_assoc]
    refine ih ?_
    cases a with
    | move m => exact (List.append_nil read).symm ▸ (act?_move_iff.1 ha).1.stream_accounts hs
    | take =>
      obtain ⟨⟨record, stream⟩, htake, hmid⟩ := Option.map_eq_some_iff.1 ha
      cases hmid
      simpa [emitted, takes, htake] using hs.take htake
    | close => cases ha; exact hs.close.unchanged
    | cancel => cases ha; exact hs.unchanged
    | tick n => cases ha; exact hs.unchanged

end System

/-! ### A small worker -/

/-- Takes messages of one byte, passes over empty ones and cannot decode others. -/
def byteWorker : Worker where
  subscription := "bytes"
  retrySecs := 60
  decode
    | [] => .ok none
    | [b] => .ok (some ⟨"p", "i", none, String.singleton (Char.ofNat b.toNat)⟩)
    | _ => .error (.base64 .invalidPadding)

end LogRelay.Worker
