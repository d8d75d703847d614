import LogRelay.Proofs.Worker.Delivery

/-!
Workers that come by no record: whatever their calls bring, no batch that is confirmed holds one. Such
a worker never has a record in hand, so its moves do not depend on the stream and leave it alone.
-/

namespace LogRelay.Worker

/-- The record for which a worker waits to find room. -/
def State.inHand? : State → Option Record
  | sending record _ => some record
  | _ => none

/-- No confirmed batch holds a record. The calls of the worker may fail, hang, and bring empty batches
or messages that are passed over. -/
def Fruitless (w : Worker) (moves : List Move) : Prop :=
  ∀ batch ∈ confirmed moves, w.accepted batch = []

variable {w : Worker} {cancelled : Bool} {now : Nat} {stream stream' : Channel Record}
  {state state' : State} {m : Move} {moves : List Move} {effects : List Effect}

theorem confirmedFrom_isPrefix (held : Option (List Message)) (xs ys : List Move) :
    confirmedFrom held xs <+: confirmedFrom held (xs ++ ys) := by
  rw [confirmedFrom_append]
  exact List.prefix_append _ _

theorem Fruitless.of_append {xs ys : List Move} (h : Fruitless w (xs ++ ys)) : Fruitless w xs :=
  fun batch hb => h batch ((confirmedFrom_isPrefix none xs ys).subset hb)

theorem Path.inHand?_eq_none (h : Path w .starting moves effects state) (hf : Fruitless w moves) :
    state.inHand? = none := by
  obtain ⟨rest, heq, hrest⟩ := h.handling_eq none nofun
  have hnone : emitted (effects.filter Effect.isHandling ++ rest) = [] := by
    rw [heq, emitted_append, emitted_handling, accepted_flatten]
    exact List.append_eq_nil_iff.2 ⟨rfl, List.flatMap_eq_nil_iff.2 hf⟩
  cases state with
  | sending record more =>
    rw [hrest nofun, emitted_append] at hnone
    cases (List.append_eq_nil_iff.1 hnone).2
  | _ => rfl

/-- A worker with no record in hand moves in the same way whatever its stream is. -/
theorem Step.elsewhere (h : Step w cancelled now stream state m state' stream' effects)
    (hs : state.inHand? = none) (other : Channel Record) :
    stream' = stream ∧ Step w cancelled now other state m state' other effects := by
  cases h with
  | calledOff hlive hc => exact ⟨rfl, .calledOff hlive hc⟩
  | started hc => exact ⟨rfl, .started hc⟩
  | batch hc hb => exact ⟨rfl, .batch hc hb⟩
  | emptyBatch hc => exact ⟨rfl, .emptyBatch hc⟩
  | receiveCancelled hc => exact ⟨rfl, .receiveCancelled hc⟩
  | receiveFailed hc => exact ⟨rfl, .receiveFailed hc⟩
  | acknowledged hc => exact ⟨rfl, .acknowledged hc⟩
  | acknowledgeCancelled hc => exact ⟨rfl, .acknowledgeCancelled hc⟩
  | acknowledgeFailed hc => exact ⟨rfl, .acknowledgeFailed hc⟩
  | sent => cases hs
  | streamClosed => cases hs
  | pauseOver hc hw => exact ⟨rfl, .pauseOver hc hw⟩
  | rested hc hw => exact ⟨rfl, .rested hc hw⟩

end LogRelay.Worker
