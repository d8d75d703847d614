import LogRelay.Proofs.Channel
import LogRelay.Proofs.Worker.History

/-!
Paths of a worker: its moves one after the other, each at a time and with a stream that its
surroundings may have changed in any way since the last. What holds of every path holds of a worker
by itself and of a worker among others.
-/

namespace LogRelay.Worker

variable {w : Worker} {cancelled : Bool} {now : Nat} {stream stream' : Channel Record}
  {state state' state'' : State} {m : Move} {moves : List Move} {effects more : List Effect}

/-! ### One move -/

/-- The messages whose acknowledgement comes through with a move. -/
def settled : State → Move → List Message
  | .acknowledging batch, .acknowledged (.ok ()) => batch
  | _, _ => []

/-- Before and after a move that does not end the worker, what is done and what is due add up. -/
theorem Step.handling_eq (h : Step w cancelled now stream state m state' stream' effects)
    (hlive : state' ≠ .ended) :
    effects.filter Effect.isHandling ++ w.due state' =
      w.due state ++ w.handling (settled state m) := by
  cases h with
  | calledOff => exact absurd rfl hlive
  | receiveCancelled => exact absurd rfl hlive
  | acknowledgeCancelled => exact absurd rfl hlive
  | streamClosed => exact absurd rfl hlive
  | @acknowledged batch => exact handling_eq_proceed batch
  | @sent record rest _ _ _ =>
    change .emit record :: (_ ++ w.due (w.proceed false rest).1) = .emit record :: (_ ++ [])
    rw [handling_eq_proceed rest, List.append_nil]
  | started => rfl
  | batch => rfl
  | emptyBatch => rfl
  | receiveFailed => rfl
  | acknowledgeFailed => rfl
  | pauseOver => rfl
  | rested => rfl

/-- A move that ends the worker is not seen by anyone. -/
theorem Step.of_ended (h : Step w cancelled now stream state m .ended stream' effects) :
    effects = [] ∧ stream' = stream := by
  generalize hs : State.ended = state' at h
  cases h with
  | acknowledged => exact absurd hs.symm (proceed_ne_ended _)
  | sent => exact absurd hs.symm (proceed_ne_ended _)
  | calledOff => exact ⟨rfl, rfl⟩
  | receiveCancelled => exact ⟨rfl, rfl⟩
  | acknowledgeCancelled => exact ⟨rfl, rfl⟩
  | streamClosed => exact ⟨rfl, rfl⟩
  | _ => cases hs

theorem not_step_ended : ¬ Step w cancelled now stream .ended m state' stream' effects := by
  intro h
  cases h with
  | calledOff hs => exact hs rfl

/-- A batch that waits for its acknowledgement is the one that the move brought. -/
theorem Step.of_acknowledging {batch : List Message}
    (h : Step w cancelled now stream state m (.acknowledging batch) stream' effects) :
    m = .received (.ok batch) := by
  generalize hs : State.acknowledging batch = state' at h
  cases h with
  | batch => cases hs; rfl
  | acknowledged => exact absurd hs.symm (proceed_ne_acknowledging _ _)
  | sent => exact absurd hs.symm (proceed_ne_acknowledging _ _)
  | _ => cases hs

/-- So it is the batch that is held after the move. -/
theorem Step.heldAfter_eq {batch : List Message} (held : Option (List Message))
    (h : Step w cancelled now stream state m (.acknowledging batch) stream' effects) :
    heldAfter held m = some batch := by
  rw [h.of_acknowledging]
  rfl

/-- After a move that calls for messages the worker waits for them. -/
theorem Step.of_receive (h : Step w cancelled now stream state m state' stream' effects)
    (hr : .receive ∈ effects) : state' = .receiving := by
  cases h with
  | started => rfl
  | pauseOver => rfl
  | rested => rfl
  | acknowledged => exact (proceed_of_mem hr rfl).2
  | sent => exact (proceed_of_mem ((List.mem_cons.1 hr).resolve_left nofun) rfl).2
  | _ => simp at hr

theorem proceed_of_report {messages : List Message} {told : Happening}
    (hr : .report told ∈ (w.proceed false messages).2) : ∃ cause, told = .undecodable cause := by
  cases told with
  | undecodable cause => exact ⟨cause, rfl⟩
  | _ => exact absurd (proceed_of_mem hr rfl).1 nofun

/-- What is told of a move is that the worker rests after a failure, or that a message is passed
over. -/
theorem Step.of_report {told : Happening}
    (h : Step w cancelled now stream state m state' stream' effects) (hr : .report told ∈ effects) :
    (∃ cause, told = .receiveFailed w.subscription w.retrySecs (.transport cause)) ∨
      ∃ cause, told = .undecodable cause := by
  cases h with
  | @receiveFailed cause =>
    cases List.mem_singleton.1 hr
    exact .inl ⟨cause, rfl⟩
  | @acknowledgeFailed _ cause =>
    cases List.mem_singleton.1 hr
    exact .inl ⟨cause, rfl⟩
  | acknowledged => exact .inr (proceed_of_report hr)
  | sent => exact .inr (proceed_of_report ((List.mem_cons.1 hr).resolve_left nofun))
  | _ => simp at hr

/-- A call to acknowledge is the only thing that is seen of its move: the move that brought the
batch. -/
theorem Step.of_acknowledge {ids : List String}
    (h : Step w cancelled now stream state m state' stream' effects)
    (ha : .acknowledge ids ∈ effects) :
    ∃ batch, m = .received (.ok batch) ∧ batch ≠ [] ∧ ids = batch.map (·.ackId) ∧
      effects = [.acknowledge ids] := by
  cases h with
  | @batch batch _ hb =>
    cases List.mem_singleton.1 ha
    exact ⟨batch, rfl, hb, rfl, rfl⟩
  | acknowledged => exact absurd (proceed_of_mem ha rfl).1 nofun
  | sent => exact absurd (proceed_of_mem ((List.mem_cons.1 ha).resolve_left nofun) rfl).1 nofun
  | _ => simp at ha

/-- A batch that comes is acknowledged at once, unless the worker ends. -/
theorem Step.acknowledgements_eq (h : Step w cancelled now stream state m state' stream' effects)
    (hlive : state' ≠ .ended) :
    acknowledgements effects = (batches [m]).map (·.map (·.ackId)) := by
  cases h with
  | calledOff => exact absurd rfl hlive
  | batch hc hb =>
    obtain ⟨first, rest, rfl⟩ := List.exists_cons_of_ne_nil hb
    rfl
  | acknowledged => exact acknowledgements_proceed _
  | sent => exact acknowledgements_proceed _
  | _ => rfl

/-- The account of the stream balances after a move. -/
theorem Step.stream_accounts {sent read : List Record}
    (h : Step w cancelled now stream state m state' stream' effects)
    (hs : stream.Accounts sent read) : stream'.Accounts (sent ++ emitted effects) read := by
  cases h with
  | acknowledged =>
    rw [emitted_proceed, List.append_nil]
    exact hs
  | @sent record rest _ _ hsent =>
    change stream'.Accounts (sent ++ record :: emitted _) read
    rw [emitted_proceed]
    exact hs.send hsent
  | _ => exact (List.append_nil sent).symm ▸ hs

/-! ### Paths -/

/-- Moves of a worker that follow one another. -/
inductive Path (w : Worker) : State → List Move → List Effect → State → Prop
  | rest (state : State) : Path w state [] [] state
  | move {cancelled : Bool} {now : Nat} {stream stream' : Channel Record}
      {state state' state'' : State} {m : Move} {moves : List Move} {effects more : List Effect}
      (h : Step w cancelled now stream state m state' stream' effects)
      (hp : Path w state' moves more state'') :
      Path w state (m :: moves) (effects ++ more) state''

theorem Path.of_report {told : Happening} (h : Path w state moves effects state')
    (hr : .report told ∈ effects) :
    (∃ cause, told = .receiveFailed w.subscription w.retrySecs (.transport cause)) ∨
      ∃ cause, told = .undecodable cause := by
  induction h with
  | rest => cases hr
  | move h _ ih =>
    rcases List.mem_append.1 hr with hr | hr
    · exact h.of_report hr
    · exact ih hr

theorem Path.of_ended (h : Path w .ended moves effects state') :
    moves = [] ∧ effects = [] ∧ state' = .ended := by
  cases h with
  | rest => exact ⟨rfl, rfl, rfl⟩
  | move h => exact absurd h not_step_ended

/-- With the batch that waits for its acknowledgement remembered, a move that does not end the worker
confirms what it settles. -/
theorem Step.confirmedFrom_eq {held : Option (List Message)}
    (h : Step w cancelled now stream state m state' stream' effects) (hlive : state' ≠ .ended)
    (hheld : ∀ batch, state = .acknowledging batch → held = some batch) (moves : List Move) :
    (confirmedFrom held (m :: moves)).flatten =
      settled state m ++ (confirmedFrom (heldAfter held m) moves).flatten := by
  cases h with
  | calledOff => exact absurd rfl hlive
  | receiveCancelled => exact absurd rfl hlive
  | acknowledgeCancelled => exact absurd rfl hlive
  | streamClosed => exact absurd rfl hlive
  | acknowledged => rw [hheld _ rfl]; rfl
  | _ => cases held <;> rfl

/-- Along a path, what is done is a first part of what was due and of the handling of the batches
that were confirmed; until the worker ends, the other part is what is due. -/
theorem Path.handling_eq (h : Path w state moves effects state') (held : Option (List Message))
    (hheld : ∀ batch, state = .acknowledging batch → held = some batch) :
    ∃ rest, effects.filter Effect.isHandling ++ rest =
        w.due state ++ w.handling (confirmedFrom held moves).flatten ∧
      (state' ≠ .ended → rest = w.due state') := by
  induction h generalizing held with
  | rest state => exact ⟨w.due state, by simp [confirmedFrom, handling], fun _ => rfl⟩
  | @move _ _ _ _ state mid state' m moves effects more h hp ih =>
    by_cases hend : mid = .ended
    · subst hend
      obtain ⟨rfl, rfl, rfl⟩ := hp.of_ended
      obtain ⟨rfl, -⟩ := h.of_ended
      exact ⟨_, rfl, fun hlive => absurd rfl hlive⟩
    · have hmid : ∀ batch, mid = .acknowledging batch → heldAfter held m = some batch := by
        rintro batch rfl
        exact h.heldAfter_eq held
      obtain ⟨rest, heq, hrest⟩ := ih _ hmid
      refine ⟨rest, ?_, hrest⟩
      calc (effects ++ more).filter Effect.isHandling ++ rest
          = effects.filter Effect.isHandling ++ (w.due mid ++
              w.handling (confirmedFrom (heldAfter held m) moves).flatten) := by
            rw [List.filter_append, List.append_assoc, heq]
        _ = w.due state ++ w.handling (settled state m) ++
              w.handling (confirmedFrom (heldAfter held m) moves).flatten := by
            rw [← List.append_assoc, h.handling_eq hend]
        _ = w.due state ++ w.handling (confirmedFrom held (m :: moves)).flatten := by
            rw [h.confirmedFrom_eq hend hheld, handling_append, List.append_assoc]

/-- The calls to acknowledge carry the batches that came, one call for each batch. -/
theorem Path.acknowledgements_eq (h : Path w state moves effects state') :
    ∃ rest, acknowledgements effects ++ rest = (batches moves).map (·.map (·.ackId)) ∧
      (state' ≠ .ended → rest = []) := by
  induction h with
  | rest => exact ⟨[], rfl, fun _ => rfl⟩
  | @move _ _ _ _ state mid state' m moves effects more h hp ih =>
    by_cases hend : mid = .ended
    · subst hend
      obtain ⟨rfl, rfl, rfl⟩ := hp.of_ended
      obtain ⟨rfl, -⟩ := h.of_ended
      exact ⟨_, rfl, fun hlive => absurd rfl hlive⟩
    · obtain ⟨rest, heq, hrest⟩ := ih
      refine ⟨rest, ?_, hrest⟩
      have hcons : batches (m :: moves) = batches [m] ++ batches moves :=
        List.filterMap_append (l := [m])
      rw [hcons, List.map_append, ← h.acknowledgements_eq hend, ← heq, ← List.append_assoc]
      exact congrArg (· ++ rest) List.filterMap_append

end LogRelay.Worker
