import LogRelay.Worker

/-!
What one move of a worker can do, said once: `Step` lists the moves with everything they change, and
a move is possible exactly if it is listed. Facts about workers are case analyses of `Step`, so no
other module opens the definition of a move.
-/

namespace LogRelay.Worker

/-- A move of a worker at a time, with the stream before and after it. -/
inductive Step (w : Worker) (cancelled : Bool) (now : Nat) (stream : Channel Record) :
    State → Move → State → Channel Record → List Effect → Prop
  | calledOff {state : State} {m : Move} (hs : state ≠ .ended) (hc : cancelled = true) :
      Step w cancelled now stream state m .ended stream []
  | started (hc : cancelled = false) :
      Step w cancelled now stream .starting .resume .receiving stream [.receive]
  | batch {batch : List Message} (hc : cancelled = false) (hb : batch ≠ []) :
      Step w cancelled now stream .receiving (.received (.ok batch)) (.acknowledging batch) stream
        [.acknowledge (batch.map (·.ackId))]
  | emptyBatch (hc : cancelled = false) :
      Step w cancelled now stream .receiving (.received (.ok []))
        (.pausing (now + emptyBatchPause)) stream []
  | receiveCancelled (hc : cancelled = false) :
      Step w cancelled now stream .receiving (.received (.error .cancelled)) .ended stream []
  | receiveFailed {cause : String} (hc : cancelled = false) :
      Step w cancelled now stream .receiving (.received (.error (.transport cause)))
        (.coolingDown (now + 1000 * w.retrySecs)) stream
        [.report (.receiveFailed w.subscription w.retrySecs (.transport cause))]
  | acknowledged {batch : List Message} (hc : cancelled = false) :
      Step w cancelled now stream (.acknowledging batch) (.acknowledged (.ok ()))
        (w.proceed false batch).1 stream (w.proceed false batch).2
  | acknowledgeCancelled {batch : List Message} (hc : cancelled = false) :
      Step w cancelled now stream (.acknowledging batch) (.acknowledged (.error .cancelled)) .ended
        stream []
  | acknowledgeFailed {batch : List Message} {cause : String} (hc : cancelled = false) :
      Step w cancelled now stream (.acknowledging batch)
        (.acknowledged (.error (.transport cause))) (.coolingDown (now + 1000 * w.retrySecs)) stream
        [.report (.receiveFailed w.subscription w.retrySecs (.transport cause))]
  | sent {record : Record} {rest : List Message} {stream' : Channel Record}
      (hc : cancelled = false) (hsent : stream.send record = .sent stream') :
      Step w cancelled now stream (.sending record rest) .resume (w.proceed false rest).1 stream'
        (.emit record :: (w.proceed false rest).2)
  | streamClosed {record : Record} {rest : List Message} (hc : cancelled = false)
      (hclosed : stream.send record = .closed) :
      Step w cancelled now stream (.sending record rest) .resume .ended stream []
  | pauseOver {wake : Nat} (hc : cancelled = false) (hw : wake ≤ now) :
      Step w cancelled now stream (.pausing wake) .resume .receiving stream [.receive]
  | rested {wake : Nat} (hc : cancelled = false) (hw : wake ≤ now) :
      Step w cancelled now stream (.coolingDown wake) .resume .receiving stream [.receive]

variable {w : Worker} {cancelled : Bool} {now : Nat} {stream stream' : Channel Record}
  {state state' : State} {m : Move} {effects : List Effect}

theorem begin_false : begin false = (.receiving, [.receive]) := rfl

/-- A worker that is called off ends by any move, whatever it waits for. -/
theorem move?_calledOff (hs : state ≠ .ended) :
    w.move? true now stream state m = some (.ended, stream, []) := by
  cases state with
  | ended => exact absurd rfl hs
  | coolingDown wake =>
    cases m with
    | resume => by_cases hw : wake ≤ now <;> simp [move?, begin, hw]
    | received outcome => rfl
    | acknowledged outcome => rfl
  | starting => rfl
  | receiving => rfl
  | acknowledging batch => rfl
  | sending record rest => rfl
  | pausing wake => rfl

theorem move?_of_step (h : Step w cancelled now stream state m state' stream' effects) :
    w.move? cancelled now stream state m = some (state', stream', effects) := by
  cases h with
  | calledOff hs hc => subst hc; exact move?_calledOff hs
  | batch hc hb =>
    obtain ⟨first, rest, rfl⟩ := List.exists_cons_of_ne_nil hb
    simp [move?, hc]
  | sent hc hsent => simp [move?, hc, hsent]
  | streamClosed hc hclosed => simp [move?, hc, hclosed]
  | pauseOver hc hw => simp [move?, hc, hw, begin_false]
  | rested hc hw => simp [move?, hc, hw, begin_false]
  | started hc => simp [move?, hc, begin_false]
  | emptyBatch hc => simp [move?, hc]
  | receiveCancelled hc => simp [move?, hc, fail, ReceiveError.isCancelled]
  | receiveFailed hc => simp [move?, hc, fail, ReceiveError.isCancelled]
  | acknowledged hc => simp [move?, hc]
  | acknowledgeCancelled hc => simp [move?, hc, fail, ReceiveError.isCancelled]
  | acknowledgeFailed hc => simp [move?, hc, fail, ReceiveError.isCancelled]

theorem step_of_move? (h : w.move? cancelled now stream state m = some (state', stream', effects)) :
    Step w cancelled now stream state m state' stream' effects := by
  have hended : state ≠ .ended := by rintro rfl; simp [move?] at h
  cases hc : cancelled with
  | true =>
    rw [hc, move?_calledOff hended] at h
    cases h
    exact .calledOff hended rfl
  | false =>
    subst hc
    -- only the pairs of a state and a move that fit each other survive
    cases state with
    | ended => exact absurd rfl hended
    | starting =>
      cases m <;> cases h
      exact .started rfl
    | receiving =>
      cases m with
      | received outcome =>
        match outcome with
        | .error .cancelled => cases h; exact .receiveCancelled rfl
        | .error (.transport cause) => cases h; exact .receiveFailed rfl
        | .ok [] => cases h; exact .emptyBatch rfl
        | .ok (first :: rest) => cases h; exact .batch rfl (List.cons_ne_nil _ _)
      | acknowledged outcome => cases h
      | resume => cases h
    | acknowledging batch =>
      cases m with
      | acknowledged outcome =>
        match outcome with
        | .error .cancelled => cases h; exact .acknowledgeCancelled rfl
        | .error (.transport cause) => cases h; exact .acknowledgeFailed rfl
        | .ok () => cases h; exact .acknowledged rfl
      | received outcome => cases h
      | resume => cases h
    | sending record rest =>
      cases m with
      | resume =>
        cases hsend : stream.send record with
        | sent after =>
          simp only [move?, hsend] at h
          cases h
          exact .sent rfl hsend
        | closed =>
          simp only [move?, hsend] at h
          cases h
          exact .streamClosed rfl hsend
        | full => simp [move?, hsend] at h
      | received outcome => cases h
      | acknowledged outcome => cases h
    | pausing wake =>
      cases m with
      | resume =>
        by_cases hw : wake ≤ now
        · simp only [move?, hw, begin_false] at h
          cases h
          exact .pauseOver rfl hw
        · simp [move?, hw] at h
      | received outcome => cases h
      | acknowledged outcome => cases h
    | coolingDown wake =>
      cases m with
      | resume =>
        by_cases hw : wake ≤ now
        · simp only [move?, hw, begin_false] at h
          cases h
          exact .rested rfl hw
        · simp [move?, hw] at h
      | received outcome => cases h
      | acknowledged outcome => cases h

theorem move?_eq_some_iff :
    w.move? cancelled now stream state m = some (state', stream', effects) ↔
      Step w cancelled now stream state m state' stream' effects :=
  ⟨step_of_move?, move?_of_step⟩

end LogRelay.Worker
