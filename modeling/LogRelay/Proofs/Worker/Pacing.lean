import LogRelay.Proofs.Worker.Ending
import LogRelay.Proofs.Worker.Timeline
import Mathlib.Data.List.Chain

/-!
How a worker paces its calls for messages. What happens from one call to the next is one of four
rounds: the call fails, it brings nothing, its batch cannot be acknowledged, or its batch is put on
the stream. The worker rests after the first three, and not at all after the last.
-/

namespace LogRelay.Worker

/-- What is told about a call that failed. -/
def failure (w : Worker) (cause : String) : Sight :=
  .seen (.report (.receiveFailed w.subscription w.retrySecs (.transport cause)))

/-- From a time on, messages are gone through up to those that are left, at the time of the last
record that was put on the stream. Going through messages takes no time; waiting for room does. -/
inductive Handled (w : Worker) : Nat → List Message → Timeline → List Message → Nat → Prop
  | rest (t : Nat) (messages : List Message) : Handled w t messages [] messages t
  | passedOver {t t' : Nat} {m : Message} {messages left : List Message} {l : Timeline}
      (hm : w.decode m.data = .ok none) (h : Handled w t messages l left t') :
      Handled w t (m :: messages) l left t'
  | undecodable {t t' : Nat} {m : Message} {messages left : List Message} {l : Timeline}
      {cause : Envelope.Error} (hm : w.decode m.data = .error cause)
      (h : Handled w t messages l left t') :
      Handled w t (m :: messages) ((t, .seen (.report (.undecodable cause))) :: l) left t'
  | sent {t u t' : Nat} {m : Message} {messages left : List Message} {l : Timeline}
      {record : Record} (hm : w.decode m.data = .ok (some record)) (hu : t ≤ u)
      (h : Handled w u messages l left t') :
      Handled w t (m :: messages) ((u, .moved .resume) :: (u, .seen (.emit record)) :: l) left t'

/-- What happens from a call for messages at `t` up to the next one at `t'`. -/
inductive Round (w : Worker) (t : Nat) : Timeline → Nat → Prop
  | receiveFailed {u t' : Nat} {cause : String} (hu : t ≤ u) (hrest : u + 1000 * w.retrySecs ≤ t') :
      Round w t [(u, .moved (.received (.error (.transport cause)))), (u, w.failure cause),
        (t', .moved .resume)] t'
  | empty {u t' : Nat} (hu : t ≤ u) (hrest : u + emptyBatchPause ≤ t') :
      Round w t [(u, .moved (.received (.ok []))), (t', .moved .resume)] t'
  | acknowledgeFailed {u v t' : Nat} {batch : List Message} {cause : String} (hu : t ≤ u)
      (hb : batch ≠ []) (hv : u ≤ v) (hrest : v + 1000 * w.retrySecs ≤ t') :
      Round w t [(u, .moved (.received (.ok batch))),
        (u, .seen (.acknowledge (batch.map (·.ackId)))),
        (v, .moved (.acknowledged (.error (.transport cause)))), (v, w.failure cause),
        (t', .moved .resume)] t'
  | delivered {u v t' : Nat} {batch : List Message} {l : Timeline} (hu : t ≤ u) (hb : batch ≠ [])
      (hv : u ≤ v) (h : Handled w v batch l [] t') :
      Round w t ((u, .moved (.received (.ok batch))) ::
        (u, .seen (.acknowledge (batch.map (·.ackId)))) ::
        (v, .moved (.acknowledged (.ok ()))) :: l) t'

/-- What has happened since a call for messages at `t`, if there was no further call; the last of it
at `now`. -/
inductive Since (w : Worker) (t : Nat) : Timeline → State → (now : Nat) → Prop
  | waiting : Since w t [] .receiving t
  | receiveFailed {u : Nat} {cause : String} (hu : t ≤ u) :
      Since w t [(u, .moved (.received (.error (.transport cause)))), (u, w.failure cause)]
        (.coolingDown (u + 1000 * w.retrySecs)) u
  | empty {u : Nat} (hu : t ≤ u) :
      Since w t [(u, .moved (.received (.ok [])))] (.pausing (u + emptyBatchPause)) u
  | held {u : Nat} {batch : List Message} (hu : t ≤ u) (hb : batch ≠ []) :
      Since w t [(u, .moved (.received (.ok batch))),
        (u, .seen (.acknowledge (batch.map (·.ackId))))] (.acknowledging batch) u
  | acknowledgeFailed {u v : Nat} {batch : List Message} {cause : String} (hu : t ≤ u)
      (hb : batch ≠ []) (hv : u ≤ v) :
      Since w t [(u, .moved (.received (.ok batch))),
        (u, .seen (.acknowledge (batch.map (·.ackId)))),
        (v, .moved (.acknowledged (.error (.transport cause)))), (v, w.failure cause)]
        (.coolingDown (v + 1000 * w.retrySecs)) v
  | delivering {u v now : Nat} {batch messages : List Message} {m : Message} {record : Record}
      {l : Timeline} (hu : t ≤ u) (hb : batch ≠ []) (hv : u ≤ v)
      (h : Handled w v batch l (m :: messages) now) (hm : w.decode m.data = .ok (some record)) :
      Since w t ((u, .moved (.received (.ok batch))) ::
        (u, .seen (.acknowledge (batch.map (·.ackId)))) ::
        (v, .moved (.acknowledged (.ok ()))) :: l) (.sending record messages) now

variable {w : Worker} {cancelled : Bool} {now t t' t'' : Nat} {stream stream' : Channel Record}
  {state state' : State} {m : Move} {effects : List Effect} {l l' : Timeline}
  {messages left left' : List Message}

/-! ### Going through a batch -/

theorem Handled.le (h : Handled w t messages l left t') : t ≤ t' := by
  induction h with
  | rest => exact Nat.le_refl _
  | passedOver _ _ ih => exact ih
  | undecodable _ _ ih => exact ih
  | sent _ hu _ ih => exact Nat.le_trans hu ih

theorem Handled.trans (h : Handled w t messages l left t') (h' : Handled w t' left l' left' t'') :
    Handled w t messages (l ++ l') left' t'' := by
  induction h with
  | rest => exact h'
  | passedOver hm _ ih => exact .passedOver hm (ih h')
  | undecodable hm _ ih => exact .undecodable hm (ih h')
  | sent hm hu _ ih => exact .sent hm hu (ih h')

/-- Messages without a record are gone through at once. -/
theorem handled_of_accepted_nil (t : Nat) (left : List Message) (hp : w.accepted messages = []) :
    Handled w t (messages ++ left) ((w.handling messages).map (t, .seen ·)) left t := by
  induction messages with
  | nil => exact .rest t left
  | cons m rest ih =>
    match hm : w.decode m.data with
    | .ok none =>
      have hrest : w.accepted rest = [] := by simpa [accepted, hm] using hp
      have hcons : w.handling (m :: rest) = w.handling rest := by simp [handling, hm]
      rw [hcons]
      exact .passedOver hm (ih hrest)
    | .error cause =>
      have hrest : w.accepted rest = [] := by simpa [accepted, hm] using hp
      have hcons : w.handling (m :: rest) =
          .report (.undecodable cause) :: w.handling rest := by simp [handling, hm]
      rw [hcons]
      exact .undecodable hm (ih hrest)
    | .ok (some record) => simp [accepted, hm] at hp

theorem receive_notMem_handling (messages : List Message) : .receive ∉ w.handling messages := by
  intro h
  exact absurd (isHandling_of_mem h) nofun

/-- After a confirmed batch, or a record of it, either a record waits for room or the next call
begins, in the same move and at the same time. -/
theorem handled_proceed (t : Nat) (messages : List Message) :
    (∃ es m record rest, w.proceed false messages = (.sending record rest, es) ∧ .receive ∉ es ∧
      w.decode m.data = .ok (some record) ∧
      Handled w t messages (es.map (t, .seen ·)) (m :: rest) t) ∨
    (∃ es, w.proceed false messages = (.receiving, es ++ [.receive]) ∧ .receive ∉ es ∧
      Handled w t messages (es.map (t, .seen ·)) [] t) := by
  rcases proceed_cases w messages with ⟨passed, m, record, rest, rfl, hp, hm, hr⟩ | ⟨ha, hr⟩
  · exact .inl ⟨_, m, record, rest, hr, receive_notMem_handling passed, hm,
      handled_of_accepted_nil t (m :: rest) hp⟩
  · refine .inr ⟨_, hr, receive_notMem_handling messages, ?_⟩
    have h := handled_of_accepted_nil t [] ha
    rwa [List.append_nil] at h

/-! ### One move -/

/-- A move after a call either leaves the worker on its way or begins the next call, and then a round
is over. -/
theorem Since.step (h : Since w t l state t') (hnow : t' ≤ now)
    (hstep : Step w cancelled now stream state m state' stream' effects)
    (hlive : state' ≠ .ended) :
    (.receive ∉ effects ∧ Since w t (l ++ entries now m effects) state' now) ∨
    ∃ es, effects = es ++ [.receive] ∧ .receive ∉ es ∧ state' = .receiving ∧
      Round w t (l ++ entries now m es) now := by
  cases h with
  | waiting =>
    cases hstep with
    | calledOff => exact absurd rfl hlive
    | receiveCancelled => exact absurd rfl hlive
    | batch _ hb => exact .inl ⟨by simp, .held hnow hb⟩
    | emptyBatch => exact .inl ⟨by simp, .empty hnow⟩
    | receiveFailed => exact .inl ⟨by simp, .receiveFailed hnow⟩
  | receiveFailed hu =>
    cases hstep with
    | calledOff => exact absurd rfl hlive
    | rested _ hw => exact .inr ⟨[], rfl, by simp, rfl, .receiveFailed hu hw⟩
  | empty hu =>
    cases hstep with
    | calledOff => exact absurd rfl hlive
    | pauseOver _ hw => exact .inr ⟨[], rfl, by simp, rfl, .empty hu hw⟩
  | acknowledgeFailed hu hb hv =>
    cases hstep with
    | calledOff => exact absurd rfl hlive
    | rested _ hw => exact .inr ⟨[], rfl, by simp, rfl, .acknowledgeFailed hu hb hv hw⟩
  | @held u batch hu hb =>
    cases hstep with
    | calledOff => exact absurd rfl hlive
    | acknowledgeCancelled => exact absurd rfl hlive
    | acknowledgeFailed => exact .inl ⟨by simp, .acknowledgeFailed hu hb hnow⟩
    | acknowledged =>
      rcases handled_proceed (w := w) now batch with
        ⟨es, m, record, rest, hr, hes, hm, hh⟩ | ⟨es, hr, hes, hh⟩
      · rw [hr]
        exact .inl ⟨hes, .delivering hu hb hnow hh hm⟩
      · rw [hr]
        exact .inr ⟨es, rfl, hes, rfl, .delivered hu hb hnow hh⟩
  | @delivering u v _ batch messages m record l hu hb hv hh hm =>
    cases hstep with
    | calledOff => exact absurd rfl hlive
    | streamClosed => exact absurd rfl hlive
    | sent =>
      -- the record that waited is put on the stream, and the worker goes on from there
      have hsent (es : List Effect) {left : List Message}
          (h : Handled w now messages (es.map (now, .seen ·)) left now) :
          Handled w v batch (l ++ entries now .resume (.emit record :: es)) left now :=
        hh.trans (.sent hm hnow h)
      rcases handled_proceed (w := w) now messages with
        ⟨es, m', record', rest, hr, hes, hm', hh'⟩ | ⟨es, hr, hes, hh'⟩
      · rw [hr]
        exact .inl ⟨by simpa using hes, .delivering hu hb hv (hsent es hh') hm'⟩
      · rw [hr]
        exact .inr ⟨.emit record :: es, rfl, by simpa using hes, rfl,
          .delivered hu hb hv (hsent es hh')⟩

/-! ### Runs -/

namespace System

variable {s s' : System} {actions : List Action}

/-- From a call on, one round follows the other. -/
theorem rounds_of_since (hruns : Runs (act? w) s actions effects s')
    (h : Since w t l s.state t') (hnow : t' ≤ s.now) :
    (⟨t, l ++ untilCall (s.timeline w actions)⟩ :: calls (s.timeline w actions)).IsChain
        (fun c d : Call => Round w c.start c.events d.start) ∧
      ∀ c, (⟨t, l ++ untilCall (s.timeline w actions)⟩ :: calls (s.timeline w actions)).getLast? =
        some c → s'.state = .ended ∨ ∃ u ≤ s'.now, Since w c.start c.events s'.state u := by
  induction hruns generalizing t l t' with
  | nil s =>
    refine ⟨.singleton _, ?_⟩
    rintro c hc
    obtain rfl : _ = c := by simpa [timeline, gather, calls] using hc
    refine .inr ⟨t', hnow, ?_⟩
    simpa [timeline, gather, untilCall] using h
  | @cons s mid s' a actions first more ha hrest ih =>
    have hmid := now_le_of_act? ha
    rcases act?_cases ha with ⟨m, rfl, hstep⟩ | ⟨hm, hstate, rfl⟩
    · by_cases hend : mid.state = .ended
      · rw [timeline_cons ha, sights_of_ended ha hend, timeline_of_ended hrest hend]
        exact ⟨.singleton _, fun _ _ => .inl (ended_of_runs hrest hend)⟩
      · rw [timeline_cons ha, sights_move ha hend]
        rcases h.step hnow hstep hend with ⟨hes, hs⟩ | ⟨es, rfl, hes, hstate, hround⟩
        · have hcut := not_isCall_of_mem_entries s.now m hes
          rw [untilCall_append hcut, calls_append hcut, ← List.append_assoc]
          exact ih hs hmid
        · have hcut := not_isCall_of_mem_entries s.now m hes
          rw [entries_append, List.append_assoc, untilCall_append hcut, calls_append hcut]
          have hwait : Since w s.now [] mid.state s.now := by
            rw [hstate]
            exact .waiting
          obtain ⟨hchain, hlast⟩ := ih hwait hmid
          constructor
          · refine .cons_cons ?_ hchain
            simpa [untilCall_call] using hround
          · simpa [calls_call] using hlast
    · rw [timeline_cons ha, sights_of_not_move hm]
      exact ih (hstate ▸ h) (Nat.le_trans hnow hmid)

/-- The calls for messages in the course of the actions. -/
def callsMade (w : Worker) (s : System) (actions : List Action) : List Call :=
  calls (s.timeline w actions)

/-- Before its first turn a worker has made no call, and after it one round follows the other. -/
theorem rounds_of_starting (hruns : Runs (act? w) s actions effects s') (hs : s.state = .starting) :
    (s.callsMade w actions).IsChain (fun c d : Call => Round w c.start c.events d.start) ∧
      ∀ c, (s.callsMade w actions).getLast? = some c →
        s'.state = .ended ∨ ∃ u ≤ s'.now, Since w c.start c.events s'.state u := by
  induction hruns with
  | nil s => exact ⟨.nil, nofun⟩
  | @cons s mid s' a actions first more ha hrest ih =>
    rcases act?_cases ha with ⟨m, rfl, hstep⟩ | ⟨hm, hstate, rfl⟩
    · by_cases hend : mid.state = .ended
      · rw [callsMade, timeline_cons ha, sights_of_ended ha hend, timeline_of_ended hrest hend]
        exact ⟨.nil, nofun⟩
      · obtain ⟨rfl, hstate, rfl⟩ : m = .resume ∧ mid.state = .receiving ∧ first = [.receive] := by
          rw [hs] at hstep
          generalize mid.state = state, mid.stream = stream at hstep hend
          cases hstep with
          | calledOff => exact absurd rfl hend
          | started => exact ⟨rfl, rfl, rfl⟩
        have hwait : Since w s.now [] mid.state s.now := by
          rw [hstate]
          exact .waiting
        rw [callsMade, timeline_cons ha, sights_move ha hend]
        exact rounds_of_since hrest hwait (now_le_of_act? ha)
    · rw [callsMade, timeline_cons ha, sights_of_not_move hm]
      exact ih (hstate.trans hs)

end System

end LogRelay.Worker
