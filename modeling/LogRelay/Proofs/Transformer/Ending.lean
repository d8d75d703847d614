import LogRelay.Proofs.Transformer.Delivery

/-!
What ends the transformer. It ends when it is called off, when no record is left and none can come,
or when a line finds the sink closed, whichever its next move meets first. A closed stream is
emptied before the end; a closed sink is noticed only by a record that has a line.
-/

namespace LogRelay.Transformer

variable {router : Router} {cancelled isOpen : Bool} {stream stream' : Channel Record}
  {sink sink' : Channel RoutedLine} {state state' : State} {effects : List Effect}

/-! ### Ends -/

/-- Why the transformer ends by its next move. -/
inductive EndsBy (cancelled isOpen : Bool) (stream : Channel Record) (sink : Channel RoutedLine) :
    State → Prop
  | calledOff {state : State} (hs : state ≠ .ended) (hc : cancelled = true) :
      EndsBy cancelled isOpen stream sink state
  | exhausted (hitems : stream.items = []) (ho : isOpen = false) :
      EndsBy cancelled isOpen stream sink .waiting
  | sinkClosed {line : RoutedLine} {rest : List RoutedLine} (hclosed : sink.closed = true) :
      EndsBy cancelled isOpen stream sink (.sending line rest)

/-- What ends the transformer is possible at once, and is not seen by anyone. -/
theorem EndsBy.step (h : EndsBy cancelled isOpen stream sink state) :
    Step router cancelled isOpen stream sink state .ended stream sink [] := by
  cases hc : cancelled with
  | true =>
    have hs : state ≠ .ended := by
      rintro rfl
      cases h
      contradiction
    exact .calledOff hs rfl
  | false =>
    subst hc
    cases h with
    | calledOff _ hc => cases hc
    | exhausted hitems ho => exact .exhausted rfl (Channel.take?_eq_none_iff.2 hitems) ho
    | sinkClosed hclosed => exact .sinkClosed rfl (Channel.send_eq_closed_iff.2 hclosed)

/-- Only these ends are ends. -/
theorem Step.ended_iff
    (h : Step router cancelled isOpen stream sink state state' stream' sink' effects) :
    state' = .ended ↔ EndsBy cancelled isOpen stream sink state := by
  constructor
  · intro hend
    cases h with
    | calledOff hs hc => exact .calledOff hs hc
    | taken => exact absurd hend (ofLines_ne_ended _)
    | exhausted _ ht ho => exact .exhausted (Channel.take?_eq_none_iff.1 ht) ho
    | sent => exact absurd hend (ofLines_ne_ended _)
    | sinkClosed _ hclosed => exact .sinkClosed (Channel.send_eq_closed_iff.1 hclosed)
  · intro hends
    have hmove := move?_eq_some_iff.2 h
    rw [move?_eq_some_iff.2 hends.step] at hmove
    cases hmove
    rfl

/-- With a sink that nobody reads, a move takes a record, or it is the end. -/
theorem Step.of_sinkClosed
    (h : Step router cancelled isOpen stream sink state state' stream' sink' effects)
    (hclosed : sink.closed = true) :
    (state = .waiting ∧ ∃ record, state' = .ofLines (router.route record) ∧
        effects = .take record :: complaint router record) ∨
      (state' = .ended ∧ effects = []) := by
  cases h with
  | @taken record => exact .inl ⟨rfl, record, rfl, rfl⟩
  | sent _ hsent =>
    have hread := (Channel.send_eq_sent_iff.1 hsent).1
    rw [hclosed] at hread
    cases hread
  | _ => exact .inr ⟨rfl, rfl⟩

theorem Step.sink_capacity
    (h : Step router cancelled isOpen stream sink state state' stream' sink' effects) :
    sink'.capacity = sink.capacity := by
  cases h with
  | sent _ hsent =>
    obtain ⟨-, -, rfl⟩ := Channel.send_eq_sent_iff.1 hsent
    rfl
  | _ => rfl

namespace System

variable {s s' : System} {a : Action} {actions : List Action}

/-- Why the transformer ends by its next move. -/
abbrev EndsBy (s : System) : Prop :=
  Transformer.EndsBy s.cancelled s.isOpen s.stream s.sink s.state

theorem act?_of_endsBy (h : s.EndsBy) :
    s.act? router .move = some ({ s with state := .ended, stream := s.stream.close }, []) :=
  act?_move_iff.2 ⟨s.stream, h.step, rfl, rfl, rfl⟩

theorem ended_iff_endsBy (h : s.act? router .move = some (s', effects)) :
    s'.state = .ended ↔ s.EndsBy := by
  obtain ⟨stream, hstep, -⟩ := act?_move_iff.1 h
  exact hstep.ended_iff

theorem ended_of_act? (h : s.act? router a = some (s', effects)) (hs : s.state = .ended) :
    s'.state = .ended := by
  rcases act?_cases h with ⟨-, stream, hstep, -⟩ | ⟨-, hstate, -⟩
  · rw [hs] at hstep
    exact absurd hstep not_step_ended
  · rw [hstate, hs]

/-- There is no life after the end. -/
theorem ended_of_runs (h : Runs (act? router) s actions effects s') (hs : s.state = .ended) :
    s'.state = .ended :=
  h.invariant (p := fun s => s.state = .ended) (fun _ _ _ _ hs ha => ended_of_act? ha hs) hs

theorem ended_iff (h : Runs (act? router) s actions effects s') (hs : s.state ≠ .ended) :
    s'.state = .ended ↔ ∃ before after mid seen, actions = before ++ .move :: after ∧
      Runs (act? router) s before seen mid ∧ mid.EndsBy := by
  constructor
  · intro hend
    obtain ⟨before, a, after, mid, next, seen, first, hactions, hbefore, hmid, ha, hnext⟩ :=
      h.exists_entering (p := fun s => s.state = .ended) hs hend
    rcases act?_cases ha with ⟨rfl, -⟩ | ⟨-, hstate, -⟩
    · exact ⟨before, after, mid, seen, hactions, hbefore, (ended_iff_endsBy ha).1 hnext⟩
    · rw [hstate] at hnext
      exact absurd hnext hmid
  · rintro ⟨before, after, mid, seen, rfl, hbefore, hends⟩
    obtain ⟨mid', first, more, hbefore', hafter, -⟩ := h.split
    obtain ⟨rfl, -⟩ := hbefore'.functional hbefore
    cases hafter with
    | cons ha hrest => exact ended_of_runs hrest ((ended_iff_endsBy ha).2 hends)

/-- What no action takes back. -/
structure Remains (s s' : System) : Prop where
  cancelled : s.cancelled = true → s'.cancelled = true
  isOpen : s.isOpen = false → s'.isOpen = false
  sinkClosed : s.sink.closed = true → s'.sink.closed = true
  capacity : s'.sink.capacity = s.sink.capacity

theorem remains_of_act? (h : s.act? router a = some (s', effects)) : s.Remains s' := by
  cases a with
  | move =>
    obtain ⟨stream, hstep, -, ho, hc⟩ := act?_move_iff.1 h
    exact ⟨hc.trans, ho.trans, hstep.sink_closed.trans, hstep.sink_capacity⟩
  | put record =>
    obtain ⟨-, stream, -, rfl, -⟩ := act?_put_iff.1 h
    exact ⟨id, id, id, rfl⟩
  | take =>
    obtain ⟨line, sink, htake, rfl, -⟩ := act?_take_iff.1 h
    obtain ⟨rest, -, rfl⟩ := Channel.take?_eq_some_iff.1 htake
    exact ⟨id, id, id, rfl⟩
  | finish => cases h; exact ⟨id, fun _ => rfl, id, rfl⟩
  | close => cases h; exact ⟨id, id, fun _ => rfl, rfl⟩
  | cancel => cases h; exact ⟨fun _ => rfl, id, id, rfl⟩

/-! ### After the call -/

/-- Once it is called off nothing is seen of the transformer, and its next move is its end. -/
theorem quiet_of_cancelled (h : Runs (act? router) s actions effects s')
    (hc : s.cancelled = true) : effects = [] ∧ (.move ∈ actions → s'.state = .ended) := by
  induction h with
  | nil => exact ⟨rfl, nofun⟩
  | @cons s mid s' a actions first more ha hrest ih =>
    obtain ⟨rfl, hmore⟩ := ih ((remains_of_act? ha).cancelled hc)
    rcases act?_cases ha with ⟨rfl, stream, hstep, -⟩ | ⟨hne, -, rfl⟩
    · have hlive : s.state ≠ .ended := by
        intro hs
        rw [hs] at hstep
        exact not_step_ended hstep
      have hends : s.EndsBy := .calledOff hlive hc
      rw [act?_of_endsBy hends] at ha
      cases ha
      exact ⟨rfl, fun _ => ended_of_runs hrest rfl⟩
    · refine ⟨rfl, fun hmem => hmore ?_⟩
      rcases List.mem_cons.1 hmem with heq | hmem
      · exact absurd heq.symm hne
      · exact hmem

/-! ### Until the end -/

/-- The stream is given up with the end and not before. -/
def Keeps (s : System) : Prop := s.stream.closed = true ↔ s.state = .ended

theorem keeps_of_act? (h : s.act? router a = some (s', effects)) (hs : s.Keeps) : s'.Keeps := by
  cases a with
  | move =>
    obtain ⟨stream, hstep, hstream, -⟩ := act?_move_iff.1 h
    have hopen : s.stream.closed = false := by
      rw [← Bool.not_eq_true]
      intro hclosed
      rw [hs.1 hclosed] at hstep
      exact not_step_ended hstep
    rw [Keeps, hstream]
    cases hstate : s'.state with
    | ended => exact ⟨fun _ => rfl, fun _ => rfl⟩
    | waiting | sending =>
      simp only [State.isLive, if_true, hstep.stream_closed, hopen]
      exact ⟨nofun, nofun⟩
  | put record =>
    obtain ⟨-, stream, hsend, rfl, -⟩ := act?_put_iff.1 h
    obtain ⟨-, -, rfl⟩ := Channel.send_eq_sent_iff.1 hsend
    exact hs
  | take =>
    obtain ⟨line, sink, -, rfl, -⟩ := act?_take_iff.1 h
    exact hs
  | finish => cases h; exact hs
  | close => cases h; exact hs
  | cancel => cases h; exact hs

theorem keeps_of_runs (h : Runs (act? router) s actions effects s') (hs : s.Keeps) : s'.Keeps :=
  h.invariant (p := Keeps) (fun _ _ _ _ hs ha => keeps_of_act? ha hs) hs

/-- What was put on the stream and what was taken from it keep adding up. -/
theorem stream_accounts_of_runs {sent read : List Record}
    (h : Runs (act? router) s actions effects s') (hs : s.stream.Accounts sent read) :
    s'.stream.Accounts (sent ++ puts actions) (read ++ consumed effects) := by
  induction h generalizing sent read with
  | nil => exact hs.unchanged
  | @cons s mid s' a actions first more ha _ ih =>
    have hputs : puts (a :: actions) = a.record?.toList ++ puts actions := by
      cases a <;> rfl
    rw [hputs, consumed_append, ← List.append_assoc, ← List.append_assoc]
    apply ih
    cases a with
    | move =>
      obtain ⟨stream, hstep, hstream, -⟩ := act?_move_iff.1 ha
      have hmid := hstep.stream_accounts hs
      change mid.stream.Accounts (sent ++ []) _
      rw [List.append_nil, hstream]
      split
      · exact hmid
      · exact hmid.close
    | put record =>
      obtain ⟨-, stream, hsend, rfl, rfl⟩ := act?_put_iff.1 ha
      change stream.Accounts _ (read ++ [])
      rw [List.append_nil]
      exact hs.send hsend
    | take =>
      obtain ⟨line, sink, -, rfl, rfl⟩ := act?_take_iff.1 ha
      exact hs.unchanged
    | finish => cases ha; exact hs.unchanged
    | close => cases ha; exact hs.unchanged
    | cancel => cases ha; exact hs.unchanged

/-- Every run of the transformer is a path, whatever interferes. -/
theorem path_of_any_runs (h : Runs (act? router) s actions effects s') :
    Path router False s.state effects s'.state := by
  induction h with
  | nil => exact .rest _
  | cons ha _ ih =>
    rcases act?_cases ha with ⟨-, stream, hstep, -⟩ | ⟨-, hstate, rfl⟩
    · exact .move hstep False.elim ih
    · rwa [hstate] at ih

end System

end LogRelay.Transformer
