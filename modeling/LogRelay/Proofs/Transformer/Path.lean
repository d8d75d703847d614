import LogRelay.Proofs.Channel
import LogRelay.Proofs.Routing
import LogRelay.Transformer

/-!
What the transformer does, move by move and along whole paths, whatever its surroundings do between
its moves. The lines it has put on the sink and those it still has in hand are always the routed lines
of the records it has taken.
-/

namespace LogRelay.Transformer

/-! ### What is seen of the transformer -/

namespace Effect

def record? : Effect → Option Record
  | take record => some record
  | _ => none

def line? : Effect → Option RoutedLine
  | emit line => some line
  | _ => none

def happening? : Effect → Option Happening
  | report happening => some happening
  | _ => none

end Effect

/-- The records taken off the stream. -/
def consumed (effects : List Effect) : List Record := effects.filterMap Effect.record?

/-- The lines put on the sink. -/
def emitted (effects : List Effect) : List RoutedLine := effects.filterMap Effect.line?

/-- What is told. -/
def reported (effects : List Effect) : List Happening := effects.filterMap Effect.happening?

theorem consumed_append (xs ys : List Effect) : consumed (xs ++ ys) = consumed xs ++ consumed ys :=
  List.filterMap_append

theorem emitted_append (xs ys : List Effect) : emitted (xs ++ ys) = emitted xs ++ emitted ys :=
  List.filterMap_append

theorem reported_append (xs ys : List Effect) : reported (xs ++ ys) = reported xs ++ reported ys :=
  List.filterMap_append

/-- The lines in hand. -/
def due : State → List RoutedLine
  | .sending line rest => line :: rest
  | _ => []

@[simp] theorem due_ofLines (lines : List RoutedLine) : due (.ofLines lines) = lines := by
  cases lines <;> rfl

theorem ofLines_ne_ended (lines : List RoutedLine) : State.ofLines lines ≠ .ended := by
  cases lines <;> nofun

theorem isLive_ofLines (lines : List RoutedLine) : (State.ofLines lines).isLive = true := by
  cases lines <;> rfl

theorem eq_ended_of_isLive {state : State} (h : state.isLive = false) : state = .ended := by
  cases state with
  | ended => rfl
  | _ => cases h

/-! ### One move -/

/-- A move, with the stream and the sink before and after it. -/
inductive Step (router : Router) (cancelled isOpen : Bool) (stream : Channel Record)
    (sink : Channel RoutedLine) :
    State → State → Channel Record → Channel RoutedLine → List Effect → Prop
  | calledOff {state : State} (hs : state ≠ .ended) (hc : cancelled = true) :
      Step router cancelled isOpen stream sink state .ended stream sink []
  | taken {record : Record} {stream' : Channel Record} (hc : cancelled = false)
      (ht : stream.take? = some (record, stream')) :
      Step router cancelled isOpen stream sink .waiting (.ofLines (router.route record)) stream' sink
        (.take record :: complaint router record)
  | exhausted (hc : cancelled = false) (ht : stream.take? = none) (ho : isOpen = false) :
      Step router cancelled isOpen stream sink .waiting .ended stream sink []
  | sent {line : RoutedLine} {rest : List RoutedLine} {sink' : Channel RoutedLine}
      (hc : cancelled = false) (hsent : sink.send line = .sent sink') :
      Step router cancelled isOpen stream sink (.sending line rest) (.ofLines rest) stream sink'
        [.emit line]
  | sinkClosed {line : RoutedLine} {rest : List RoutedLine} (hc : cancelled = false)
      (hclosed : sink.send line = .closed) :
      Step router cancelled isOpen stream sink (.sending line rest) .ended stream sink []

variable {router : Router} {cancelled isOpen : Bool} {stream stream' : Channel Record}
  {sink sink' : Channel RoutedLine} {state state' : State} {effects : List Effect}

theorem move?_eq_some_iff :
    move? router cancelled isOpen stream sink state = some (state', stream', sink', effects) ↔
      Step router cancelled isOpen stream sink state state' stream' sink' effects := by
  constructor
  · intro h
    cases hc : cancelled with
    | true =>
      subst hc
      cases state with
      | ended => cases h
      | waiting => cases h; exact .calledOff nofun rfl
      | sending line rest => cases h; exact .calledOff nofun rfl
    | false =>
      subst hc
      cases state with
      | ended => cases h
      | waiting =>
        cases ht : stream.take? with
        | none =>
          cases ho : isOpen with
          | true => simp [move?, ht, ho] at h
          | false =>
            simp only [move?, ht, ho] at h
            cases h
            exact .exhausted rfl ht rfl
        | some taken =>
          simp only [move?, ht] at h
          cases h
          exact .taken rfl ht
      | sending line rest =>
        cases hsend : sink.send line with
        | full => simp [move?, hsend] at h
        | closed =>
          simp only [move?, hsend] at h
          cases h
          exact .sinkClosed rfl hsend
        | sent after =>
          simp only [move?, hsend] at h
          cases h
          exact .sent rfl hsend
  · intro h
    cases h with
    | calledOff hs hc =>
      subst hc
      cases state with
      | ended => exact absurd rfl hs
      | waiting => rfl
      | sending line rest => rfl
    | taken hc ht => simp [move?, hc, ht]
    | exhausted hc ht ho => simp [move?, hc, ht, ho]
    | sent hc hsent => simp [move?, hc, hsent]
    | sinkClosed hc hclosed => simp [move?, hc, hclosed]

theorem not_step_ended :
    ¬ Step router cancelled isOpen stream sink .ended state' stream' sink' effects := by
  intro h
  cases h with
  | calledOff hs => exact hs rfl

/-- A move that ends the transformer is not seen by anyone. -/
theorem Step.of_ended
    (h : Step router cancelled isOpen stream sink state .ended stream' sink' effects) :
    effects = [] ∧ stream' = stream ∧ sink' = sink := by
  generalize hs : State.ended = state' at h
  cases h with
  | taken => exact absurd hs.symm (ofLines_ne_ended _)
  | sent => exact absurd hs.symm (ofLines_ne_ended _)
  | _ => exact ⟨rfl, rfl, rfl⟩

/-- Whether records can still come matters only to a transformer that finds none. -/
theorem Step.with_senders {other : Bool}
    (h : Step router cancelled isOpen stream sink state state' stream' sink' effects)
    (hother : state = .waiting → cancelled = false → stream.take? = none → isOpen = false →
      other = false) :
    Step router cancelled other stream sink state state' stream' sink' effects := by
  cases h with
  | calledOff hs hc => exact .calledOff hs hc
  | taken hc ht => exact .taken hc ht
  | exhausted hc ht ho => exact .exhausted hc ht (hother rfl hc ht ho)
  | sent hc hsent => exact .sent hc hsent
  | sinkClosed hc hclosed => exact .sinkClosed hc hclosed

/-- No move takes the reader of the sink away. -/
theorem Step.sink_closed
    (h : Step router cancelled isOpen stream sink state state' stream' sink' effects) :
    sink'.closed = sink.closed := by
  cases h with
  | sent _ hsent =>
    obtain ⟨-, -, rfl⟩ := Channel.send_eq_sent_iff.1 hsent
    rfl
  | _ => rfl

/-- No move gives the stream up; that comes with the end. -/
theorem Step.stream_closed
    (h : Step router cancelled isOpen stream sink state state' stream' sink' effects) :
    stream'.closed = stream.closed := by
  cases h with
  | taken _ ht => exact Channel.take?_closed ht
  | _ => rfl

/-- Nothing is put on a sink that nobody reads. -/
theorem Step.sink_eq_of_closed
    (h : Step router cancelled isOpen stream sink state state' stream' sink' effects)
    (hclosed : sink.closed = true) : sink' = sink := by
  cases h with
  | sent _ hsent =>
    obtain ⟨hread, -, -⟩ := Channel.send_eq_sent_iff.1 hsent
    rw [hclosed] at hread
    cases hread
  | _ => rfl

theorem emitted_complaint (record : Record) : emitted (complaint router record) = [] := by
  unfold complaint
  split <;> rfl

theorem consumed_complaint (record : Record) : consumed (complaint router record) = [] := by
  unfold complaint
  split <;> rfl

theorem reported_complaint (record : Record) :
    reported (complaint router record) = router.rejections [record] := by
  simp only [complaint, Router.rejections, Router.line?, restoreLineTerminator, List.filterMap_cons]
  cases router.parser "" (record.content ++ "\n") <;> rfl

/-- As long as nobody interferes, what is on the sink and what is in hand are the routed lines of
what was taken. -/
theorem Step.lines_eq
    (h : Step router cancelled isOpen stream sink state state' stream' sink' effects)
    (hkept : state' ≠ .ended ∨ (cancelled = false ∧ sink.closed = false)) :
    emitted effects ++ due state' = due state ++ (consumed effects).flatMap router.route := by
  cases h with
  | calledOff _ hc => simp [hc] at hkept
  | exhausted => rfl
  | sinkClosed _ hclosed => simp [Channel.send_eq_closed_iff.1 hclosed] at hkept
  | @taken record =>
    change emitted (complaint router record) ++ due (.ofLines (router.route record)) =
      (record :: consumed (complaint router record)).flatMap router.route
    rw [emitted_complaint, consumed_complaint, due_ofLines]
    simp
  | @sent line rest =>
    change line :: due (.ofLines rest) = line :: rest ++ []
    rw [due_ofLines, List.append_nil]

/-- Just the records whose text is no entry are told of. -/
theorem Step.reported_eq
    (h : Step router cancelled isOpen stream sink state state' stream' sink' effects) :
    reported effects = router.rejections (consumed effects) := by
  cases h with
  | @taken record =>
    change reported (complaint router record) =
      router.rejections (record :: consumed (complaint router record))
    rw [consumed_complaint, reported_complaint]
  | _ => rfl

/-- As long as nobody interferes, what a move takes off the stream is all that the stream loses; a
stream that is given up with the end of the transformer is empty. -/
theorem Step.items_eq
    (h : Step router cancelled isOpen stream sink state state' stream' sink' effects)
    (hlive : cancelled = false) (hread : sink.closed = false) :
    consumed effects ++ (if state'.isLive then stream' else stream'.close).items = stream.items := by
  cases h with
  | calledOff _ hc =>
    rw [hlive] at hc
    cases hc
  | sinkClosed _ hclosed =>
    rw [Channel.send_eq_closed_iff.1 hclosed] at hread
    cases hread
  | @taken record _ _ ht =>
    obtain ⟨rest, hitems, rfl⟩ := Channel.take?_eq_some_iff.1 ht
    change record :: consumed (complaint router record) ++ _ = stream.items
    rw [consumed_complaint, isLive_ofLines, if_pos rfl, hitems]
    rfl
  | exhausted _ ht => exact (Channel.take?_eq_none_iff.1 ht).symm
  | sent =>
    rw [isLive_ofLines, if_pos rfl]
    rfl

theorem Step.stream_accounts {sent read : List Record}
    (h : Step router cancelled isOpen stream sink state state' stream' sink' effects)
    (hs : stream.Accounts sent read) : stream'.Accounts sent (read ++ consumed effects) := by
  cases h with
  | @taken record _ _ ht =>
    change stream'.Accounts sent (read ++ record :: consumed (complaint router record))
    rw [consumed_complaint]
    exact hs.take ht
  | sent => exact (List.append_nil read).symm ▸ hs
  | _ => rwa [consumed, List.filterMap_nil, List.append_nil]

theorem Step.sink_accounts {sent read : List RoutedLine}
    (h : Step router cancelled isOpen stream sink state state' stream' sink' effects)
    (hs : sink.Accounts sent read) : sink'.Accounts (sent ++ emitted effects) read := by
  cases h with
  | @taken record =>
    change sink.Accounts (sent ++ emitted (complaint router record)) read
    rwa [emitted_complaint, List.append_nil]
  | sent _ hsent => exact hs.send hsent
  | _ => rwa [emitted, List.filterMap_nil, List.append_nil]

/-! ### Paths -/

/-- Moves of the transformer that follow one another. If the path is `calm`, it is not called off and
its sink is not abandoned. -/
inductive Path (router : Router) (calm : Prop) : State → List Effect → State → Prop
  | rest (state : State) : Path router calm state [] state
  | move {cancelled isOpen : Bool} {stream stream' : Channel Record} {sink sink' : Channel RoutedLine}
      {state state' state'' : State} {effects more : List Effect}
      (h : Step router cancelled isOpen stream sink state state' stream' sink' effects)
      (hcalm : calm → cancelled = false ∧ sink.closed = false)
      (hp : Path router calm state' more state'') :
      Path router calm state (effects ++ more) state''

variable {calm : Prop}

theorem Path.of_ended (h : Path router calm .ended effects state') :
    effects = [] ∧ state' = .ended := by
  cases h with
  | rest => exact ⟨rfl, rfl⟩
  | move h => exact absurd h not_step_ended

/-- Along a path, what is put on the sink is a first part of what was in hand and of the routed lines
of the records taken; until someone interferes, the other part is what is in hand. -/
theorem Path.lines_eq (h : Path router calm state effects state') :
    ∃ rest, emitted effects ++ rest = due state ++ (consumed effects).flatMap router.route ∧
      (state' ≠ .ended ∨ calm → rest = due state') := by
  induction h with
  | rest state => exact ⟨due state, by simp [emitted, consumed], fun _ => rfl⟩
  | @move _ _ _ _ _ _ state mid state' effects more h hcalm hp ih =>
    by_cases hkept : mid ≠ .ended ∨ calm
    · obtain ⟨rest, heq, hrest⟩ := ih
      refine ⟨rest, ?_, hrest⟩
      rw [emitted_append, consumed_append, List.flatMap_append, List.append_assoc, heq,
        ← List.append_assoc, h.lines_eq (hkept.imp_right hcalm), List.append_assoc]
    · obtain ⟨hend, hcalm⟩ := not_or.1 hkept
      obtain rfl : mid = .ended := Classical.not_not.1 hend
      obtain ⟨rfl, rfl⟩ := hp.of_ended
      obtain ⟨rfl, -, -⟩ := h.of_ended
      exact ⟨due state, by simp [emitted, consumed], fun hk => absurd hk hkept⟩

theorem Path.reported_eq (h : Path router calm state effects state') :
    reported effects = router.rejections (consumed effects) := by
  induction h with
  | rest => rfl
  | move h _ _ ih =>
    rw [reported_append, consumed_append, h.reported_eq, ih]
    exact List.filterMap_append.symm

end LogRelay.Transformer
