import LogRelay.Proofs.Worker.Fruitless

/-!
What a worker still does when nobody reads its stream any more. It goes on as before until it has a
record to put on the stream, and that is its end; so the only batch that it acknowledges in vain is
the one that holds this record.
-/

namespace LogRelay.Worker

variable {w : Worker} {cancelled : Bool} {now : Nat} {stream stream' : Channel Record}
  {state state' : State} {m : Move} {effects : List Effect}

/-- The end is all that can follow while nobody reads the stream: the worker has a record in hand, or
has ended already. -/
def State.IsSpent (state : State) : Prop := state = .ended ∨ state.inHand?.isSome

theorem isSpent_sending (record : Record) (rest : List Message) :
    (State.sending record rest).IsSpent := .inr rfl

/-- A record that finds no reader is the end of the worker, and nothing but that can come next. -/
theorem step_sending_iff_of_closed {record : Record} {rest : List Message}
    (hclosed : stream.closed = true) :
    Step w false now stream (.sending record rest) m state' stream' effects ↔
      m = .resume ∧ state' = .ended ∧ stream' = stream ∧ effects = [] := by
  constructor
  · intro h
    cases h with
    | calledOff _ hc => cases hc
    | sent _ hsent =>
      rw [Channel.send_eq_closed_iff.2 hclosed] at hsent
      cases hsent
    | streamClosed => exact ⟨rfl, rfl, rfl, rfl⟩
  · rintro ⟨rfl, rfl, rfl, rfl⟩
    exact .streamClosed rfl (Channel.send_eq_closed_iff.2 hclosed)

/-- A spent worker makes one move at most, which ends it. -/
theorem Step.of_spent (h : Step w false now stream state m state' stream' effects)
    (hs : state.IsSpent) (hclosed : stream.closed = true) : m = .resume ∧ state' = .ended := by
  rcases hs with rfl | hs
  · exact absurd h not_step_ended
  · cases state with
    | sending record rest =>
      obtain ⟨hm, hend, -, -⟩ := (step_sending_iff_of_closed hclosed).1 h
      exact ⟨hm, hend⟩
    | _ => cases hs

/-- No move brings anything to a stream that nobody reads. -/
theorem Step.of_closed (h : Step w cancelled now stream state m state' stream' effects)
    (hclosed : stream.closed = true) : stream' = stream ∧ emitted effects = [] := by
  cases h with
  | acknowledged => exact ⟨rfl, emitted_proceed _⟩
  | sent _ hsent =>
    rw [Channel.send_eq_closed_iff.2 hclosed] at hsent
    cases hsent
  | _ => exact ⟨rfl, rfl⟩

/-- A worker that nobody calls off ends with a record in hand, or because the provider calls off one
of its calls. -/
theorem Step.of_ended_cases (h : Step w false now stream state m .ended stream' effects) :
    (∃ record rest, state = .sending record rest) ∨ m = .received (.error .cancelled) ∨
      m = .acknowledged (.error .cancelled) := by
  generalize hend : State.ended = state' at h
  cases h with
  | calledOff _ hc => cases hc
  | receiveCancelled => exact .inr (.inl rfl)
  | acknowledgeCancelled => exact .inr (.inr rfl)
  | acknowledged => exact absurd hend.symm (proceed_ne_ended _)
  | sent => exact absurd hend.symm (proceed_ne_ended _)
  | @streamClosed record rest => exact .inl ⟨record, rest, rfl⟩
  | _ => cases hend

/-- With its confirmation a batch without records is dealt with; of any other the first record is in
hand, and what stands before that record is dealt with. -/
theorem step_confirmed {batch : List Message}
    (h : Step w false now stream (.acknowledging batch) (.acknowledged (.ok ())) state' stream'
      effects) :
    (w.accepted batch = [] ∧ state' = .receiving ∧ effects = w.handling batch ++ [.receive]) ∨
    ∃ passed first record rest, batch = passed ++ first :: rest ∧ w.accepted passed = [] ∧
      w.decode first.data = .ok (some record) ∧ state' = .sending record rest ∧
      effects = w.handling passed := by
  cases h with
  | calledOff _ hc => cases hc
  | acknowledged =>
    rcases proceed_cases w batch with ⟨passed, first, record, rest, hbatch, hp, hm, hr⟩ | ⟨ha, hr⟩
    · exact .inr ⟨passed, first, record, rest, hbatch, hp, hm, by rw [hr], by rw [hr]⟩
    · exact .inl ⟨ha, by rw [hr], by rw [hr]⟩

/-- A move of a worker that is not called off confirms the batch that it settles, and no other. -/
theorem Step.confirms_cases {held : Option (List Message)}
    (h : Step w false now stream state m state' stream' effects)
    (hheld : ∀ batch, state = .acknowledging batch → held = some batch) :
    confirms held m = [] ∨
      ∃ batch, state = .acknowledging batch ∧ m = .acknowledged (.ok ()) ∧
        confirms held m = [batch] := by
  cases h with
  | calledOff _ hc => cases hc
  | @acknowledged batch => exact .inr ⟨batch, rfl, rfl, by rw [hheld batch rfl]; rfl⟩
  | _ => exact .inl (by cases held <;> rfl)

/-- A batch that waits for its acknowledgement is held at the end of a path. -/
theorem Path.foldl_heldAfter_eq {batch : List Message} {held : Option (List Message)}
    {moves : List Move} (h : Path w state moves effects (.acknowledging batch))
    (hheld : ∀ batch, state = .acknowledging batch → held = some batch) :
    moves.foldl heldAfter held = some batch := by
  generalize hs : State.acknowledging batch = state' at h
  induction h generalizing held with
  | rest state => exact hheld batch hs.symm
  | move h _ ih =>
    refine ih (fun batch hb => ?_) hs
    subst hb
    exact h.heldAfter_eq held

namespace System

variable {s s' mid : System} {a : Action} {actions before after : List Action} {new : List Effect}

/-- Only being called off calls a worker off. -/
theorem cancelled_of_act? (ha : s.act? w a = some (s', new)) (hne : a ≠ .cancel) :
    s'.cancelled = s.cancelled := by
  cases a with
  | move m => exact (act?_move_iff.1 ha).2.2
  | take =>
    obtain ⟨_, -, hs'⟩ := Option.map_eq_some_iff.1 ha
    cases hs'
    rfl
  | close => cases ha; rfl
  | cancel => exact absurd rfl hne
  | tick n => cases ha; rfl

theorem cancelled_of_runs (hr : Runs (act? w) s actions effects s') (hwanted : .cancel ∉ actions) :
    s'.cancelled = s.cancelled := by
  induction hr with
  | nil => rfl
  | cons ha _ ih =>
    have hne := List.ne_of_not_mem_cons hwanted
    exact (ih (List.not_mem_of_not_mem_cons hwanted)).trans (cancelled_of_act? ha (Ne.symm hne))

/-- Nobody reads the stream, and nobody has called the worker off. -/
structure IsDeserted (s : System) : Prop where
  closed : s.stream.closed = true
  wanted : s.cancelled = false

theorem IsDeserted.of_act? (h : s.IsDeserted) (ha : s.act? w a = some (s', new)) (hne : a ≠ .cancel) :
    s'.IsDeserted ∧ emitted new = [] := by
  have hwanted := (cancelled_of_act? ha hne).trans h.wanted
  cases a with
  | move m =>
    obtain ⟨hstream, hnew⟩ := (act?_move_iff.1 ha).1.of_closed h.closed
    exact ⟨⟨by rw [hstream]; exact h.closed, hwanted⟩, hnew⟩
  | take =>
    obtain ⟨⟨record, stream⟩, htake, hs'⟩ := Option.map_eq_some_iff.1 ha
    cases hs'
    exact ⟨⟨(Channel.take?_closed htake).trans h.closed, hwanted⟩, rfl⟩
  | close => cases ha; exact ⟨⟨rfl, hwanted⟩, rfl⟩
  | cancel => exact absurd rfl hne
  | tick n => cases ha; exact ⟨⟨h.closed, hwanted⟩, rfl⟩

theorem IsDeserted.of_runs (h : s.IsDeserted) (hr : Runs (act? w) s actions effects s')
    (hwanted : .cancel ∉ actions) : s'.IsDeserted ∧ emitted effects = [] := by
  induction hr with
  | nil => exact ⟨h, rfl⟩
  | cons ha _ ih =>
    have hne := List.ne_of_not_mem_cons hwanted
    have hrest := List.not_mem_of_not_mem_cons hwanted
    obtain ⟨hmid, hfirst⟩ := h.of_act? ha (Ne.symm hne)
    obtain ⟨hs', hmore⟩ := ih hmid hrest
    exact ⟨hs', by rw [emitted_append, hfirst, hmore]; rfl⟩

/-- A worker that is spent when nobody reads its stream confirms nothing any more. -/
theorem IsDeserted.of_spent (h : s.IsDeserted) (hs : s.state.IsSpent)
    (hr : Runs (act? w) s actions effects s') (hwanted : .cancel ∉ actions)
    (held : Option (List Message)) :
    s'.state.IsSpent ∧ confirmedFrom held (moves actions) = [] := by
  induction hr generalizing held with
  | nil => exact ⟨hs, rfl⟩
  | @cons s mid s' a actions first more ha _ ih =>
    have hne := List.ne_of_not_mem_cons hwanted
    have hrest := List.not_mem_of_not_mem_cons hwanted
    have hmid := (h.of_act? ha (Ne.symm hne)).1
    rcases act?_cases ha with ⟨m, rfl, hstep⟩ | ⟨hm, hstate, -⟩
    · rw [h.wanted] at hstep
      obtain ⟨rfl, hend⟩ := hstep.of_spent hs h.closed
      obtain ⟨hs', hnone⟩ := ih hmid (.inl hend) hrest (heldAfter held .resume)
      refine ⟨hs', ?_⟩
      cases held <;> exact hnone
    · rw [← hstate] at hs
      obtain ⟨hs', hnone⟩ := ih hmid hs hrest held
      refine ⟨hs', ?_⟩
      simpa [moves, List.filterMap_cons, hm] using hnone

/-- From the moment on when nobody reads the stream, the confirmed batches are any number that hold no
record, and then at most one that holds some, by which the worker is spent. -/
theorem IsDeserted.confirmedFrom_eq (h : s.IsDeserted) (hr : Runs (act? w) s actions effects s')
    (hwanted : .cancel ∉ actions) (held : Option (List Message))
    (hheld : ∀ batch, s.state = .acknowledging batch → held = some batch) :
    ∃ idle lost, confirmedFrom held (moves actions) = idle ++ lost ∧
      (∀ batch ∈ idle, w.accepted batch = []) ∧ lost.length ≤ 1 ∧
      ∀ batch ∈ lost, w.accepted batch ≠ [] ∧ s'.state.IsSpent := by
  induction hr generalizing held with
  | nil => exact ⟨[], [], rfl, nofun, Nat.zero_le _, nofun⟩
  | @cons s mid s' a actions first more ha hr ih =>
    have hne := List.ne_of_not_mem_cons hwanted
    have hrest := List.not_mem_of_not_mem_cons hwanted
    have hmid := (h.of_act? ha (Ne.symm hne)).1
    rcases act?_cases ha with ⟨m, rfl, hstep⟩ | ⟨hm, hstate, -⟩
    · rw [h.wanted] at hstep
      have hnext : ∀ batch, mid.state = .acknowledging batch → heldAfter held m = some batch := by
        intro batch hb
        rw [hb] at hstep
        exact hstep.heldAfter_eq held
      rcases hstep.confirms_cases hheld with hnone | ⟨batch, hstate, rfl, hbatch⟩
      · obtain ⟨idle, lost, heq, hidle, hlost⟩ := ih hmid hrest _ hnext
        refine ⟨idle, lost, ?_, hidle, hlost⟩
        exact (congrArg (· ++ _) hnone).trans heq
      · rw [hstate] at hstep
        rcases step_confirmed hstep with ⟨hb, -, -⟩ |
          ⟨passed, first, record, rest, rfl, -, hdecode, hsending, -⟩
        · obtain ⟨idle, lost, heq, hidle, hlost⟩ := ih hmid hrest _ hnext
          refine ⟨batch :: idle, lost, ?_, List.forall_mem_cons.2 ⟨hb, hidle⟩, hlost⟩
          exact (congrArg (· ++ _) hbatch).trans (congrArg (batch :: ·) heq)
        · have hspent : mid.state.IsSpent := hsending ▸ isSpent_sending record rest
          obtain ⟨hs', hnone⟩ :=
            hmid.of_spent hspent hr hrest (heldAfter held (.acknowledged (.ok ())))
          refine ⟨[], [passed ++ first :: rest], ?_, nofun, Nat.le_refl _, ?_⟩
          · exact (congrArg (· ++ _) hbatch).trans (congrArg (_ :: ·) hnone)
          · rintro batch hb
            rw [List.mem_singleton.1 hb]
            exact ⟨by simp [accepted, hdecode], hs'⟩
    · rw [hstate] at ih
      simpa [moves, List.filterMap_cons, hm] using ih hmid hrest held hheld

end System

/-- Over every run of a worker whose reader goes away at some moment, and that is not called off.
From that moment on nothing is delivered. The batches that are still confirmed hold no record, but for
one at most, by which the worker is spent: with the first record of it in hand it can only end, and
nobody sees anything of that. A batch without records does not end the worker; only the provider
could, by calling it off. -/
theorem wastes_one_batch_at_most (w : Worker) (capacity now : Nat) (before after : List Action)
    (hwanted : .cancel ∉ before ++ after) {s : System} {effects : List Effect}
    (hrun : (System.start capacity now).run? w (before ++ .close :: after) = some (s, effects)) :
    (∃ mid seen more, (System.start capacity now).run? w before = some (mid, seen) ∧
      effects = seen ++ more ∧ emitted more = []) ∧
    s.stream.items = [] ∧ s.cancelled = false ∧
    (∃ idle lost, confirmed (moves (before ++ .close :: after)) =
        confirmed (moves before) ++ (idle ++ lost) ∧
      (∀ batch ∈ idle, w.accepted batch = []) ∧ lost.length ≤ 1 ∧
      ∀ batch ∈ lost, w.accepted batch ≠ [] ∧ s.state.IsSpent) ∧
    (∀ batch, s.state = .acknowledging batch →
      ∃ s' new, s.act? w (.move (.acknowledged (.ok ()))) = some (s', new) ∧
        ((w.accepted batch = [] ∧ s'.state = .receiving ∧ new = w.handling batch ++ [.receive]) ∨
          ∃ passed first record rest, batch = passed ++ first :: rest ∧ w.accepted passed = [] ∧
            w.decode first.data = .ok (some record) ∧ s'.state = .sending record rest ∧
            new = w.handling passed)) ∧
    (∀ record rest, s.state = .sending record rest → ∀ m s' new,
      s.act? w (.move m) = some (s', new) ↔ m = .resume ∧ s' = { s with state := .ended } ∧ new = []) ∧
    ∀ m s' new, s.act? w (.move m) = some (s', new) → s'.state = .ended →
      (∃ record rest, s.state = .sending record rest) ∨ m = .received (.error .cancelled) ∨
        m = .acknowledged (.error .cancelled) := by
  have hruns := System.run?_eq_some_iff.1 hrun
  have haccounts := System.accounts_of_runs hruns (Channel.accounts_start capacity)
  obtain ⟨mid, seen, more, hbefore, hafter, rfl⟩ := hruns.split
  rw [List.mem_append, not_or] at hwanted
  cases hafter with
  | @cons _ left _ _ _ first more hclose hrest =>
  cases hclose
  have hmid : System.IsDeserted { mid with stream := mid.stream.close } :=
    ⟨rfl, System.cancelled_of_runs hbefore hwanted.1⟩
  obtain ⟨hs, hmore⟩ := hmid.of_runs hrest hwanted.2
  have hmoves : moves (before ++ .close :: after) = moves before ++ moves after :=
    List.filterMap_append
  refine ⟨⟨mid, seen, more, System.run?_eq_some_iff.2 hbefore, rfl, hmore⟩,
    haccounts.emptied hs.closed, hs.wanted, ?_, ?_, ?_, ?_⟩
  · obtain ⟨idle, lost, heq, hlost⟩ := hmid.confirmedFrom_eq hrest hwanted.2
      ((moves before).foldl heldAfter none) fun batch hb => by
        have hpath := System.path_of_runs hbefore
        rw [show mid.state = .acknowledging batch from hb] at hpath
        exact hpath.foldl_heldAfter_eq fun _ hstart => nomatch hstart
    refine ⟨idle, lost, ?_, hlost⟩
    rw [confirmed, hmoves, confirmedFrom_append, heq]
    rfl
  · intro batch hbatch
    have hstep : Step w false s.now s.stream (.acknowledging batch) (.acknowledged (.ok ())) _ _ _ :=
      .acknowledged rfl
    refine ⟨{ s with state := (w.proceed false batch).1 }, _, System.act?_move_iff.2 ⟨?_, rfl, rfl⟩,
      step_confirmed hstep⟩
    rw [hbatch, hs.wanted]
    exact hstep
  · intro record rest hsending m s' new
    rw [System.act?_move_iff, hsending, hs.wanted, step_sending_iff_of_closed hs.closed]
    constructor
    · rintro ⟨⟨rfl, hend, hstream, rfl⟩, hnow, hc⟩
      refine ⟨rfl, ?_, rfl⟩
      cases s'
      simp_all
    · rintro ⟨rfl, rfl, rfl⟩
      exact ⟨⟨rfl, rfl, rfl, rfl⟩, rfl, rfl⟩
  · intro m s' new ha hend
    have hstep := (System.act?_move_iff.1 ha).1
    rw [hend, hs.wanted] at hstep
    exact hstep.of_ended_cases

/-- Up to here the stream is read; a batch without records waits for its acknowledgement. -/
def whileRead : List Action :=
  [.move .resume, .move (.received (.ok [⟨"a1", [65]⟩, ⟨"a2", [66]⟩])),
    .move (.acknowledged (.ok ())), .move .resume, .take, .move .resume,
    .move (.received (.ok [⟨"b1", []⟩]))]

/-- The next batch with records is not acknowledged, and the one after it is. -/
def onceDeserted : List Action :=
  [.move (.acknowledged (.ok ())), .move (.received (.ok [⟨"c1", [67]⟩])),
    .move (.acknowledged (.error (.transport "reset by peer"))), .tick 60000, .move .resume,
    .move (.received (.ok [⟨"d1", [0, 0]⟩, ⟨"d2", [68]⟩, ⟨"d3", [69]⟩])),
    .move (.acknowledged (.ok ())), .move .resume]

theorem wastes_one_batch_at_most_fourBatches :
    ∃ s effects, Action.cancel ∉ whileRead ++ onceDeserted ∧
      (System.start 1 0).run? byteWorker (whileRead ++ .close :: onceDeserted) = some (s, effects) ∧
      emitted effects = [⟨"p", "i", none, "A"⟩, ⟨"p", "i", none, "B"⟩] ∧ s.state = .ended ∧
      s.stream.items = [] ∧ s.cancelled = false ∧
      (confirmed (moves whileRead)).length = 1 ∧
      ∃ idle lost, confirmed (moves (whileRead ++ .close :: onceDeserted)) =
          confirmed (moves whileRead) ++ (idle ++ lost) ∧
        (∀ batch ∈ idle, byteWorker.accepted batch = []) ∧ lost.length ≤ 1 ∧
        ∀ batch ∈ lost, byteWorker.accepted batch ≠ [] ∧ s.state.IsSpent := by
  have hwanted : Action.cancel ∉ whileRead ++ onceDeserted := by simp [whileRead, onceDeserted]
  have h := wastes_one_batch_at_most byteWorker 1 0 whileRead onceDeserted hwanted rfl
  exact ⟨_, _, hwanted, rfl, rfl, rfl, h.2.1, h.2.2.1, rfl, h.2.2.2.1⟩

end LogRelay.Worker
