import LogRelay.Proofs.Worker.Run

/-!
What ends a worker. It ends when it or one of its calls is called off, or when a record finds no
reader, and never because something failed. Ending is a move like any other, but nobody sees it.
-/

namespace LogRelay.Worker

variable {w : Worker} {cancelled : Bool} {now wake : Nat} {stream stream' : Channel Record}
  {state state' : State} {m : Move} {effects : List Effect}

/-- Why a worker ends by a move. -/
inductive EndsBy (cancelled : Bool) (stream : Channel Record) : State → Move → Prop
  | calledOff {state : State} {m : Move} (hs : state ≠ .ended) (hc : cancelled = true) :
      EndsBy cancelled stream state m
  | receiveCancelled : EndsBy cancelled stream .receiving (.received (.error .cancelled))
  | acknowledgeCancelled {batch : List Message} :
      EndsBy cancelled stream (.acknowledging batch) (.acknowledged (.error .cancelled))
  | streamClosed {record : Record} {rest : List Message} (hclosed : stream.send record = .closed) :
      EndsBy cancelled stream (.sending record rest) .resume

/-- What ends a worker can always do so, and is not seen by anyone. -/
theorem EndsBy.step (h : EndsBy cancelled stream state m) :
    Step w cancelled now stream state m .ended stream [] := by
  cases hc : cancelled with
  | true =>
    have hs : state ≠ .ended := by rintro rfl; cases h; contradiction
    exact .calledOff hs rfl
  | false =>
    subst hc
    cases h with
    | calledOff _ hc => cases hc
    | receiveCancelled => exact .receiveCancelled rfl
    | acknowledgeCancelled => exact .acknowledgeCancelled rfl
    | streamClosed hclosed => exact .streamClosed rfl hclosed

/-- Only these ends are ends. -/
theorem Step.ended_iff (h : Step w cancelled now stream state m state' stream' effects) :
    state' = .ended ↔ EndsBy cancelled stream state m := by
  constructor
  · intro hend
    cases h with
    | calledOff hs hc => exact .calledOff hs hc
    | receiveCancelled => exact .receiveCancelled
    | acknowledgeCancelled => exact .acknowledgeCancelled
    | streamClosed _ hclosed => exact .streamClosed hclosed
    | acknowledged => exact absurd hend (proceed_ne_ended _)
    | sent => exact absurd hend (proceed_ne_ended _)
    | _ => cases hend
  · intro he
    have hmove := move?_of_step h
    rw [move?_of_step he.step] at hmove
    cases hmove
    rfl

/-- A branch that is ready when a worker that rests looks around: its sleep may be over, and it may be
called off. If both are ready, either may be taken. -/
inductive CoolDownBranch (cancelled : Bool) (now wake : Nat) : State → List Effect → Prop
  | slept (hw : wake ≤ now) :
      CoolDownBranch cancelled now wake (begin cancelled).1 (begin cancelled).2
  | calledOff (hc : cancelled = true) : CoolDownBranch cancelled now wake .ended []

theorem CoolDownBranch.ended (h : CoolDownBranch true now wake state' effects) :
    state' = .ended ∧ effects = [] := by
  cases h with
  | slept => exact ⟨rfl, rfl⟩
  | calledOff => exact ⟨rfl, rfl⟩

/-- Whichever branch is taken, it is the move that the worker makes. -/
theorem step_coolingDown_iff :
    Step w cancelled now stream (.coolingDown wake) .resume state' stream' effects ↔
      stream' = stream ∧ CoolDownBranch cancelled now wake state' effects := by
  constructor
  · intro h
    cases h with
    | calledOff hs hc => exact ⟨rfl, .calledOff hc⟩
    | rested hc hw =>
      subst hc
      exact ⟨rfl, .slept hw⟩
  · rintro ⟨rfl, h⟩
    cases hc : cancelled with
    | true =>
      subst hc
      obtain ⟨rfl, rfl⟩ := h.ended
      exact .calledOff nofun rfl
    | false =>
      subst hc
      cases h with
      | slept hw => exact .rested rfl hw
      | calledOff hc => cases hc

namespace System

variable {s s' : System} {actions : List Action} {new : List Effect}

/-- Why the worker ends by a move that it makes now. -/
abbrev EndsBy (s : System) (m : Move) : Prop := Worker.EndsBy s.cancelled s.stream s.state m

theorem act?_of_endsBy (h : s.EndsBy m) :
    s.act? w (.move m) = some ({ s with state := .ended }, []) :=
  act?_move_iff.2 ⟨h.step, rfl, rfl⟩

theorem ended_iff_endsBy (h : s.act? w (.move m) = some (s', new)) :
    s'.state = .ended ↔ s.EndsBy m :=
  (act?_move_iff.1 h).1.ended_iff

/-- There is no life after the end. -/
theorem ended_of_runs (h : Runs (act? w) s actions effects s') (hs : s.state = .ended) :
    s'.state = .ended := by
  refine h.invariant (p := fun s => s.state = .ended) (fun s a s' es hs ha => ?_) hs
  rcases act?_cases ha with ⟨m, rfl, hstep⟩ | ⟨-, hstate, -⟩
  · exact absurd (hs ▸ hstep) not_step_ended
  · exact hstate.trans hs

theorem ended_iff (h : Runs (act? w) s actions effects s') (hs : s.state ≠ .ended) :
    s'.state = .ended ↔ ∃ before m after mid seen, actions = before ++ .move m :: after ∧
      Runs (act? w) s before seen mid ∧ mid.EndsBy m := by
  constructor
  · intro hend
    induction h with
    | nil => exact absurd hend hs
    | @cons s mid s' a actions first more ha _ ih =>
      by_cases hmid : mid.state = .ended
      · rcases act?_cases ha with ⟨m, rfl, -⟩ | ⟨-, hstate, -⟩
        · exact ⟨[], m, actions, s, [], rfl, .nil s, (ended_iff_endsBy ha).1 hmid⟩
        · exact absurd (hstate.symm.trans hmid) hs
      · obtain ⟨before, m, after, last, seen, rfl, hr, he⟩ := ih hmid hend
        exact ⟨a :: before, m, after, last, _, rfl, .cons ha hr, he⟩
  · rintro ⟨before, m, after, mid, seen, rfl, hr, he⟩
    obtain ⟨mid', first, more, hbefore, hafter, -⟩ := h.split
    obtain ⟨rfl, -⟩ := hbefore.functional hr
    cases hafter with
    | cons ha hrest => exact ended_of_runs hrest ((ended_iff_endsBy ha).2 he)

end System

/-- Over every run of a worker. It has ended exactly if one of its moves was an end; a move of a
reachable worker is an end exactly if the worker is called off, a call comes back as called off, or a
record finds the stream closed. Once it is called off, its next move ends it wherever it is, and
nobody sees anything of that. In a rest this is so whichever ready branch is taken. -/
theorem ends_only_when_called_off_or_closed (w : Worker) (capacity now : Nat)
    (actions : List Action) {s : System} {effects : List Effect}
    (hrun : (System.start capacity now).run? w actions = some (s, effects)) :
    (s.state = .ended ↔ ∃ before m after mid seen, actions = before ++ .move m :: after ∧
      (System.start capacity now).run? w before = some (mid, seen) ∧ mid.EndsBy m) ∧
    (∀ m s' new, s.act? w (.move m) = some (s', new) → (s'.state = .ended ↔ s.EndsBy m)) ∧
    (s.cancelled = true → s.state ≠ .ended →
      ∀ m, s.act? w (.move m) = some ({ s with state := .ended }, [])) ∧
    ∀ wake, s.state = .coolingDown wake → ∀ state' new,
      CoolDownBranch s.cancelled s.now wake state' new →
        s.act? w (.move .resume) = some ({ s with state := state' }, new) ∧
          (s.cancelled = true → state' = .ended ∧ new = []) := by
  have hruns := System.run?_eq_some_iff.1 hrun
  refine ⟨?_, fun m s' new => System.ended_iff_endsBy, fun hc hs m => ?_, ?_⟩
  · simp only [System.run?_eq_some_iff]
    exact System.ended_iff hruns nofun
  · exact System.act?_of_endsBy (.calledOff hs hc)
  · intro wake hs state' new hb
    refine ⟨System.act?_move_iff.2 ⟨?_, rfl, rfl⟩, fun hc => (hc ▸ hb).ended⟩
    rw [hs]
    exact step_coolingDown_iff.2 ⟨rfl, hb⟩

/-- A failed call, and a rest that is over just when the worker is called off. -/
def calledOffOnWaking : List Action :=
  [.move .resume, .move (.received (.error (.transport "reset by peer"))), .tick 60000, .cancel]

theorem ends_when_called_off_on_waking :
    ∃ s effects, (System.start 1 0).run? byteWorker calledOffOnWaking = some (s, effects) ∧
      s.state = .coolingDown 60000 ∧ s.now = 60000 ∧
      s.act? byteWorker (.move .resume) = some ({ s with state := .ended }, []) := by
  have h := ends_only_when_called_off_or_closed byteWorker 1 0 calledOffOnWaking rfl
  exact ⟨_, _, rfl, rfl, rfl, h.2.2.1 rfl nofun .resume⟩

end LogRelay.Worker
