import LogRelay.Proofs.Worker.Run

/-!
A worker by the clock. Its timeline holds every move and everything that is seen of it, each at its
time, but for the move that ends it, of which nothing is seen. The timeline is cut at the calls for
messages, and each call has what follows it up to the next one.
-/

namespace LogRelay.Worker

/-- One thing on a timeline: that the worker moves, or what others see of its move. -/
inductive Sight where
  | moved (m : Move)
  | seen (e : Effect)

namespace Sight

/-- What others see. -/
def effect? : Sight → Option Effect
  | seen e => some e
  | moved _ => none

/-- Whether a call for messages begins. -/
def isCall : Sight → Bool
  | seen .receive => true
  | _ => false

end Sight

/-- Things that happen to a worker, each with its time. -/
abbrev Timeline := List (Nat × Sight)

/-- A move at a time, and what is seen of it. -/
def entries (now : Nat) (m : Move) (effects : List Effect) : Timeline :=
  (now, .moved m) :: effects.map (now, .seen ·)

/-- A call for messages, with what follows it up to the next one. -/
structure Call where
  start : Nat
  events : Timeline

/-- What comes before the next call. -/
def untilCall (l : Timeline) : Timeline := l.takeWhile (!·.2.isCall)

/-- The calls on a timeline. -/
def calls : Timeline → List Call
  | [] => []
  | (t, x) :: rest => if x.isCall then ⟨t, untilCall rest⟩ :: calls rest else calls rest

namespace System

/-- What an action puts on the timeline. -/
def sights (w : Worker) (s : System) : Action → Timeline
  | .move m =>
    match s.act? w (.move m) with
    | some (s', effects) => if s'.state = .ended then [] else entries s.now m effects
    | none => []
  | _ => []

/-- What happens to a worker in the course of the actions. -/
def timeline (w : Worker) (s : System) (actions : List Action) : Timeline :=
  gather (act? w) (sights w) s actions

end System

variable {w : Worker} {now t : Nat} {m : Move} {l rest : Timeline} {es : List Effect}

/-! ### Cutting a timeline -/

theorem untilCall_append (hl : ∀ x ∈ l, x.2.isCall = false) :
    untilCall (l ++ rest) = l ++ untilCall rest :=
  List.takeWhile_append_of_pos fun x hx => by simp [hl x hx]

theorem calls_append (hl : ∀ x ∈ l, x.2.isCall = false) : calls (l ++ rest) = calls rest := by
  induction l with
  | nil => rfl
  | cons x l ih =>
    have hx := hl x List.mem_cons_self
    have hrest := ih fun y hy => hl y (List.mem_cons_of_mem x hy)
    simp [calls, hx, hrest]

theorem untilCall_call : untilCall ((t, .seen .receive) :: rest) = [] := rfl

theorem calls_call : calls ((t, .seen .receive) :: rest) = ⟨t, untilCall rest⟩ :: calls rest := rfl

/-- A move that begins no call is no cut. -/
theorem not_isCall_of_mem_entries (now : Nat) (m : Move) (hes : .receive ∉ es) :
    ∀ x ∈ entries now m es, x.2.isCall = false := by
  intro x hx
  rcases List.mem_cons.1 hx with rfl | hx
  · rfl
  · obtain ⟨e, he, rfl⟩ := List.mem_map.1 hx
    cases e with
    | receive => exact absurd he hes
    | _ => rfl

theorem entries_append (now : Nat) (m : Move) (es more : List Effect) :
    entries now m (es ++ more) = entries now m es ++ more.map (now, .seen ·) := by
  simp [entries]

theorem filterMap_entries (now : Nat) (m : Move) (es : List Effect) :
    (entries now m es).filterMap (·.2.effect?) = es := by
  rw [entries, List.filterMap_cons_none rfl, List.filterMap_map]
  exact List.filterMap_some

/-! ### Timelines of runs -/

namespace System

variable {s s' mid : System} {a : Action} {actions : List Action} {first effects : List Effect}

theorem timeline_cons (ha : s.act? w a = some (mid, first)) (actions : List Action) :
    s.timeline w (a :: actions) = s.sights w a ++ mid.timeline w actions :=
  gather_cons ha actions

theorem sights_move (ha : s.act? w (.move m) = some (mid, first)) (hlive : mid.state ≠ .ended) :
    s.sights w (.move m) = entries s.now m first := by
  simp [sights, ha, hlive]

theorem sights_of_ended (ha : s.act? w a = some (mid, first)) (hend : mid.state = .ended) :
    s.sights w a = [] := by
  cases a with
  | move m => simp [sights, ha, hend]
  | _ => rfl

theorem sights_of_not_move (ha : a.ownMove? = none) : s.sights w a = [] := by
  cases a with
  | move m => cases ha
  | _ => rfl

/-- A worker that has ended adds nothing to its timeline. -/
theorem timeline_of_ended (h : Runs (act? w) s actions effects s') (hs : s.state = .ended) :
    s.timeline w actions = [] := by
  induction h with
  | nil => rfl
  | @cons s mid _ a actions first _ ha _ ih =>
    rcases act?_cases ha with ⟨m, rfl, hstep⟩ | ⟨hm, hstate, -⟩
    · exact absurd (hs ▸ hstep) not_step_ended
    · rw [timeline_cons ha, sights_of_not_move hm, ih (hstate.trans hs)]
      rfl

/-- The timeline holds all that is seen. -/
theorem filterMap_timeline (h : Runs (act? w) s actions effects s') :
    (s.timeline w actions).filterMap (·.2.effect?) = effects := by
  induction h with
  | nil => rfl
  | @cons s mid _ a actions first more ha _ ih =>
    have hfirst : (s.sights w a).filterMap (·.2.effect?) = first := by
      rcases act?_cases ha with ⟨m, rfl, hstep⟩ | ⟨hm, -, rfl⟩
      · by_cases hend : mid.state = .ended
        · rw [sights_of_ended ha hend]
          rw [hend] at hstep
          exact hstep.of_ended.1.symm
        · rw [sights_move ha hend, filterMap_entries]
      · rw [sights_of_not_move hm]
        rfl
    rw [timeline_cons ha, List.filterMap_append, hfirst, ih]

/-- Time never goes back. -/
theorem now_le_of_act? (ha : s.act? w a = some (s', effects)) : s.now ≤ s'.now := by
  cases a with
  | move m => exact Nat.le_of_eq (act?_move_iff.1 ha).2.1.symm
  | take =>
    obtain ⟨_, -, hs⟩ := Option.map_eq_some_iff.1 ha
    cases hs
    exact Nat.le_refl _
  | close => cases ha; exact Nat.le_refl _
  | cancel => cases ha; exact Nat.le_refl _
  | tick n => cases ha; exact Nat.le_add_right _ _

end System

end LogRelay.Worker
