/-!
Runs of a machine whose actions are possible or not, and are seen by their effects. The systems of
the relay run their actions in one and the same way; what holds of such runs in general is here.
-/

namespace LogRelay

variable {S A E : Type}

/-- Actions carried out one after the other, with what is seen of them. -/
inductive Runs (act? : S → A → Option (S × List E)) : S → List A → List E → S → Prop
  | nil (s : S) : Runs act? s [] [] s
  | cons {s mid s' : S} {a : A} {actions : List A} {first more : List E}
      (ha : act? s a = some (mid, first)) (hr : Runs act? mid actions more s') :
      Runs act? s (a :: actions) (first ++ more) s'

namespace Runs

variable {act? : S → A → Option (S × List E)} {s mid s' : S} {a : A} {actions : List A}
  {effects more : List E}

/-- A function that carries out actions from the first to the last computes the runs. -/
theorem of_recursion {run? : S → List A → Option (S × List E)}
    (hnil : ∀ s, run? s [] = some (s, []))
    (hcons : ∀ s a rest, run? s (a :: rest) =
      (act? s a).bind fun x => (run? x.1 rest).bind fun y => some (y.1, x.2 ++ y.2)) :
    run? s actions = some (s', effects) ↔ Runs act? s actions effects s' := by
  constructor
  · intro h
    induction actions generalizing s effects with
    | nil =>
      rw [hnil] at h
      cases h
      exact .nil _
    | cons a rest ih =>
      rw [hcons] at h
      obtain ⟨⟨mid, first⟩, ha, h⟩ := Option.bind_eq_some_iff.1 h
      obtain ⟨⟨last, more⟩, hr, h⟩ := Option.bind_eq_some_iff.1 h
      cases h
      exact .cons ha (ih hr)
  · intro h
    induction h with
    | nil => exact hnil _
    | cons ha _ ih => simp [hcons, ha, ih]

theorem append {xs ys : List A} (hx : Runs act? s xs effects mid) (hy : Runs act? mid ys more s') :
    Runs act? s (xs ++ ys) (effects ++ more) s' := by
  induction hx with
  | nil => exact hy
  | cons ha _ ih =>
    rw [List.append_assoc]
    exact .cons ha (ih hy)

theorem single (ha : act? s a = some (s', effects)) : Runs act? s [a] effects s' := by
  have h := Runs.cons ha (.nil s')
  rwa [List.append_nil] at h

theorem snoc (hr : Runs act? s actions effects mid) (ha : act? mid a = some (s', more)) :
    Runs act? s (actions ++ [a]) (effects ++ more) s' :=
  hr.append (.single ha)

/-- A run can be cut at every action. -/
theorem split {xs ys : List A} (h : Runs act? s (xs ++ ys) effects s') :
    ∃ mid first more, Runs act? s xs first mid ∧ Runs act? mid ys more s' ∧
      effects = first ++ more := by
  induction xs generalizing s effects with
  | nil => exact ⟨s, [], effects, .nil s, h, rfl⟩
  | cons a xs ih =>
    cases h with
    | cons ha hr =>
      obtain ⟨mid, first, more, hx, hy, rfl⟩ := ih hr
      exact ⟨mid, _, more, .cons ha hx, hy, (List.append_assoc ..).symm⟩

theorem functional {s₁ s₂ : S} {es₁ es₂ : List E} (h₁ : Runs act? s actions es₁ s₁)
    (h₂ : Runs act? s actions es₂ s₂) : s₁ = s₂ ∧ es₁ = es₂ := by
  induction h₁ generalizing es₂ with
  | nil => cases h₂; exact ⟨rfl, rfl⟩
  | cons ha₁ _ ih =>
    cases h₂ with
    | cons ha₂ hr₂ =>
      obtain ⟨rfl, rfl⟩ : _ ∧ _ := by simpa [ha₁] using ha₂
      obtain ⟨rfl, rfl⟩ := ih hr₂
      exact ⟨rfl, rfl⟩

/-- What every action keeps, a run keeps. -/
theorem invariant {p : S → Prop} (hp : ∀ s a s' es, p s → act? s a = some (s', es) → p s')
    (h : Runs act? s actions effects s') (hs : p s) : p s' := by
  induction h with
  | nil => exact hs
  | cons ha _ ih => exact ih (hp _ _ _ _ hs ha)

/-- A property that comes to hold along a run is brought about by one of its actions. -/
theorem exists_entering {p : S → Prop} (h : Runs act? s actions effects s') (hs : ¬ p s)
    (hs' : p s') :
    ∃ before a after mid next seen first, actions = before ++ a :: after ∧
      Runs act? s before seen mid ∧ ¬ p mid ∧ act? mid a = some (next, first) ∧ p next := by
  induction h with
  | nil => exact absurd hs' hs
  | @cons s mid s' a actions first more ha _ ih =>
    by_cases hmid : p mid
    · exact ⟨[], a, actions, s, mid, [], first, rfl, .nil s, hs, ha, hmid⟩
    · obtain ⟨before, b, after, last, next, seen, new, rfl, hbefore, hlast, hb, hnext⟩ :=
        ih hmid hs'
      exact ⟨a :: before, b, after, last, next, _, new, rfl, .cons ha hbefore, hlast, hb, hnext⟩

end Runs

/-- Whenever an action of a run is carried out, `P` holds of the state before it and of the action. -/
def Throughout (act? : S → A → Option (S × List E)) (P : S → A → Prop) (s : S) (actions : List A) :
    Prop :=
  ∀ before a after effects mid, actions = before ++ a :: after → Runs act? s before effects mid →
    P mid a

namespace Throughout

variable {act? : S → A → Option (S × List E)} {P : S → A → Prop} {s mid : S} {a : A}
  {actions : List A} {first : List E}

theorem nil (s : S) : Throughout act? P s [] := by
  intro before a after effects mid hactions
  simp at hactions

theorem cons (hP : P s a) (ha : act? s a = some (mid, first)) (h : Throughout act? P mid actions) :
    Throughout act? P s (a :: actions) := by
  intro before b after effects last hactions hruns
  cases hruns with
  | nil => cases hactions; exact hP
  | cons hb hruns =>
    obtain ⟨rfl, hrest⟩ := List.cons.inj hactions
    obtain ⟨rfl, -⟩ : _ ∧ _ := by simpa [ha] using hb
    exact h _ b after _ last hrest hruns

theorem head (h : Throughout act? P s (a :: actions)) : P s a :=
  h [] a actions [] s rfl (.nil s)

theorem tail (h : Throughout act? P s (a :: actions)) (ha : act? s a = some (mid, first)) :
    Throughout act? P mid actions := by
  intro before b after effects last hactions hruns
  exact h (a :: before) b after _ last (congrArg (a :: ·) hactions) (.cons ha hruns)

end Throughout

/-- What the actions of a run bring to whoever looks at each of them before it is carried out. -/
def gather {X : Type} (act? : S → A → Option (S × List E)) (look : S → A → List X) :
    S → List A → List X
  | _, [] => []
  | s, a :: rest =>
    match act? s a with
    | none => []
    | some (s', _) => look s a ++ gather act? look s' rest

theorem gather_cons {X : Type} {act? : S → A → Option (S × List E)} {look : S → A → List X}
    {s mid : S} {a : A} {first : List E} (ha : act? s a = some (mid, first)) (rest : List A) :
    gather act? look s (a :: rest) = look s a ++ gather act? look mid rest := by
  simp [gather, ha]

end LogRelay
