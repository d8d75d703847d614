import LogRelay.Proofs.Pipeline.Run
import LogRelay.Proofs.Worker.Fruitless
import Mathlib.Data.Nat.Nth

/-!
A pipeline without some of its subscriptions. The others keep their order and close the gaps, so what
their workers do is told under new numbers; everything else is as it was.
-/

namespace LogRelay.Pipeline

/-- What is left of a list without some places. -/
def others {α : Type} (out : Nat → Bool) : List α → List α
  | [] => []
  | a :: l =>
    if out 0 then others (fun i => out (i + 1)) l else a :: others (fun i => out (i + 1)) l

/-- Where a place is among those that are left. -/
def rank (out : Nat → Bool) (i : Nat) : Nat := Nat.count (fun j => out j = false) i

namespace Action

/-- The action under its new number, unless it is one of a worker that is left out. -/
def without? (out : Nat → Bool) : Action → Option Action
  | worker i m => if out i then none else some (worker (rank out i) m)
  | a => some a

end Action

namespace Effect

/-- The effect under its new number, unless it is one of a worker that is left out. -/
def without? (out : Nat → Bool) : Effect → Option Effect
  | worker i e => if out i then none else some (worker (rank out i) e)
  | e => some e

end Effect

/-- The actions that are left. -/
def actionsWithout (out : Nat → Bool) (actions : List Action) : List Action :=
  actions.filterMap (Action.without? out)

/-- What is seen of them. -/
def effectsWithout (out : Nat → Bool) (effects : List Effect) : List Effect :=
  effects.filterMap (Effect.without? out)

/-- The pipeline with the other subscriptions alone. -/
def without (out : Nat → Bool) (p : Pipeline) : Pipeline :=
  { p with subscriptions := others out p.subscriptions }

/-! ### Places -/

section

variable {α β : Type} {out : Nat → Bool} {i j n : Nat} {a : α}

theorem rank_succ (out : Nat → Bool) (i : Nat) :
    rank out (i + 1) = rank (fun j => out (j + 1)) i + if out 0 then 0 else 1 := by
  rw [rank, Nat.count_succ']
  cases out 0 <;> rfl

theorem rank_inj (hi : out i = false) (hj : out j = false) : rank out i = rank out j ↔ i = j :=
  ⟨Nat.count_injective (p := fun k => out k = false) hi hj, congrArg _⟩

/-- Every number is that of a place which is left. -/
theorem exists_rank_eq (hout : ∀ i, out i = true → i < n) (k : Nat) :
    ∃ i, out i = false ∧ rank out i = k := by
  have hinf : {i | out i = false}.Infinite := by
    refine Set.infinite_of_forall_exists_gt fun a => ⟨max a n + 1, ?_, by omega⟩
    refine Bool.eq_false_iff.2 fun h => ?_
    have := hout _ h
    omega
  exact ⟨Nat.nth _ k, Nat.nth_mem_of_infinite hinf k, Nat.count_nth_of_infinite hinf k⟩

theorem getElem?_others (hi : out i = false) (l : List α) :
    (others out l)[rank out i]? = l[i]? := by
  induction l generalizing out i with
  | nil => simp [others]
  | cons a l ih =>
    cases i with
    | zero => simp [others, hi, rank]
    | succ i =>
      have hl := @ih (fun j => out (j + 1)) i hi
      cases h : out 0 <;> simp [others, rank_succ, h, hl]

theorem others_set_of_out (hi : out i = true) (l : List α) (a : α) :
    others out (l.set i a) = others out l := by
  induction l generalizing out i with
  | nil => rfl
  | cons b l ih =>
    cases i with
    | zero => simp [others, hi]
    | succ i =>
      have hl := @ih (fun j => out (j + 1)) i hi
      cases h : out 0 <;> simp [others, h, hl]

theorem others_set (hi : out i = false) (l : List α) (a : α) :
    others out (l.set i a) = (others out l).set (rank out i) a := by
  induction l generalizing out i with
  | nil => rfl
  | cons b l ih =>
    cases i with
    | zero => simp [others, hi, rank]
    | succ i =>
      have hl := @ih (fun j => out (j + 1)) i hi
      cases h : out 0 <;> simp [others, rank_succ, h, hl]

theorem mem_of_mem_others {l : List α} (h : a ∈ others out l) : a ∈ l := by
  induction l generalizing out with
  | nil => exact h
  | cons b l ih =>
    cases hb : out 0 with
    | true =>
      simp only [others, hb, if_true] at h
      exact List.mem_cons_of_mem b (ih h)
    | false =>
      simp only [others, hb, Bool.false_eq_true, if_false] at h
      rcases List.mem_cons.1 h with rfl | h
      · exact List.mem_cons_self
      · exact List.mem_cons_of_mem b (ih h)

theorem others_map (out : Nat → Bool) (f : α → β) (l : List α) :
    others out (l.map f) = (others out l).map f := by
  induction l generalizing out with
  | nil => rfl
  | cons a l ih => cases h : out 0 <;> simp [others, h, ih]

end

/-! ### What is left of a run -/

variable {out : Nat → Bool} {workers : List Worker} {p p' p₀ : Pipeline} {a : Action}
  {actions : List Action} {effects : List Effect} {i : Nat}

/-- What is left of a pipeline is the pipeline that starts with the workers that are left. -/
theorem make?_others {settings : Settings} {parser : Postgres.LineParser} {now : Nat}
    {sink : Channel RoutedLine} (h : make? settings parser workers now sink = some p₀) :
    make? settings parser (others out workers) now sink = some (p₀.without out) := by
  obtain ⟨hroom, rfl⟩ := make?_eq_some_iff.1 h
  refine make?_eq_some_iff.2 ⟨hroom, ?_⟩
  rw [without, others_map]

theorem isOpen_of_without (h : (p.without out).isOpen = true) : p.isOpen = true := by
  obtain ⟨s, hs, hlive⟩ := List.any_eq_true.1 h
  exact List.any_eq_true.2 ⟨s, mem_of_mem_others hs, hlive⟩

theorem movesOf_actionsWithout (hi : out i = false) (actions : List Action) :
    movesOf (rank out i) (actionsWithout out actions) = movesOf i actions := by
  rw [movesOf, actionsWithout, List.filterMap_filterMap, movesOf]
  congr 1
  funext a
  cases a with
  | worker j m =>
    cases hj : out j with
    | true =>
      have hne : j ≠ i := fun h => by simp [h, hi] at hj
      simp [Action.without?, Action.moveOf?, hj, hne]
    | false => simp [Action.without?, Action.moveOf?, hj, rank_inj hj hi]
  | _ => rfl

theorem ofWorker_effectsWithout (hi : out i = false) (effects : List Effect) :
    ofWorker (rank out i) (effectsWithout out effects) = ofWorker i effects := by
  rw [ofWorker, effectsWithout, List.filterMap_filterMap, ofWorker]
  congr 1
  funext e
  cases e with
  | worker j e =>
    cases hj : out j with
    | true =>
      have hne : j ≠ i := fun h => by simp [h, hi] at hj
      simp [Effect.without?, Effect.ofWorker?, hj, hne]
    | false => simp [Effect.without?, Effect.ofWorker?, hj, rank_inj hj hi]
  | _ => rfl

theorem ofTransformer_effectsWithout (out : Nat → Bool) (effects : List Effect) :
    ofTransformer (effectsWithout out effects) = ofTransformer effects := by
  rw [ofTransformer, effectsWithout, List.filterMap_filterMap, ofTransformer]
  congr 1
  funext e
  cases e with
  | worker j e => cases hj : out j <;> simp [Effect.without?, Effect.ofTransformer?, hj]
  | _ => rfl

theorem linesRead_effectsWithout (out : Nat → Bool) (effects : List Effect) :
    linesRead (effectsWithout out effects) = linesRead effects := by
  rw [linesRead, effectsWithout, List.filterMap_filterMap, linesRead]
  congr 1
  funext e
  cases e with
  | worker j e => cases hj : out j <;> simp [Effect.without?, Effect.line?, hj]
  | _ => rfl

/-- An effect that is left is the same event, of the same server. -/
theorem event?_without {e e' : Effect} (h : e.without? out = some e') :
    (p.without out).event? e' = p.event? e := by
  cases e with
  | worker i e =>
    cases hi : out i with
    | true => simp [Effect.without?, hi] at h
    | false =>
      simp only [Effect.without?, hi, Bool.false_eq_true, if_false, Option.some.injEq] at h
      subst h
      have hs : (p.without out).subscriptions[rank out i]? = p.subscriptions[i]? :=
        getElem?_others hi _
      cases e <;> simp [event?, hs]
  | transformer e => cases h; cases e <;> rfl
  | line line => cases h; rfl

theorem actionsWithout_cons (out : Nat → Bool) (a : Action) (actions : List Action) :
    actionsWithout out (a :: actions) = (a.without? out).toList ++ actionsWithout out actions := by
  cases h : a.without? out <;> simp [actionsWithout, h]

theorem Action.without?_eq_none_iff :
    a.without? out = none ↔ ∃ i m, a = .worker i m ∧ out i = true := by
  cases a with
  | worker i m => cases hi : out i <;> simp [without?, hi]
  | _ => simp [without?]

theorem effectsWithout_append (out : Nat → Bool) (xs ys : List Effect) :
    effectsWithout out (xs ++ ys) = effectsWithout out xs ++ effectsWithout out ys :=
  List.filterMap_append

theorem effectsWithout_of_out (hi : out i = true) (es : List Worker.Effect) :
    effectsWithout out (es.map (.worker i)) = [] := by
  simp [effectsWithout, Effect.without?, hi]

theorem effectsWithout_worker (hi : out i = false) (es : List Worker.Effect) :
    effectsWithout out (es.map (.worker i)) = es.map (.worker (rank out i)) := by
  simp [effectsWithout, Effect.without?, hi, List.filterMap_map, Function.comp_def]

theorem effectsWithout_transformer (out : Nat → Bool) (es : List Transformer.Effect) :
    effectsWithout out (es.map .transformer) = es.map .transformer := by
  simp [effectsWithout, Effect.without?, List.filterMap_map, Function.comp_def]

/-! ### Leaving workers out -/

/-- No worker that is left out has a record in hand. -/
def Quiet (out : Nat → Bool) (p : Pipeline) : Prop :=
  ∀ i s, out i = true → p.subscriptions[i]? = some s → s.state.inHand? = none

/-- The workers that are left out come by no record. -/
def Fruitless (out : Nat → Bool) (workers : List Worker) (actions : List Action) : Prop :=
  ∀ i w, out i = true → workers[i]? = some w → w.Fruitless (movesOf i actions)

/-- A step of a worker that is left out changes nothing that is left; any other step is a step of
what is left. -/
theorem Step.without (h : p.Step a p' effects) (hq : p.Quiet out) :
    Runs act? (p.without out) (a.without? out).toList (effectsWithout out effects)
      (p'.without out) := by
  cases h with
  | @worker i m s state stream es hs hstep =>
    cases hi : out i with
    | true =>
      obtain ⟨rfl, -⟩ := hstep.elsewhere (hq i s hi hs) p.stream
      have hsame : others out (p.subscriptions.set i { s with state }) =
          others out p.subscriptions := others_set_of_out hi _ _
      rw [effectsWithout_of_out hi]
      simp only [Action.without?, hi, if_true, Option.toList_none, Pipeline.without, hsame]
      exact .nil _
    | false =>
      have hs' : (p.without out).subscriptions[rank out i]? = some s :=
        (getElem?_others hi _).trans hs
      have hset : others out (p.subscriptions.set i { s with state }) =
          (others out p.subscriptions).set (rank out i) { s with state } := others_set hi _ _
      have hact := act?_eq_some_iff.2 (Step.worker (p := p.without out) hs' hstep)
      rw [effectsWithout_worker hi]
      simp only [Action.without?, hi, Bool.false_eq_true, if_false, Option.toList_some]
      refine .single (hact.trans ?_)
      rw [Pipeline.without, Pipeline.without, hset]
  | @transformer state stream sink es hstep =>
    rw [effectsWithout_transformer]
    refine .single (act?_eq_some_iff.2 (Step.transformer (p := p.without out) ?_))
    refine hstep.with_senders fun _ _ _ hopen => ?_
    refine Bool.eq_false_iff.2 fun hleft => ?_
    rw [isOpen_of_without hleft] at hopen
    cases hopen
  | take ht => exact .single (act?_eq_some_iff.2 (Step.take (p := p.without out) ht))
  | closeSink => exact .single rfl
  | cancel => exact .single rfl
  | tick n => exact .single rfl

/-- As long as the workers that are left out have no record in hand, what is left of a run is a run
of what is left. -/
theorem runs_without (h : Runs act? p actions effects p')
    (hq : Throughout act? (fun q _ => q.Quiet out) p actions) :
    Runs act? (p.without out) (actionsWithout out actions) (effectsWithout out effects)
      (p'.without out) := by
  induction h with
  | nil => exact .nil _
  | cons ha _ ih =>
    rw [actionsWithout_cons, effectsWithout_append]
    exact ((act?_eq_some_iff.1 ha).without hq.head).append (ih (hq.tail ha))

theorem Fruitless.of_append {xs ys : List Action} (h : Fruitless out workers (xs ++ ys)) :
    Fruitless out workers xs := by
  intro i w hi hw
  have hmoves := h i w hi hw
  rw [movesOf, List.filterMap_append] at hmoves
  exact hmoves.of_append

/-- From the start on, a fruitless worker never has a record in hand. -/
theorem quiet_of_fruitless (hstart : p.subscriptions = workers.map fun worker => { worker })
    (h : Runs act? p actions effects p') (hf : Fruitless out workers actions) : p'.Quiet out := by
  intro i s hi hs
  have hlen : i < p.subscriptions.length := by
    rw [← length_subscriptions_of_runs h]
    exact (List.getElem?_eq_some_iff.1 hs).1
  rw [hstart, List.length_map] at hlen
  have hw : workers[i]? = some workers[i] := List.getElem?_eq_getElem hlen
  have hfirst : p.subscriptions[i]? = some { worker := workers[i] } := by simp [hstart, hlen]
  obtain ⟨state, hlast, hpath⟩ := worker_path_of_runs h hfirst
  rw [hlast] at hs
  cases hs
  exact hpath.inHand?_eq_none (hf i _ hi hw)

theorem throughout_quiet (hstart : p.subscriptions = workers.map fun worker => { worker })
    (hf : Fruitless out workers actions) :
    Throughout act? (fun q _ => q.Quiet out) p actions := by
  rintro before a after effects mid rfl hruns
  exact quiet_of_fruitless hstart hruns hf.of_append

end LogRelay.Pipeline
