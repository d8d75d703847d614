import LogRelay.Proofs.Pipeline.Omission
import LogRelay.Proofs.Worker.Run

/-!
Subscriptions that come to nothing do not affect the others. A run of the pipeline goes on in the same
way when all that their workers do is left out of it; and whatever such workers can do by themselves
can be added to a run without them, as long as the transformer does not end for want of senders.

A worker that can still move may always bring a record, so a pipeline without it may run out of senders
earlier; that is the only thing in which the two can differ.
-/

namespace LogRelay.Pipeline

/-- The transformer waits for a record and finds that none can come any more. -/
structure RanOut (p : Pipeline) : Prop where
  waiting : p.transformer = .waiting
  live : p.cancelled = false
  emptied : p.stream.take? = none
  senderless : p.isOpen = false

/-- The action does not end the transformer for want of senders. -/
def Supplied (p : Pipeline) (a : Action) : Prop := a = .transformer → ¬ p.RanOut

/-- What a worker by itself meets of an action: its own moves, the time and the cancellation. -/
def Action.alone? (i : Nat) : Action → Option Worker.Action
  | worker j m => if j = i then some (.move m) else none
  | cancel => some .cancel
  | tick n => some (.tick n)
  | _ => none

def alone (i : Nat) (actions : List Action) : List Worker.Action :=
  actions.filterMap (Action.alone? i)

variable {out : Nat → Bool} {workers : List Worker} {p p' q : Pipeline} {a a' : Action}
  {actions : List Action} {effects : List Effect} {i : Nat} {w : Worker}

/-! ### Adding workers -/

/-- A worker by itself stands where worker `i` of the pipeline stands, whatever their streams are. -/
structure Mirrors (p : Pipeline) (i : Nat) (w : Worker) (y : Worker.System) : Prop where
  subscription : p.subscriptions[i]? = some ⟨w, y.state⟩
  now : y.now = p.now
  cancelled : y.cancelled = p.cancelled

/-- By itself, worker `i` can do its part of some actions, and never has a record in hand then. -/
def Idles (p : Pipeline) (actions : List Action) (i : Nat) : Prop :=
  ∃ w y es y', p.Mirrors i w y ∧ Runs (Worker.System.act? w) y (alone i actions) es y' ∧
    Throughout (Worker.System.act? w) (fun y _ => y.state.inHand? = none) y (alone i actions)

theorem alone_cons (i : Nat) (a : Action) (actions : List Action) :
    alone i (a :: actions) = (a.alone? i).toList ++ alone i actions := by
  cases h : a.alone? i <;> simp [alone, h]

/-- A worker that idles can take its turn, and nothing that is left sees it. -/
theorem Idles.exists_step {m : Worker.Move} (h : p.Idles (.worker i m :: actions) i)
    (hi : out i = true) :
    ∃ p' es, p.Step (.worker i m) p' es ∧ p'.without out = p.without out ∧
      effectsWithout out es = [] := by
  obtain ⟨w, y, es, y', hm, hruns, hempty⟩ := h
  simp only [alone_cons, Action.alone?, if_true, Option.toList_some, List.singleton_append]
    at hruns hempty
  cases hruns with
  | @cons _ mid _ _ _ first more ha hrest =>
    obtain ⟨hstep, -, -⟩ := Worker.System.act?_move_iff.1 ha
    obtain ⟨-, hhere⟩ := hstep.elsewhere hempty.head p.stream
    rw [hm.now, hm.cancelled] at hhere
    refine ⟨_, _, .worker hm.subscription hhere, ?_, effectsWithout_of_out hi _⟩
    rw [Pipeline.without, others_set_of_out hi]
    rfl

/-- A worker that idles goes on to do so, whatever happens. -/
theorem Idles.of_step (h : p.Idles (a :: actions) i) (hstep : p.Step a p' effects) :
    p'.Idles actions i := by
  obtain ⟨w, y, es, y', hm, hruns, hempty⟩ := h
  rw [alone_cons] at hruns hempty
  cases hstep with
  | @worker j m s state stream es hs hmove =>
    by_cases hj : j = i
    · subst hj
      simp only [Action.alone?, if_true, Option.toList_some, List.singleton_append]
        at hruns hempty
      obtain rfl : s = ⟨w, y.state⟩ := Option.some.inj (hs.symm.trans hm.subscription)
      cases hruns with
      | @cons _ mid _ _ _ first more ha hrest =>
        obtain ⟨hown, hnow, hc⟩ := Worker.System.act?_move_iff.1 ha
        obtain ⟨-, hhere⟩ := hown.elsewhere hempty.head p.stream
        rw [hm.now, hm.cancelled] at hhere
        have hsame := (Worker.move?_of_step hhere).symm.trans (Worker.move?_of_step hmove)
        obtain ⟨rfl, -⟩ := Prod.mk.inj (Option.some.inj hsame)
        have hlen : j < p.subscriptions.length := (List.getElem?_eq_some_iff.1 hs).1
        refine ⟨w, mid, more, y', ⟨List.getElem?_set_self hlen, ?_, ?_⟩, hrest, hempty.tail ha⟩
        · exact hnow.trans hm.now
        · exact hc.trans hm.cancelled
    · simp only [Action.alone?, hj, if_false, Option.toList_none, List.nil_append]
        at hruns hempty
      have hother : (p.subscriptions.set j { s with state })[i]? = some ⟨w, y.state⟩ :=
        (List.getElem?_set_ne hj).trans hm.subscription
      exact ⟨w, y, _, y', ⟨hother, hm.now, hm.cancelled⟩, hruns, hempty⟩
  | transformer => exact ⟨w, y, es, y', ⟨hm.subscription, hm.now, hm.cancelled⟩, hruns, hempty⟩
  | take => exact ⟨w, y, es, y', ⟨hm.subscription, hm.now, hm.cancelled⟩, hruns, hempty⟩
  | closeSink => exact ⟨w, y, es, y', ⟨hm.subscription, hm.now, hm.cancelled⟩, hruns, hempty⟩
  | cancel =>
    cases hruns with
    | @cons _ mid _ _ _ first more ha hrest =>
      have hrest' := hempty.tail ha
      cases ha
      exact ⟨w, { y with cancelled := true }, more, y', ⟨hm.subscription, hm.now, rfl⟩, hrest,
        hrest'⟩
  | tick n =>
    cases hruns with
    | @cons _ mid _ _ _ first more ha hrest =>
      have hrest' := hempty.tail ha
      cases ha
      exact ⟨w, { y with now := y.now + n }, more, y',
        ⟨hm.subscription, congrArg (· + n) hm.now, hm.cancelled⟩, hrest, hrest'⟩

/-- A step of what is left is a step of the whole pipeline, unless it ends the transformer for want
of senders. -/
theorem Step.of_without (h : (p.without out).Step a' q effects) (ha : a.without? out = some a')
    (hs : Supplied (p.without out) a') :
    ∃ p' es, p.Step a p' es ∧ p'.without out = q ∧ effectsWithout out es = effects := by
  cases a with
  | worker i m =>
    cases hi : out i with
    | true => simp [Action.without?, hi] at ha
    | false =>
      simp only [Action.without?, hi, Bool.false_eq_true, if_false, Option.some.injEq] at ha
      subst ha
      cases h with
      | @worker _ _ s state stream es hsub hstep =>
        have hfull : p.subscriptions[i]? = some s := (getElem?_others hi _).symm.trans hsub
        refine ⟨_, _, .worker hfull hstep, ?_, effectsWithout_worker hi es⟩
        rw [Pipeline.without, others_set hi]
        rfl
  | transformer =>
    cases ha
    cases h with
    | @transformer state stream sink es hstep =>
      refine ⟨_, _, .transformer (hstep.with_senders ?_), rfl, effectsWithout_transformer out es⟩
      intro hwait hlive hempty hopen
      exact absurd ⟨hwait, hlive, hempty, hopen⟩ (hs rfl)
  | take =>
    cases ha
    cases h with
    | take ht => exact ⟨_, _, .take ht, rfl, rfl⟩
  | closeSink => cases ha; cases h; exact ⟨_, _, .closeSink, rfl, rfl⟩
  | cancel => cases ha; cases h; exact ⟨_, _, .cancel, rfl, rfl⟩
  | tick n => cases ha; cases h; exact ⟨_, _, .tick n, rfl, rfl⟩

/-- Workers that idle can be added to a run in which the transformer does not end for want of
senders. -/
theorem exists_runs_of_without
    (h : Runs act? (p.without out) (actionsWithout out actions) effects q)
    (hs : Throughout act? Supplied (p.without out) (actionsWithout out actions))
    (hidle : ∀ i, out i = true → p.Idles actions i) :
    ∃ p' es, Runs act? p actions es p' ∧ p'.without out = q ∧ effectsWithout out es = effects := by
  induction actions generalizing p effects with
  | nil =>
    cases h
    exact ⟨p, [], .nil p, rfl, rfl⟩
  | cons a actions ih =>
    rw [actionsWithout_cons] at h hs
    cases ha : a.without? out with
    | none =>
      obtain ⟨i, m, rfl, hi⟩ := Action.without?_eq_none_iff.1 ha
      simp only [ha, Option.toList_none, List.nil_append] at h hs
      obtain ⟨mid, first, hstep, hsame, hfirst⟩ := (hidle i hi).exists_step hi
      rw [← hsame] at h hs
      obtain ⟨p', more, hruns, hlast, hmore⟩ := ih h hs fun j hj => (hidle j hj).of_step hstep
      refine ⟨p', first ++ more, .cons (act?_eq_some_iff.2 hstep) hruns, hlast, ?_⟩
      rw [effectsWithout_append, hfirst, hmore, List.nil_append]
    | some a' =>
      simp only [ha, Option.toList_some, List.singleton_append] at h hs
      cases h with
      | @cons _ left _ _ _ first more hact hrest =>
        have hleft := hs.tail hact
        obtain ⟨mid, es, hstep, rfl, rfl⟩ := (act?_eq_some_iff.1 hact).of_without ha hs.head
        obtain ⟨p', more, hruns, hlast, rfl⟩ :=
          ih hrest hleft fun j hj => (hidle j hj).of_step hstep
        exact ⟨p', es ++ more, .cons (act?_eq_some_iff.2 hstep) hruns, hlast,
          effectsWithout_append ..⟩

theorem moves_alone (i : Nat) (actions : List Action) :
    Worker.moves (alone i actions) = movesOf i actions := by
  rw [Worker.moves, alone, List.filterMap_filterMap, movesOf]
  congr 1
  funext a
  cases a with
  | worker j m => by_cases hj : j = i <;> simp [Action.alone?, Action.moveOf?,
    Worker.Action.ownMove?, hj]
  | _ => rfl

/-- A worker that can do its part by itself idles from the start on, if it comes by no record. -/
theorem idles_of_alone {capacity : Nat} (hw : p.subscriptions[i]? = some { worker := w })
    (hc : p.cancelled = false) (hf : w.Fruitless (movesOf i actions))
    (h : ((Worker.System.start capacity p.now).run? w (alone i actions)).isSome) :
    p.Idles actions i := by
  obtain ⟨⟨y', es⟩, hrun⟩ := Option.isSome_iff_exists.1 h
  refine ⟨w, _, es, y', ⟨hw, rfl, hc.symm⟩, Worker.System.run?_eq_some_iff.1 hrun, ?_⟩
  intro before b after more mid hactions hruns
  rw [← moves_alone, hactions, Worker.moves, List.filterMap_append] at hf
  exact (Worker.System.path_of_runs hruns).inHand?_eq_none hf.of_append

/-- From the start on, what the workers that are left out can do by themselves can be added to a run
without them. -/
theorem exists_run?_of_without {capacity : Nat} {full : List Action}
    (hstart : p.subscriptions = workers.map fun worker => { worker }) (hc : p.cancelled = false)
    (hout : ∀ i, out i = true → i < workers.length)
    (hrun : (p.without out).run? actions = some (q, effects))
    (hs : Throughout act? Supplied (p.without out) actions)
    (hfull : actionsWithout out full = actions) (hf : Fruitless out workers full)
    (halone : ∀ i w, out i = true → workers[i]? = some w →
      ((Worker.System.start capacity p.now).run? w (alone i full)).isSome) :
    ∃ p' es, p.run? full = some (p', es) ∧ p'.without out = q ∧ effectsWithout out es = effects := by
  subst hfull
  have hidle : ∀ i, out i = true → p.Idles full i := by
    intro i hi
    have hlen := hout i hi
    have hw : workers[i]? = some workers[i] := List.getElem?_eq_getElem hlen
    refine idles_of_alone ?_ hc (hf i _ hi hw) (halone i _ hi hw)
    simp [hstart, hlen]
  obtain ⟨p', es, hruns, hlast, hes⟩ :=
    exists_runs_of_without (run?_eq_some_iff.1 hrun) hs hidle
  exact ⟨p', es, run?_eq_some_iff.2 hruns, hlast, hes⟩

/-! ### Calls that hang -/

/-- The workers that are left out call for messages. -/
def firstTurns (out : Nat → Bool) (n : Nat) : List Action :=
  ((List.range n).filter out).map (.worker · .resume)

theorem alone_firstTurns (hi : out i = true) (n : Nat) :
    alone i (firstTurns out n) = if i < n then [.move .resume] else [] := by
  induction n with
  | zero => rfl
  | succ n ih =>
    have hsplit : firstTurns out (n + 1) = firstTurns out n ++
        if out n then [.worker n .resume] else [] := by
      cases hn : out n <;> simp [firstTurns, List.range_succ, hn]
    rw [hsplit, alone, List.filterMap_append, ← alone, ih]
    rcases Nat.lt_trichotomy i n with hlt | rfl | hlt
    · cases hn : out n <;> simp [Action.alone?, hlt, Nat.lt_succ_of_lt hlt, hlt.ne']
    · simp [Action.alone?, hi]
    · have hle : ¬ i < n + 1 := by omega
      cases hn : out n <;> simp [Action.alone?, hle, hlt.ne, Nat.not_lt.2 hlt.le]

theorem actionsWithout_firstTurns (out : Nat → Bool) (n : Nat) :
    actionsWithout out (firstTurns out n) = [] := by
  refine List.filterMap_eq_nil_iff.2 fun a ha => ?_
  obtain ⟨i, hi, rfl⟩ := List.mem_map.1 ha
  exact Action.without?_eq_none_iff.2 ⟨i, .resume, rfl, (List.mem_filter.1 hi).2⟩

/-- Everything that can be left of some actions is left of actions of the others alone. -/
theorem exists_actionsWithout_eq {n : Nat} (hout : ∀ i, out i = true → i < n)
    (actions : List Action) :
    ∃ full, actionsWithout out full = actions ∧ ∀ i m, .worker i m ∈ full → out i = false := by
  induction actions with
  | nil => exact ⟨[], rfl, fun i m hm => by cases hm⟩
  | cons a actions ih =>
    obtain ⟨full, rfl, hfull⟩ := ih
    have hhead : ∃ b : Action, b.without? out = some a ∧
        ∀ i m, b = .worker i m → out i = false := by
      cases a with
      | worker k m =>
        obtain ⟨i, hi, rfl⟩ := exists_rank_eq hout k
        refine ⟨.worker i m, by simp [Action.without?, hi], ?_⟩
        rintro _ _ ⟨⟩
        exact hi
      | transformer => exact ⟨.transformer, rfl, by rintro _ _ ⟨⟩⟩
      | take => exact ⟨.take, rfl, by rintro _ _ ⟨⟩⟩
      | closeSink => exact ⟨.closeSink, rfl, by rintro _ _ ⟨⟩⟩
      | cancel => exact ⟨.cancel, rfl, by rintro _ _ ⟨⟩⟩
      | tick n => exact ⟨.tick n, rfl, by rintro _ _ ⟨⟩⟩
    obtain ⟨b, hb, hothers⟩ := hhead
    refine ⟨b :: full, by simp [actionsWithout, hb], fun i m hmem => ?_⟩
    rcases List.mem_cons.1 hmem with h | h
    · exact hothers i m h.symm
    · exact hfull i m h

/-- A worker that does nothing can go on doing so. -/
theorem exists_runs_of_waiting (y : Worker.System) (hn : ∀ m, .worker i m ∉ actions) :
    ∃ y', Runs (Worker.System.act? w) y (alone i actions) [] y' := by
  induction actions generalizing y with
  | nil => exact ⟨y, .nil y⟩
  | cons a actions ih =>
    rw [alone_cons]
    have hrest : ∀ m, .worker i m ∉ actions := fun m hm => hn m (List.mem_cons_of_mem a hm)
    cases a with
    | worker j m =>
      have hj : j ≠ i := by
        rintro rfl
        exact hn m List.mem_cons_self
      simp only [Action.alone?, hj, if_false, Option.toList_none, List.nil_append]
      exact ih y hrest
    | transformer => exact ih y hrest
    | take => exact ih y hrest
    | closeSink => exact ih y hrest
    | cancel =>
      obtain ⟨y', hruns⟩ := ih { y with cancelled := true } hrest
      have hone : Runs (Worker.System.act? w) y [.cancel] [] _ := .single rfl
      exact ⟨y', hone.append hruns⟩
    | tick n =>
      obtain ⟨y', hruns⟩ := ih { y with now := y.now + n } hrest
      have hone : Runs (Worker.System.act? w) y [.tick n] [] _ := .single rfl
      exact ⟨y', hone.append hruns⟩

/-- The workers that are left out can be added to any actions in such a way that each of them calls
for messages and hears nothing more. -/
theorem exists_hanging {n : Nat} (hout : ∀ i, out i = true → i < n) (actions : List Action) :
    ∃ full, actionsWithout out full = actions ∧ ∀ i, out i = true → movesOf i full = [.resume] ∧
      ∀ capacity now w, ((Worker.System.start capacity now).run? w (alone i full)).isSome := by
  obtain ⟨full, hfull, hothers⟩ := exists_actionsWithout_eq hout actions
  refine ⟨firstTurns out n ++ full, ?_, fun i hi => ?_⟩
  · rw [actionsWithout, List.filterMap_append, ← actionsWithout, actionsWithout_firstTurns, ← hfull]
    rfl
  · have hnone : ∀ m, .worker i m ∉ full := by
      intro m hm
      rw [hothers i m hm] at hi
      cases hi
    have halone : alone i (firstTurns out n ++ full) = .move .resume :: alone i full := by
      rw [alone, List.filterMap_append, ← alone, alone_firstTurns hi, if_pos (hout i hi)]
      rfl
    have hmoves : movesOf i full = [] := by
      refine List.filterMap_eq_nil_iff.2 fun a ha => ?_
      cases a with
      | worker j m =>
        by_cases hj : j = i
        · subst hj
          exact absurd ha (hnone m)
        · simp [Action.moveOf?, hj]
      | _ => rfl
    constructor
    · rw [← moves_alone, halone, ← hmoves, ← moves_alone]
      rfl
    · intro capacity now w
      obtain ⟨y', hruns⟩ := exists_runs_of_waiting (w := w)
        { Worker.System.start capacity now with state := .receiving } hnone
      rw [halone, Worker.System.run?_eq_some_iff.2 (.cons rfl hruns)]
      rfl

/-- Over every run of every pipeline, and for any of its subscriptions whose workers come by no
record. At every point of the run, what is left of it without them is a run of the pipeline that starts
without them. It leads to the same stream, sink and transformer; the same lines are delivered, and each
other worker is in the same state after the same moves, calls and events. Conversely, whatever such
workers can do by themselves can be added to a run without them, unless the transformer ends there for
want of senders; in particular they may all call for messages and hear nothing more. -/
theorem isolates_fruitless_subscriptions (settings : Settings) (parser : Postgres.LineParser)
    (workers : List Worker) (now : Nat) (sink : Channel RoutedLine) (out : Nat → Bool)
    (hout : ∀ i, out i = true → i < workers.length) {p₀ : Pipeline}
    (hmake : make? settings parser workers now sink = some p₀) :
    make? settings parser (others out workers) now sink = some (p₀.without out) ∧
    (∀ before after, (p₀.run? (before ++ after)).isSome → Fruitless out workers (before ++ after) →
      ∃ p effects, p₀.run? before = some (p, effects) ∧
        (p₀.without out).run? (actionsWithout out before) =
          some (p.without out, effectsWithout out effects) ∧
        delivered (effectsWithout out effects) = delivered effects ∧
        linesRead (effectsWithout out effects) = linesRead effects ∧
        (∀ i, out i = false →
          (p.without out).subscriptions[rank out i]? = p.subscriptions[i]? ∧
          movesOf (rank out i) (actionsWithout out before) = movesOf i before ∧
          ofWorker (rank out i) (effectsWithout out effects) = ofWorker i effects) ∧
        ∀ e e', Effect.without? out e = some e' → (p.without out).event? e' = p.event? e) ∧
    ∀ actions q effects, (p₀.without out).run? actions = some (q, effects) →
      Throughout act? Supplied (p₀.without out) actions →
      (∀ full, actionsWithout out full = actions → Fruitless out workers full →
        (∀ i w, out i = true → workers[i]? = some w →
          ((Worker.System.start settings.streamCapacity now).run? w (alone i full)).isSome) →
        ∃ p es, p₀.run? full = some (p, es) ∧ p.without out = q ∧ effectsWithout out es = effects) ∧
      ∃ full p es, p₀.run? full = some (p, es) ∧ actionsWithout out full = actions ∧
        p.without out = q ∧ effectsWithout out es = effects ∧
        ∀ i, out i = true → movesOf i full = [.resume] := by
  refine ⟨make?_others hmake, ?_⟩
  obtain ⟨-, rfl⟩ := make?_eq_some_iff.1 hmake
  constructor
  · intro before after hsome hf
    obtain ⟨⟨last, all⟩, hrun⟩ := Option.isSome_iff_exists.1 hsome
    obtain ⟨p, effects, _, hruns, -, -⟩ := (run?_eq_some_iff.1 hrun).split
    have hleft := runs_without hruns (throughout_quiet rfl hf.of_append)
    refine ⟨p, effects, run?_eq_some_iff.2 hruns, run?_eq_some_iff.2 hleft, ?_,
      linesRead_effectsWithout out effects, fun i hi => ⟨getElem?_others hi _,
        movesOf_actionsWithout hi before, ofWorker_effectsWithout hi effects⟩,
      fun e e' => event?_without⟩
    rw [delivered, ofTransformer_effectsWithout, delivered]
  · intro actions q effects hrun hsupplied
    constructor
    · intro full hfull hf halone
      exact exists_run?_of_without rfl rfl hout hrun hsupplied hfull hf halone
    · obtain ⟨full, hfull, hhang⟩ := exists_hanging hout actions
      have hf : Fruitless out workers full := by
        intro i w hi hw batch hb
        rw [(hhang i hi).1] at hb
        cases hb
      obtain ⟨p, es, hruns, hlast, hes⟩ := exists_run?_of_without rfl rfl hout hrun hsupplied hfull
        hf fun i w hi _ => (hhang i hi).2 settings.streamCapacity now w
      exact ⟨full, p, es, hruns, hfull, hlast, hes, fun i hi => (hhang i hi).1⟩

/-! ### A subscription that is denied -/

def oneServer : Settings where
  streamCapacity := 1
  servers := [⟨"a", "p", "i", some "k", none, some "1", none, none⟩]

/-- Takes every text as it is. -/
def verbatim : Postgres.LineParser := fun _ text => some ⟨none, .log, none, none, none, text⟩

/-- The first worker is denied its messages, then brings an empty one and one that cannot be decoded,
and ends; the second delivers a record meanwhile. -/
def deniedFirst : List Action :=
  [.worker 0 .resume, .worker 1 .resume, .worker 0 (.received (.error (.transport "denied"))),
    .worker 1 (.received (.ok [⟨"a", [65]⟩])), .tick 60000, .worker 0 .resume,
    .worker 1 (.acknowledged (.ok ())), .worker 0 (.received (.ok [⟨"b", []⟩, ⟨"c", [0, 0]⟩])),
    .worker 1 .resume, .worker 0 (.acknowledged (.ok ())), .transformer,
    .worker 0 (.received (.error .cancelled)), .transformer]

def deniedGone : List Action :=
  [.worker 0 .resume, .worker 0 (.received (.ok [⟨"a", [65]⟩])), .tick 60000,
    .worker 0 (.acknowledged (.ok ())), .worker 0 .resume, .transformer, .transformer]

theorem isolates_fruitless_subscriptions_deniedFirst :
    ∃ p₀ p effects,
      (make? oneServer verbatim [Worker.byteWorker, Worker.byteWorker] 0 { capacity := 4 } = some p₀ ∧
        p₀.run? deniedFirst = some (p, effects)) ∧
      Fruitless (· == 0) [Worker.byteWorker, Worker.byteWorker] deniedFirst ∧
      actionsWithout (· == 0) deniedFirst = deniedGone ∧
      (p₀.without (· == 0)).run? deniedGone =
        some (p.without (· == 0), effectsWithout (· == 0) effects) ∧
      (delivered effects).map (·.line.content) = ["A\n"] ∧
      (∃ p' es, p₀.run? deniedFirst = some (p', es) ∧ p'.without (· == 0) = p.without (· == 0) ∧
        effectsWithout (· == 0) es = effectsWithout (· == 0) effects) ∧
      ∃ full p' es, p₀.run? full = some (p', es) ∧ actionsWithout (· == 0) full = deniedGone ∧
        p'.without (· == 0) = p.without (· == 0) ∧ movesOf 0 full = [.resume] := by
  have hout : ∀ i, (i == 0) = true → i < [Worker.byteWorker, Worker.byteWorker].length := by
    intro i hi
    obtain rfl : i = 0 := by simpa using hi
    exact Nat.zero_lt_succ _
  have hf : Fruitless (· == 0) [Worker.byteWorker, Worker.byteWorker] deniedFirst := by
    intro i w hi hw batch hb
    obtain rfl : i = 0 := by simpa using hi
    cases hw
    obtain rfl := List.mem_singleton.1 hb
    rfl
  obtain ⟨-, hleft, hadd⟩ := isolates_fruitless_subscriptions oneServer verbatim
    [Worker.byteWorker, Worker.byteWorker] 0 { capacity := 4 } (· == 0) hout rfl
  obtain ⟨p, effects, hrun, hgone, -⟩ := hleft deniedFirst [] rfl hf
  have hlines := congrArg (Option.map fun x => (delivered x.2).map (·.line.content)) hrun
  have hback := hadd deniedGone _ _ hgone (by
    iterate 5 refine .cons nofun rfl ?_
    -- the record is on the stream when the transformer looks for one, and in hand afterwards
    refine .cons (fun _ hout => ?_) rfl (.cons (fun _ hout => ?_) rfl (.nil _))
    · cases hout.emptied
    · cases hout.waiting)
  obtain ⟨hfull, full, p', es, hhang, hgoneEq, hlast, -, hmoves⟩ := hback
  refine ⟨_, p, effects, ⟨rfl, hrun⟩, hf, rfl, hgone, (Option.some.inj hlines).symm,
    hfull deniedFirst rfl hf ?_, full, p', es, hhang, hgoneEq, hlast, hmoves 0 rfl⟩
  intro i w hi hw
  obtain rfl : i = 0 := by simpa using hi
  cases hw
  rfl

end LogRelay.Pipeline
