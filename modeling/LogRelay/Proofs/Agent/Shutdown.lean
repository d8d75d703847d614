import LogRelay.Proofs.Agent.Run
import LogRelay.Proofs.Startup
import LogRelay.Proofs.Worker.Run

/-!
The end of the program. Once the pipeline is called off every step of a task either ends the task or
takes a line off the sink, so there is a bound on these steps; and as long as a task is left, one of
them can step. The writer is not called off: it ends when the transformer is gone and the sink empty.
-/

namespace LogRelay

/-! ### Steps after the call -/

theorem Worker.Step.of_calledOff {w : Worker} {now : Nat} {stream stream' : Channel Record}
    {state state' : Worker.State} {m : Worker.Move} {effects : List Worker.Effect}
    (h : Worker.Step w true now stream state m state' stream' effects) :
    state ≠ .ended ∧ state' = .ended ∧ stream' = stream ∧ effects = [] := by
  cases h with
  | calledOff hs => exact ⟨hs, rfl, rfl, rfl⟩
  | started hc => cases hc
  | batch hc => cases hc
  | emptyBatch hc => cases hc
  | receiveCancelled hc => cases hc
  | receiveFailed hc => cases hc
  | acknowledged hc => cases hc
  | acknowledgeCancelled hc => cases hc
  | acknowledgeFailed hc => cases hc
  | sent hc => cases hc
  | streamClosed hc => cases hc
  | pauseOver hc => cases hc
  | rested hc => cases hc

theorem Transformer.Step.of_calledOff {router : Router} {isOpen : Bool}
    {stream stream' : Channel Record} {sink sink' : Channel RoutedLine}
    {state state' : Transformer.State} {effects : List Transformer.Effect}
    (h : Transformer.Step router true isOpen stream sink state state' stream' sink' effects) :
    state ≠ .ended ∧ state' = .ended ∧ sink' = sink ∧ effects = [] := by
  cases h with
  | calledOff hs => exact ⟨hs, rfl, rfl, rfl⟩
  | taken hc => cases hc
  | exhausted hc => cases hc
  | sent hc => cases hc
  | sinkClosed hc => cases hc

namespace Agent

/-- Whether the action is a step of one of the tasks. -/
def Action.isTask : Action → Bool
  | .pipeline (.worker ..) => true
  | .pipeline .transformer => true
  | .pipeline _ => false
  | .write _ => true

/-- How many steps the tasks take. -/
def taskSteps (actions : List Action) : Nat := actions.countP Action.isTask

namespace System

/-- The steps that are left to the tasks once the program is called off: one for the end of each, and
one for each line on the sink. -/
def load (s : System) : Nat :=
  s.pipeline.liveTasks +
    match s.writer with
    | .writing => s.pipeline.sink.items.length + 1
    | .ended => 0

variable {s s' : System} {a : Action} {actions : List Action} {effects : List Effect}
  {p p' : Pipeline} {b : Pipeline.Action} {es : List Pipeline.Effect}

theorem isDone_iff : s.isDone ↔ s.load = 0 := by
  cases hw : s.writer <;> simp [isDone, load, hw]

theorem ended_of_isDone (h : s.isDone) : s.writer = .ended := by
  rw [isDone, Bool.and_eq_true] at h
  exact of_decide_eq_true h.2

/-- A worker that ends leaves one live task less. -/
theorem liveTasks_worker_ended {i : Nat} {t : Subscription} (stream : Channel Record)
    (ht : p.subscriptions[i]? = some t) (hlive : t.state ≠ .ended) :
    ({ p with
        subscriptions := p.subscriptions.set i { t with state := .ended }, stream } :
      Pipeline).liveTasks + 1 = p.liveTasks := by
  obtain ⟨hi, rfl⟩ := List.getElem?_eq_some_iff.1 ht
  have hstate : p.subscriptions[i].state.isLive = true := by
    cases hs : p.subscriptions[i].state with
    | ended => exact absurd hs hlive
    | _ => rfl
  have hpos : 0 < p.subscriptions.countP (·.state.isLive) :=
    List.countP_pos_iff.2 ⟨_, List.getElem_mem hi, hstate⟩
  rw [Pipeline.liveTasks, List.countP_set hi, hstate]
  change p.subscriptions.countP (·.state.isLive) - 1 + 0 + (if p.transformer.isLive then 1 else 0)
    + 1 = p.subscriptions.countP (·.state.isLive) + if p.transformer.isLive then 1 else 0
  omega

/-- A step of a pipeline that is called off: nobody sees it, and if it is one of a task, it is its
last. -/
theorem pipeline_step_of_cancelled (h : p.Step b p' es) (ha : isReaders b = false)
    (hc : p.cancelled = true) :
    p'.cancelled = true ∧ es = [] ∧ p'.sink = p.sink ∧
      p'.liveTasks + (if (Action.pipeline b).isTask then 1 else 0) = p.liveTasks := by
  cases h with
  | worker ht hstep =>
    rw [hc] at hstep
    obtain ⟨hlive, rfl, rfl, rfl⟩ := hstep.of_calledOff
    exact ⟨hc, rfl, rfl, liveTasks_worker_ended _ ht hlive⟩
  | transformer hstep =>
    rw [hc] at hstep
    obtain ⟨hlive, rfl, rfl, rfl⟩ := hstep.of_calledOff
    refine ⟨hc, rfl, rfl, ?_⟩
    cases hs : p.transformer with
    | ended => exact absurd hs hlive
    | _ => simp [Pipeline.liveTasks, hs, Transformer.State.isLive, Action.isTask]
  | take => cases ha
  | closeSink => cases ha
  | cancel => exact ⟨rfl, rfl, rfl, rfl⟩
  | tick => exact ⟨hc, rfl, rfl, rfl⟩

theorem Step.cancelled (h : s.Step a s' effects) (hc : s.pipeline.cancelled = true) :
    s'.pipeline.cancelled = true := by
  cases h with
  | pipeline ha h => exact (pipeline_step_of_cancelled h ha hc).1
  | _ => exact hc

theorem Step.ofPipeline_eq_nil (h : s.Step a s' effects) (hc : s.pipeline.cancelled = true) :
    ofPipeline effects = [] := by
  cases h with
  | pipeline ha h =>
    rw [ofPipeline_pipeline]
    exact (pipeline_step_of_cancelled h ha hc).2.1
  | _ => rfl

theorem Step.load_le (h : s.Step a s' effects) (hc : s.pipeline.cancelled = true) :
    (if a.isTask then 1 else 0) + s'.load ≤ s.load := by
  cases h with
  | pipeline ha h =>
    obtain ⟨-, -, hsink, hlive⟩ := pipeline_step_of_cancelled h ha hc
    simp only [load, hsink]
    omega
  | wrote hw ht =>
    obtain ⟨rest, hitems, rfl⟩ := Channel.take?_eq_some_iff.1 ht
    simp only [load, hw, hitems, Action.isTask, if_true, List.length_cons, Pipeline.liveTasks]
    omega
  | failed hw =>
    simp only [load, hw, Action.isTask, if_true, Pipeline.liveTasks]
    omega
  | finished hw =>
    simp only [load, hw, Action.isTask, if_true, Pipeline.liveTasks]
    omega

theorem Step.written_of_cancelled (h : s.Step a s' effects) (hc : s.pipeline.cancelled = true)
    (hl : losses effects = []) :
    written effects ++ s'.pipeline.sink.items = s.pipeline.sink.items := by
  cases h with
  | pipeline ha h =>
    rw [written_pipeline, (pipeline_step_of_cancelled h ha hc).2.2.1]
    rfl
  | wrote hw ht =>
    obtain ⟨rest, hitems, rfl⟩ := Channel.take?_eq_some_iff.1 ht
    exact hitems.symm
  | failed => cases hl
  | finished => rfl

theorem cancelled_of_runs (h : Runs act? s actions effects s') (hc : s.pipeline.cancelled = true) :
    s'.pipeline.cancelled = true :=
  h.invariant (p := fun s => s.pipeline.cancelled = true)
    (fun _ _ _ _ hc ha => (act?_eq_some_iff.1 ha).cancelled hc) hc

/-- After the call nothing is seen of the pipeline: no call begins, nothing is told, and nothing is
put on the stream or on the sink. -/
theorem ofPipeline_of_runs (h : Runs act? s actions effects s')
    (hc : s.pipeline.cancelled = true) : ofPipeline effects = [] := by
  induction h with
  | nil => rfl
  | cons ha _ ih =>
    have hstep := act?_eq_some_iff.1 ha
    rw [ofPipeline_append, hstep.ofPipeline_eq_nil hc, ih (hstep.cancelled hc)]
    rfl

/-- After the call every step of a task is paid for by the load. -/
theorem load_le_of_runs (h : Runs act? s actions effects s') (hc : s.pipeline.cancelled = true) :
    taskSteps actions + s'.load ≤ s.load := by
  induction h with
  | nil => simp [taskSteps]
  | @cons s mid s' a actions first more ha _ ih =>
    have hstep := act?_eq_some_iff.1 ha
    have hfirst := hstep.load_le hc
    have hrest := ih (hstep.cancelled hc)
    rw [taskSteps] at hrest ⊢
    rw [List.countP_cons]
    omega

theorem written_of_runs (h : Runs act? s actions effects s') (hc : s.pipeline.cancelled = true)
    (hl : losses effects = []) :
    written effects ++ s'.pipeline.sink.items = s.pipeline.sink.items := by
  induction h with
  | nil => rfl
  | cons ha _ ih =>
    have hstep := act?_eq_some_iff.1 ha
    rw [losses_append] at hl
    obtain ⟨hfirst, hmore⟩ := List.append_eq_nil_iff.1 hl
    rw [written_append, List.append_assoc, ih (hstep.cancelled hc) hmore,
      hstep.written_of_cancelled hc hfirst]

/-! ### Progress -/

theorem act?_worker_of_cancelled {i : Nat} {t : Subscription} (hc : s.pipeline.cancelled = true)
    (ht : s.pipeline.subscriptions[i]? = some t) (hlive : t.state ≠ .ended) (m : Worker.Move) :
    s.act? (.pipeline (.worker i m)) =
      some ({ s with pipeline := { s.pipeline with
        subscriptions := s.pipeline.subscriptions.set i { t with state := .ended } } }, []) :=
  act?_eq_some_iff.2 (.pipeline rfl (.worker ht (.calledOff hlive hc)))

theorem act?_transformer_of_cancelled (hc : s.pipeline.cancelled = true)
    (hlive : s.pipeline.transformer ≠ .ended) :
    s.act? (.pipeline .transformer) =
      some ({ s with pipeline := { s.pipeline with
        transformer := .ended, stream := s.pipeline.stream.close } }, []) :=
  act?_eq_some_iff.2 (.pipeline rfl (.transformer (.calledOff hlive hc)))

/-- As long as a task is left, one can step, and no write need fail for that. -/
theorem exists_task_step (hc : s.pipeline.cancelled = true) (hload : s.load ≠ 0) :
    ∃ a s' effects, a.isTask = true ∧ s.act? a = some (s', effects) ∧ losses effects = [] := by
  by_cases hworkers : ∃ t ∈ s.pipeline.subscriptions, t.state.isLive = true
  · obtain ⟨t, hmem, hlive⟩ := hworkers
    obtain ⟨i, ht⟩ := List.getElem?_of_mem hmem
    have hne : t.state ≠ .ended := by
      intro hs
      simp [hs, Worker.State.isLive] at hlive
    exact ⟨_, _, _, rfl, act?_worker_of_cancelled hc ht hne .resume, rfl⟩
  by_cases htransformer : s.pipeline.transformer = .ended
  · -- only the writer is left, and it waits for nobody
    have hcount : s.pipeline.subscriptions.countP (·.state.isLive) = 0 :=
      List.countP_eq_zero.2 fun t ht hlive => hworkers ⟨t, ht, hlive⟩
    cases hw : s.writer with
    | ended => simp [load, hw, Pipeline.liveTasks, hcount, htransformer,
        Transformer.State.isLive] at hload
    | writing =>
      cases ht : s.pipeline.sink.take? with
      | none =>
        refine ⟨.write none, _, _, rfl, act?_eq_some_iff.2 (.finished hw ht ?_), rfl⟩
        rw [htransformer]
        rfl
      | some taken => exact ⟨.write none, _, _, rfl, act?_eq_some_iff.2 (.wrote hw ht), rfl⟩
  · exact ⟨_, _, _, rfl, act?_transformer_of_cancelled hc htransformer, rfl⟩

/-- The program has ended exactly if no task can step. -/
theorem isDone_iff_stuck (hc : s.pipeline.cancelled = true) :
    s.isDone ↔ ∀ a, a.isTask = true → s.act? a = none := by
  rw [isDone_iff]
  constructor
  · intro hload a ha
    cases hact : s.act? a with
    | none => rfl
    | some next =>
      have hle := (act?_eq_some_iff.1 hact).load_le hc
      rw [ha, hload, if_pos rfl] at hle
      omega
  · intro hstuck
    rcases Nat.eq_zero_or_pos s.load with hload | hload
    · exact hload
    · obtain ⟨a, s', effects, ha, hact, -⟩ := exists_task_step hc (Nat.ne_of_gt hload)
      rw [hstuck a ha] at hact
      cases hact

theorem exists_run_to_end (hc : s.pipeline.cancelled = true) :
    ∃ actions s' effects, Runs act? s actions effects s' ∧ s'.isDone ∧ losses effects = [] := by
  induction hn : s.load using Nat.strongRecOn generalizing s with
  | ind n ih =>
    by_cases hload : s.load = 0
    · exact ⟨[], s, [], .nil s, isDone_iff.2 hload, rfl⟩
    · obtain ⟨a, mid, first, ha, hact, hfirst⟩ := exists_task_step hc hload
      have hstep := act?_eq_some_iff.1 hact
      have hle := hstep.load_le hc
      rw [ha, if_pos rfl] at hle
      obtain ⟨actions, s', more, hruns, hdone, hmore⟩ :=
        ih mid.load (by omega) (hstep.cancelled hc) rfl
      exact ⟨a :: actions, s', first ++ more, .cons hact hruns, hdone, by
        rw [losses_append, hfirst, hmore]; rfl⟩

/-! ### The whole run -/

/-- The program before its first step. -/
def start (p : Pipeline) : System := { pipeline := p }

/-- Over every run of the program, whatever its setup came to: a failed one as well, and with any
workers, room and readers' pace. Without a failed write the lines written and those on the sink are
those that the transformer put there, and in the end all of them are written. Once the program is
called off, the next move of a worker or of the transformer ends it, and nobody sees anything more of
the pipeline, so nothing is put on the stream or on the sink. The tasks can take only so many steps
then, and have all ended once none can be taken; the writer has written what was on the sink, in its
order and once, unless a write fails. -/
theorem shuts_down_after_last_line {σ τ : Type} (settings : Settings)
    (providers : List (Provider σ τ)) (seed : σ) (toWorker : Server × String × τ → Worker)
    (parser : Postgres.LineParser) (now sinkCapacity : Nat) (actions : List Action)
    {p : Pipeline} {s : System} {effects : List Effect}
    (hmake : Pipeline.make? settings parser
      ((Startup.run settings.testRun settings.servers providers seed).started.map toWorker) now
      { capacity := sinkCapacity } = some p)
    (hrun : (start p).run? actions = some (s, effects)) :
    (losses effects = [] → written effects ++ s.pipeline.sink.items = placed effects) ∧
    (losses effects = [] → s.isDone → written effects = placed effects) ∧
    (s.pipeline.cancelled = true →
      (∀ i t, s.pipeline.subscriptions[i]? = some t → t.state ≠ .ended → ∀ m,
        s.act? (.pipeline (.worker i m)) = some ({ s with pipeline := { s.pipeline with
          subscriptions := s.pipeline.subscriptions.set i { t with state := .ended } } }, [])) ∧
      (s.pipeline.transformer ≠ .ended →
        s.act? (.pipeline .transformer) = some ({ s with pipeline := { s.pipeline with
          transformer := .ended, stream := s.pipeline.stream.close } }, [])) ∧
      (∀ more s' new, s.run? more = some (s', new) →
        ofPipeline new = [] ∧ taskSteps more + s'.load ≤ s.load ∧
        (s'.isDone ↔ ∀ a, a.isTask = true → s'.act? a = none) ∧
        (losses new = [] → written new ++ s'.pipeline.sink.items = s.pipeline.sink.items) ∧
        (losses new = [] → s'.isDone → written new = s.pipeline.sink.items)) ∧
      ∃ more s' new, s.run? more = some (s', new) ∧ s'.isDone ∧ losses new = []) := by
  have hruns := run?_eq_some_iff.1 hrun
  obtain ⟨-, rfl⟩ := Pipeline.make?_eq_some_iff.1 hmake
  have hlines : losses effects = [] →
      written effects ++ s.pipeline.sink.items = placed effects := lines_of_runs hruns rfl
  have hdeserted : s.writer = .ended → s.pipeline.Deserted := deserted_of_runs hruns nofun
  refine ⟨hlines, fun hl hdone => ?_, fun hc => ⟨fun i t => act?_worker_of_cancelled hc,
    act?_transformer_of_cancelled hc, fun more s' new hmore => ?_, ?_⟩⟩
  · rw [← hlines hl, (hdeserted (ended_of_isDone hdone)).emptied, List.append_nil]
  · have hmore := run?_eq_some_iff.1 hmore
    have hwritten := written_of_runs hmore hc
    refine ⟨ofPipeline_of_runs hmore hc, load_le_of_runs hmore hc,
      isDone_iff_stuck (cancelled_of_runs hmore hc), hwritten, fun hl hdone => ?_⟩
    have hempty := (deserted_of_runs hmore hdeserted (ended_of_isDone hdone)).emptied
    rw [← hwritten hl, hempty, List.append_nil]
  · simp only [run?_eq_some_iff]
    exact exists_run_to_end hc

end System

/-! ### A setup that fails halfway -/

/-- The first and the last server share a database; a failed start ends the setup. -/
def strictServers : Settings where
  testRun := true
  servers := [⟨"a", "p", "i", some "k", none, some "1", none, none⟩,
    ⟨"b", "p", "j", some "l", none, some "2", none, none⟩,
    ⟨"c", "p", "i", some "m", none, some "3", none, none⟩]

/-- Starts only the subscription `k`. -/
def pickyProvider : Provider Unit String where
  key? := Server.subscription
  start server _ :=
    (if server.subscription = some "k" then .ok server.name else .error (.client server.name), ())

/-- The program is called off when the first line of a record is on the sink and there is no room for
the second. -/
def calledOffInFanOut : List Action :=
  [.pipeline (.worker 0 .resume), .pipeline (.worker 0 (.received (.ok [⟨"m", [65]⟩]))),
    .pipeline (.worker 0 (.acknowledged (.ok ()))), .pipeline (.worker 0 .resume),
    .pipeline .transformer, .pipeline .transformer, .pipeline .cancel]

/-- The writer goes on while the tasks end around it. -/
def lastSteps : List Action :=
  [.write none, .pipeline .transformer, .pipeline (.worker 0 .resume), .write none]

theorem shuts_down_after_failed_setup :
    ∃ u p s s' effects new,
      (Startup.run true strictServers.servers [pickyProvider] () = u ∧
        u.result = .error (.client "b") ∧
        Pipeline.make? strictServers (fun _ text => some ⟨none, .log, none, none, none, text⟩)
          (u.started.map fun _ => Worker.byteWorker) 0 { capacity := 1 } = some p ∧
        (System.start p).run? calledOffInFanOut = some (s, effects) ∧
        s.run? lastSteps = some (s', new)) ∧
      s'.isDone ∧ (s.pipeline.sink.items.map (·.identity.systemId)) = ["1"] ∧
      written new = s.pipeline.sink.items ∧ ofPipeline new = [] := by
  have h := System.shuts_down_after_last_line strictServers [pickyProvider] ()
    (fun _ => Worker.byteWorker) (fun _ text => some ⟨none, .log, none, none, none, text⟩) 0 1
    calledOffInFanOut rfl rfl
  obtain ⟨hunseen, -, -, -, hwritten⟩ := (h.2.2 rfl).2.2.1 lastSteps _ _ rfl
  exact ⟨_, _, _, _, _, _, ⟨rfl, rfl, rfl, rfl, rfl⟩, rfl, rfl, hwritten rfl rfl, hunseen⟩

end Agent

end LogRelay
