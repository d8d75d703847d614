import LogRelay.Proofs.Transformer.Run

/-!
What the transformer delivers. As long as it is not called off and its sink is read, its output is
that of its input, routed record by record; how much room there is and who is served when makes no
difference to it.
-/

namespace LogRelay.Transformer

variable {router : Router} {state : State} {effects : List Effect}

/-- Along a calm path nothing but what is in hand is missing from the output. -/
theorem Path.emitted_append_due (h : Path router True .waiting effects state) :
    emitted effects ++ due state = (consumed effects).flatMap router.route := by
  obtain ⟨rest, heq, hrest⟩ := h.lines_eq
  rw [← hrest (.inr trivial), heq]
  rfl

theorem Path.emitted_of_waiting (h : Path router True .waiting effects .waiting) :
    emitted effects = (consumed effects).flatMap router.route := by
  rw [← h.emitted_append_due]
  exact (List.append_nil _).symm

namespace System

variable {s : System} {actions : List Action}

/-- Nothing is left to do: nothing is on the stream, and nothing is in hand. -/
structure Idle (s : System) : Prop where
  noRecord : s.stream.items = []
  noLine : due s.state = []

theorem undisturbed_start (streamCapacity sinkCapacity : Nat) :
    (start streamCapacity sinkCapacity).Undisturbed := ⟨rfl, rfl⟩

/-- The output of a run, the lines in hand and those of the records on the stream are the lines of
what was put on the stream. -/
theorem routed_puts {streamCapacity sinkCapacity : Nat}
    (h : Runs (act? router) (start streamCapacity sinkCapacity) actions effects s)
    (hcalm : ∀ a ∈ actions, a.isCalm) :
    emitted effects ++ (due s.state ++ s.stream.items.flatMap router.route) =
      (puts actions).flatMap router.route := by
  have hstart := undisturbed_start streamCapacity sinkCapacity
  have hitems : consumed effects ++ s.stream.items = puts actions := items_of_runs h hcalm hstart
  rw [← hitems, List.flatMap_append, ← (path_of_runs h hcalm hstart).emitted_append_due,
    List.append_assoc]

theorem emitted_of_idle {streamCapacity sinkCapacity : Nat}
    (h : Runs (act? router) (start streamCapacity sinkCapacity) actions effects s)
    (hcalm : ∀ a ∈ actions, a.isCalm) (hs : s.Idle) :
    emitted effects = (puts actions).flatMap router.route := by
  rw [← routed_puts h hcalm, hs.noRecord, hs.noLine]
  exact (List.append_nil _).symm

end System

/-- Over every run of a transformer that is not interfered with, with any room on its stream and its
sink. Its output is the beginning of the routed lines of the records it has taken, and all of them
when it waits for a record; it tells of just those records whose text is no entry. No record is lost
on the stream and no line on the sink. Two runs with one input never differ in the output, but for
how far they have come. -/
theorem emits_routed_records (router : Router) (streamCapacity sinkCapacity : Nat)
    (actions : List Action) (hcalm : ∀ a ∈ actions, a.isCalm) {s : System} {effects : List Effect}
    (hrun : (System.start streamCapacity sinkCapacity).run? router actions = some (s, effects)) :
    emitted effects <+: (consumed effects).flatMap router.route ∧
    (s.state = .waiting → emitted effects = (consumed effects).flatMap router.route) ∧
    (∀ r lines, router.Routes r lines ↔ lines = router.route r) ∧
    reported effects = router.rejections (consumed effects) ∧
    (∀ h ∈ reported effects, h.severity = .error) ∧
    consumed effects ++ s.stream.items = puts actions ∧
    (System.start streamCapacity sinkCapacity).taken router actions ++ s.sink.items =
      emitted effects ∧
    ∀ streamCapacity' sinkCapacity' actions' s' effects', (∀ a ∈ actions', a.isCalm) →
      (System.start streamCapacity' sinkCapacity').run? router actions' = some (s', effects') →
      puts actions' = puts actions →
        (emitted effects <+: emitted effects' ∨ emitted effects' <+: emitted effects) ∧
        (s.Idle → s'.Idle → emitted effects' = emitted effects) := by
  have hruns := System.run?_eq_some_iff.1 hrun
  have hstart := System.undisturbed_start streamCapacity sinkCapacity
  have hpath := System.path_of_runs hruns hcalm hstart
  refine ⟨⟨_, hpath.emitted_append_due⟩, fun hs => ?_, fun _ _ => Router.routes_iff,
    hpath.reported_eq, fun h hh => ?_, System.items_of_runs hruns hcalm hstart, ?_, ?_⟩
  · rw [hs] at hpath
    exact hpath.emitted_of_waiting
  · rw [hpath.reported_eq] at hh
    exact Router.severity_of_mem_rejections hh
  · have hsink := System.sink_accounts_of_runs hruns (Channel.accounts_start sinkCapacity)
    exact hsink.complete (System.undisturbed_of_runs hruns hcalm hstart).isRead
  · intro streamCapacity' sinkCapacity' actions' s' effects' hcalm' hrun' hputs
    have hruns' := System.run?_eq_some_iff.1 hrun'
    constructor
    · have hprefix : emitted effects <+: (puts actions).flatMap router.route :=
        ⟨_, System.routed_puts hruns hcalm⟩
      have hprefix' : emitted effects' <+: (puts actions).flatMap router.route :=
        ⟨_, hputs ▸ System.routed_puts hruns' hcalm'⟩
      exact List.prefix_or_prefix_of_prefix hprefix hprefix'
    · intro hidle hidle'
      rw [System.emitted_of_idle hruns hcalm hidle, System.emitted_of_idle hruns' hcalm' hidle', hputs]

/-- Two names for one database and a name for another one; a text is an entry unless it is empty. -/
def sharedRouter : Router where
  servers := [⟨"a", "p", "i", none, none, some "1", none, none⟩,
    ⟨"b", "p", "j", none, none, some "2", none, none⟩,
    ⟨"c", "p", "i", none, none, some "3", none, none⟩]
  parser _ text := if text.length = 1 then none else some ⟨some ⟨0, 0⟩, .log, none, none, none, text⟩
  horizon := ⟨100, 0⟩

/-- A record with two lines, of which the second waits for the reader of the sink, then one with an
empty text and an old one. -/
def slowReader : List Action :=
  [.put ⟨"p", "i", some ⟨100, 0⟩, "x"⟩, .move, .move, .put ⟨"p", "i", none, ""⟩, .take, .move,
    .move, .put ⟨"p", "j", some ⟨99, 999999999⟩, "y"⟩, .move]

theorem emits_routed_records_slowReader :
    ∃ s effects, (System.start 1 1).run? sharedRouter slowReader = some (s, effects) ∧
      s.state = .waiting ∧ reported effects = [.unparsable ""] ∧
      (emitted effects).map (·.identity.systemId) = ["1", "3"] ∧
      emitted effects = (consumed effects).flatMap sharedRouter.route := by
  have h := emits_routed_records sharedRouter 1 1 slowReader (by decide) rfl
  exact ⟨_, _, rfl, rfl, rfl, rfl, h.2.1 rfl⟩

end LogRelay.Transformer
