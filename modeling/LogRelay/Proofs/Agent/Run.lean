import LogRelay.Agent
import LogRelay.Proofs.Pipeline.Run

/-!
Runs of the whole program. A step is one of the pipeline or of the writer, who alone reads the sink.
As long as no write fails, the lines written and those on the sink are the lines that were put on it.
-/

namespace LogRelay.Agent

/-! ### What is seen of the program -/

namespace Effect

def ofPipeline? : Effect → Option Pipeline.Effect
  | pipeline e => some e
  | writer _ => none

/-- Why a write failed, if the effect tells of that. -/
def loss? : Effect → Option String
  | writer (.report (.outputLost cause)) => some cause
  | _ => none

end Effect

/-- What is seen of the pipeline. -/
def ofPipeline (effects : List Effect) : List Pipeline.Effect :=
  effects.filterMap Effect.ofPipeline?

/-- The lines put on the sink. -/
def placed (effects : List Effect) : List RoutedLine := Pipeline.delivered (ofPipeline effects)

/-- The lines written. -/
def written (effects : List Effect) : List RoutedLine := effects.filterMap Effect.line?

/-- The writes that failed. -/
def losses (effects : List Effect) : List String := effects.filterMap Effect.loss?

theorem ofPipeline_append (xs ys : List Effect) :
    ofPipeline (xs ++ ys) = ofPipeline xs ++ ofPipeline ys :=
  List.filterMap_append

theorem written_append (xs ys : List Effect) : written (xs ++ ys) = written xs ++ written ys :=
  List.filterMap_append

theorem losses_append (xs ys : List Effect) : losses (xs ++ ys) = losses xs ++ losses ys :=
  List.filterMap_append

theorem placed_append (xs ys : List Effect) : placed (xs ++ ys) = placed xs ++ placed ys := by
  rw [placed, ofPipeline_append, Pipeline.delivered_append]
  rfl

variable (es : List Pipeline.Effect)

theorem ofPipeline_pipeline : ofPipeline (es.map .pipeline) = es := by
  simp [ofPipeline, Effect.ofPipeline?, Function.comp_def, List.filterMap_map]

theorem written_pipeline : written (es.map .pipeline) = [] := by
  simp [written, Effect.line?]

namespace System

/-! ### One step -/

/-- A step of the program, with everything that it changes. -/
inductive Step (s : System) : Action → System → List Effect → Prop
  | pipeline {a : Pipeline.Action} {p : Pipeline} {es : List Pipeline.Effect}
      (ha : isReaders a = false) (h : s.pipeline.Step a p es) :
      Step s (.pipeline a) { s with pipeline := p } (es.map .pipeline)
  | wrote {line : RoutedLine} {sink : Channel RoutedLine} (hw : s.writer = .writing)
      (ht : s.pipeline.sink.take? = some (line, sink)) :
      Step s (.write none) { s with pipeline := { s.pipeline with sink } } [.writer (.write line)]
  | failed {line : RoutedLine} {sink : Channel RoutedLine} {cause : String}
      (hw : s.writer = .writing) (ht : s.pipeline.sink.take? = some (line, sink)) :
      Step s (.write (some cause))
        { pipeline := { s.pipeline with sink := sink.close }, writer := .ended }
        [.writer (.report (.outputLost cause))]
  | finished {failure : Option String} (hw : s.writer = .writing)
      (ht : s.pipeline.sink.take? = none) (hl : s.pipeline.transformer.isLive = false) :
      Step s (.write failure) { s with writer := .ended } []

variable {s s' : System} {a : Action} {actions : List Action} {effects : List Effect}

theorem act?_eq_some_iff : s.act? a = some (s', effects) ↔ s.Step a s' effects := by
  obtain ⟨p, writer⟩ := s
  constructor
  · intro h
    cases a with
    | pipeline a =>
      cases ha : isReaders a with
      | true => simp [act?, ha] at h
      | false =>
        simp only [act?, ha, Bool.false_eq_true, if_false, Option.map_eq_some_iff] at h
        obtain ⟨⟨p', es⟩, hact, heq⟩ := h
        cases heq
        exact .pipeline ha (Pipeline.act?_eq_some_iff.1 hact)
    | write failure =>
      obtain ⟨⟨writer', sink, es⟩, hmove, heq⟩ := Option.map_eq_some_iff.1 h
      cases heq
      cases writer with
      | ended => cases hmove
      | writing =>
        cases ht : p.sink.take? with
        | none =>
          cases hl : p.transformer.isLive with
          | true => simp [Writer.move?, ht, hl] at hmove
          | false =>
            simp only [Writer.move?, ht, hl] at hmove
            cases hmove
            exact .finished rfl ht hl
        | some taken =>
          cases failure with
          | none =>
            simp only [Writer.move?, ht] at hmove
            cases hmove
            exact .wrote rfl ht
          | some cause =>
            simp only [Writer.move?, ht] at hmove
            cases hmove
            exact .failed rfl ht
  · intro h
    cases h with
    | pipeline ha h => simp [act?, ha, Pipeline.act?_eq_some_iff.2 h]
    | wrote hw ht => cases hw; simp [act?, Writer.move?, ht]
    | failed hw ht => cases hw; simp [act?, Writer.move?, ht]
    | finished hw ht hl => cases hw; simp [act?, Writer.move?, ht, hl]

theorem run?_eq_some_iff : s.run? actions = some (s', effects) ↔ Runs act? s actions effects s' :=
  Runs.of_recursion (fun _ => rfl) fun _ _ _ => rfl

/-! ### The lines on the sink -/

/-- The lines on the sink and those written, against the lines that were put on the sink, in a step
that fails no write. -/
theorem Step.lines_eq (h : Step s a s' effects) (hread : s.pipeline.sink.closed = false)
    (hl : losses effects = []) :
    s'.pipeline.sink.closed = false ∧
      written effects ++ s'.pipeline.sink.items = s.pipeline.sink.items ++ placed effects := by
  cases h with
  | @pipeline a p es ha h =>
    rw [written_pipeline, placed, ofPipeline_pipeline]
    cases h with
    | @worker i _ _ _ _ es =>
      rw [Pipeline.delivered, Pipeline.ofTransformer_worker]
      exact ⟨hread, (List.append_nil _).symm⟩
    | @transformer _ _ sink es hstep =>
      have hclosed : sink.closed = false := hstep.sink_closed.trans hread
      have hsink := hstep.sink_accounts (Channel.accounts_of_open hread)
      rw [Pipeline.delivered, Pipeline.ofTransformer_self]
      exact ⟨hclosed, hsink.complete hclosed⟩
    | take => cases ha
    | closeSink => cases ha
    | cancel => exact ⟨hread, (List.append_nil _).symm⟩
    | tick => exact ⟨hread, (List.append_nil _).symm⟩
  | wrote hw ht =>
    refine ⟨(Channel.take?_closed ht).trans hread, ?_⟩
    obtain ⟨rest, hitems, rfl⟩ := Channel.take?_eq_some_iff.1 ht
    rw [hitems]
    exact (List.append_nil _).symm
  | failed => cases hl
  | finished => exact ⟨hread, (List.append_nil _).symm⟩

/-- As long as no write fails, no line that was put on the sink is lost, and none is written twice
or out of its turn. -/
theorem lines_of_runs (h : Runs act? s actions effects s') (hread : s.pipeline.sink.closed = false)
    (hl : losses effects = []) :
    written effects ++ s'.pipeline.sink.items = s.pipeline.sink.items ++ placed effects := by
  induction h with
  | nil => exact (List.append_nil _).symm
  | @cons s mid s' a actions first more ha _ ih =>
    rw [losses_append] at hl
    obtain ⟨hfirst, hmore⟩ := List.append_eq_nil_iff.1 hl
    obtain ⟨hmid, hlines⟩ := (act?_eq_some_iff.1 ha).lines_eq hread hfirst
    rw [written_append, List.append_assoc, ih hmid hmore, ← List.append_assoc, hlines,
      placed_append, List.append_assoc]

/-- A writer that has ended leaves no line on the sink, and none is put there any more. -/
theorem Step.deserted (h : Step s a s' effects)
    (hs : s.writer = .ended → s.pipeline.Deserted) (hw : s'.writer = .ended) :
    s'.pipeline.Deserted := by
  cases h with
  | pipeline ha h => exact h.deserted (hs hw)
  | wrote hwriting =>
    rw [hwriting] at hw
    cases hw
  | failed => exact ⟨rfl, .inl rfl⟩
  | finished hwriting ht hl =>
    exact ⟨Channel.take?_eq_none_iff.1 ht, .inr (Transformer.eq_ended_of_isLive hl)⟩

theorem deserted_of_runs (h : Runs act? s actions effects s')
    (hs : s.writer = .ended → s.pipeline.Deserted) : s'.writer = .ended → s'.pipeline.Deserted :=
  h.invariant (p := fun s => s.writer = .ended → s.pipeline.Deserted)
    (fun _ _ _ _ hs ha => (act?_eq_some_iff.1 ha).deserted hs) hs

end System

end LogRelay.Agent
