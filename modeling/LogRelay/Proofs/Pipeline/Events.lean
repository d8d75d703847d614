import LogRelay.Postgres.Parser
import LogRelay.Proofs.Event.Lines
import LogRelay.Proofs.Pipeline.Run
import LogRelay.Proofs.Startup.Sharing

/-!
What a pipeline tells about, and how its text is cut into lines. Every event has its mark in front of
its first line, and what it embeds is not looked into: a record of several lines that cannot be parsed
brings its further lines into the text unmarked.
-/

namespace LogRelay.Pipeline

variable {p p' : Pipeline} {a : Action} {actions : List Action} {effects : List Effect} {e : Event}

/-- What a pipeline tells about: records whose text is no entry, and of a worker that it rests or that
a message is passed over, under the name of its server. -/
inductive Tells (p : Pipeline) (effects : List Effect) : Event → Prop
  | unparsable {record : Record} (hr : record ∈ Transformer.consumed (ofTransformer effects)) :
      Tells p effects ⟨.unparsable record.content, none⟩
  | receiveFailed {i : Nat} {s : Subscription} {cause : String}
      (hs : p.subscriptions[i]? = some s) :
      Tells p effects ⟨.receiveFailed s.worker.subscription s.worker.retrySecs (.transport cause),
        s.worker.server⟩
  | undecodable {i : Nat} {s : Subscription} {cause : Envelope.Error}
      (hs : p.subscriptions[i]? = some s) :
      Tells p effects ⟨.undecodable cause, s.worker.server⟩

theorem Tells.severity (h : Tells p effects e) : e.happening.severity = .error := by
  cases h <;> rfl

/-- Only workers that there are do anything. -/
theorem exists_subscription_of_runs (h : Runs act? p actions effects p') {i : Nat}
    {seen : Worker.Effect} (he : .worker i seen ∈ effects) : ∃ s, p.subscriptions[i]? = some s := by
  induction h with
  | nil => cases he
  | @cons p mid p' a actions first more ha _ ih =>
    have hstep := act?_eq_some_iff.1 ha
    rcases List.mem_append.1 he with he | he
    · cases hstep with
      | @worker j m s state stream es hs h =>
        obtain ⟨_, -, heq⟩ := List.mem_map.1 he
        cases heq
        exact ⟨s, hs⟩
      | transformer => simp at he
      | take => simp at he
      | _ => cases he
    · obtain ⟨s, hs⟩ := ih he
      have hi : i < p.subscriptions.length := by
        rw [← length_subscriptions_of_step hstep]
        exact (List.getElem?_eq_some_iff.1 hs).1
      exact ⟨_, List.getElem?_eq_getElem hi⟩

theorem tells_of_runs (h : Runs act? p actions effects p') (he : e ∈ effects.filterMap p.event?) :
    Tells p effects e := by
  obtain ⟨effect, hmem, hevent⟩ := List.mem_filterMap.1 he
  cases effect with
  | line routed => cases hevent
  | worker i seen =>
    cases seen with
    | report told =>
      obtain ⟨s, hs⟩ := exists_subscription_of_runs h hmem
      obtain ⟨_, -, hpath⟩ := worker_path_of_runs h hs
      have hseen : .report told ∈ ofWorker i effects :=
        List.mem_filterMap.2 ⟨_, hmem, by simp [Effect.ofWorker?]⟩
      simp only [event?, hs, Option.bind_some, Option.some.injEq] at hevent
      rcases hpath.of_report hseen with ⟨cause, rfl⟩ | ⟨cause, rfl⟩
      · rw [← hevent]
        exact .receiveFailed hs
      · rw [← hevent]
        exact .undecodable hs
    | receive => cases hevent
    | acknowledge ids => cases hevent
    | emit record => cases hevent
  | transformer seen =>
    cases seen with
    | report told =>
      cases hevent
      have htold : told ∈ Transformer.reported (ofTransformer effects) :=
        List.mem_filterMap.2 ⟨.report told, List.mem_filterMap.2 ⟨_, hmem, rfl⟩, rfl⟩
      rw [(transformer_path_of_runs h).reported_eq] at htold
      obtain ⟨record, hrecord, htold⟩ := List.mem_filterMap.1 htold
      split at htold
      · cases htold
        exact .unparsable hrecord
      · cases htold
    | take record => cases hevent
    | emit line => cases hevent

/-! ### A record that brings a line of the output -/

/-- One worker, to which every message is the record. -/
def bringing (router : Router) (record : Record) : Pipeline where
  router
  subscriptions := [{ worker := {
    subscription := "s", decode := fun _ => .ok (some record), retrySecs := 60 } }]
  stream := { capacity := 1 }
  sink := { capacity := 1 }
  now := 0

/-- A message comes, and its record is taken off the stream. -/
def oneMessage : List Action :=
  [.worker 0 .resume, .worker 0 (.received (.ok [⟨"a", []⟩])), .worker 0 (.acknowledged (.ok ())),
    .worker 0 .resume, .transformer]

/-- A record whose text is no entry is told about, whatever its text is. -/
theorem exists_run_unparsable {router : Router} {record : Record} (h : router.line? record = none) :
    ∃ p effects, (bringing router record).run? oneMessage = some (p, effects) ∧
      ⟨.unparsable record.content, none⟩ ∈ effects.filterMap (bringing router record).event? := by
  have hcomplaint : Transformer.complaint router record = [.report (.unparsable record.content)] := by
    rw [Transformer.complaint, h]
  have hrun : ∃ p, (bringing router record).run? oneMessage = some (p,
      [.worker 0 .receive, .worker 0 (.acknowledge ["a"]), .worker 0 (.emit record),
        .worker 0 .receive, .transformer (.take record)] ++
        ((Transformer.complaint router record).map .transformer ++ [])) := ⟨_, rfl⟩
  obtain ⟨p, hrun⟩ := hrun
  refine ⟨p, _, hrun,
    List.mem_filterMap.2 ⟨.transformer (.report (.unparsable record.content)), ?_, rfl⟩⟩
  rw [hcomplaint]
  exact List.mem_append_right _ List.mem_cons_self

/-- A line of the output that no server has written. -/
def untrueLine : RoutedLine :=
  ⟨⟨"p:i", "google_cloudsql", ""⟩, none, .log, none, none, none, "all is well"⟩

/-- The record that brings it, between two line ends. -/
def untrueRecord : Record := ⟨"p", "i", none, "x" ++ "\n" ++ untrueLine.text ++ "\n" ++ ""⟩

/-- No server, and the default line parser. -/
def bareRouter : Router := ⟨[], Postgres.parseLine, .earliest⟩

-- The characters come from the values: the texts between would be encoded and decoded again.
theorem toList_untrueLine : untrueLine.text.toList = untrueLine.json.write := by
  rw [RoutedLine.text, Json.Value.render, String.toList_ofList]

theorem newline_not_mem_untrueLine : '\n' ∉ untrueLine.text.toList := by
  rw [toList_untrueLine]
  decide +kernel

theorem visible_untrueLine :
    untrueLine.text.toList.flatMap Text.visibleChar = untrueLine.text.toList := by
  rw [toList_untrueLine]
  decide +kernel

theorem line?_untrueRecord : bareRouter.line? untrueRecord = none := by
  have htext : (restoreLineTerminator untrueRecord.content).toList =
      'x' :: '\n' :: (untrueLine.json.write ++ ['\n', '\n']) := by
    simp [restoreLineTerminator, untrueRecord, String.toList_append, toList_untrueLine]
  rw [Router.line?, Option.map_eq_none_iff]
  show Postgres.parseLine "" _ = none
  rw [Postgres.parseLine, htext]
  decide +kernel

/-! ### The lines of the texts -/

/-- Over every run of a pipeline, every setup and every level of the settings. What is told is an error
of one of three kinds, or a warning of the setup. The heading stands in front of the first line of its
text; the further lines are those of the name and the message that the event embeds, and are marked
only if they begin with the heading themselves. Only they can be like a line of the output, and there
are none if neither the name, where the level lets it through, nor the message holds a line end. -/
theorem only_embedded_lines_are_unmarked {σ τ : Type} (strict : Bool) (servers : List Server)
    (providers : List (Provider σ τ)) (seed : σ) (level : String)
    (hrun : p.run? actions = some (p', effects))
    (he : e ∈ effects.filterMap p.event? ∨
      e ∈ (Startup.run strict servers providers seed).warnings) :
    (Tells p effects e ∧ e.happening.severity = .error ∨ e.happening.severity = .warn) ∧
    ∃ first rest,
      Text.lines (Event.scope level e.server ++ Text.visible e.happening.message) = first :: rest ∧
      Text.lines (e.render level) = (e.heading.toList ++ first) :: rest ∧
      ((∀ line ∈ Text.lines (e.render level), e.heading.toList <+: line) ↔
        ∀ line ∈ rest, e.heading.toList <+: line) ∧
      (∀ r : RoutedLine, r.text.toList ∈ Text.lines (e.render level) → r.text.toList ∈ rest) ∧
      (rest = [] ↔
        (Severity.info.isShownAt level = true → ∀ name, e.server = some name → '\n' ∉ name.toList) ∧
        '\n' ∉ e.happening.message.toList) := by
  refine ⟨?_, ?_⟩
  · rcases he with he | he
    · have htells := tells_of_runs (run?_eq_some_iff.1 hrun) he
      exact .inl ⟨htells, htells.severity⟩
    · exact .inr (Startup.severity_of_mem_warnings he)
  · obtain ⟨first, rest, hlines⟩ :=
      List.exists_cons_of_ne_nil (List.splitOn_ne_nil '\n' (e.body level).toList)
    have hrender := Event.lines_render hlines
    have hmarked : e.heading.toList <+: e.heading.toList ++ first := List.prefix_append _ _
    refine ⟨first, rest, hlines, hrender, ?_, fun r hr => ?_, ?_⟩
    · rw [hrender, List.forall_mem_cons]
      exact and_iff_right hmarked
    · rw [hrender] at hr
      rcases List.mem_cons.1 hr with heq | hr
      · rw [← heq] at hmarked
        exact absurd hmarked (e.not_heading_isPrefix r)
      · exact hr
    · rw [Text.splitOn_eq_singleton_iff hlines, Event.newline_mem_body, not_or, not_and, not_exists]
      simp only [not_and]

theorem only_embedded_lines_are_unmarked_untrueRecord :
    ∃ p effects first rest,
      (bringing bareRouter untrueRecord).run? oneMessage = some (p, effects) ∧
      ⟨.unparsable untrueRecord.content, none⟩ ∈
        effects.filterMap (bringing bareRouter untrueRecord).event? ∧
      Text.lines (Event.render "info" ⟨.unparsable untrueRecord.content, none⟩) =
        ("DBFLEET | ERROR | ".toList ++ first) :: rest ∧
      untrueLine.text.toList ∈ rest := by
  obtain ⟨p, effects, hrun, he⟩ := exists_run_unparsable line?_untrueRecord
  obtain ⟨-, first, rest, -, hrender, -, hembedded, -⟩ :=
    only_embedded_lines_are_unmarked false [] ([] : List (Provider Unit Unit)) () "info" hrun (.inl he)
  exact ⟨p, effects, first, rest, hrun, he, hrender, hembedded untrueLine
    (Event.mem_lines_render_unparsable newline_not_mem_untrueLine visible_untrueLine "info" "x" "")⟩

/-- Not every line is marked: what a record embeds can pass for a line of the output. -/
theorem untrueLine_passes_for_output :
    ∃ p effects e,
      (bringing bareRouter untrueRecord).run? oneMessage = some (p, effects) ∧
      e ∈ effects.filterMap (bringing bareRouter untrueRecord).event? ∧
      untrueLine.text.toList ∈ Text.lines (e.render "info") ∧
      ¬ ∀ line ∈ Text.lines (e.render "info"), e.heading.toList <+: line := by
  obtain ⟨p, effects, hrun, he⟩ := exists_run_unparsable line?_untrueRecord
  have hline : untrueLine.text.toList ∈
      Text.lines (Event.render "info" ⟨.unparsable untrueRecord.content, none⟩) :=
    Event.mem_lines_render_unparsable newline_not_mem_untrueLine visible_untrueLine "info" "x" ""
  exact ⟨p, effects, _, hrun, he, hline, fun hall => Event.not_heading_isPrefix _ _ (hall _ hline)⟩

end LogRelay.Pipeline
