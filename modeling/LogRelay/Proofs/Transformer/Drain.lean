import LogRelay.Proofs.Transformer.Ending

/-!
What the transformer still does when a queue beside it is given up. With a sink that nobody reads it
passes over records that route nowhere and stops at the first that has a line. With a stream that
nobody writes it routes all that is left, in a bounded number of turns, and then ends.
-/

namespace LogRelay.Transformer

/-- Whether the action is a turn of the transformer or of the reader of its sink. -/
def Action.isTurn : Action → Bool
  | .move => true
  | .take => true
  | _ => false

/-- How many turns there are among the actions. -/
def turns (actions : List Action) : Nat := actions.countP Action.isTurn

/-- The turns that are left if no further record comes: one to take each record, one to put each line
on the sink, one to take it from there, and the end. -/
def load (router : Router) (state : State) (stream : Channel Record) (sink : Channel RoutedLine) :
    Nat :=
  stream.items.length + 2 * (stream.items.flatMap router.route).length +
    2 * (due state).length + sink.items.length + if state.isLive then 1 else 0

section Load

variable {router : Router} {stream stream' : Channel Record} {sink sink' : Channel RoutedLine}
  {state state' : State}

theorem load_ofLines (router : Router) (lines : List RoutedLine) (stream : Channel Record)
    (sink : Channel RoutedLine) : load router (.ofLines lines) stream sink =
    stream.items.length + 2 * (stream.items.flatMap router.route).length +
      2 * lines.length + sink.items.length + 1 := by
  simp [load, isLive_ofLines]

theorem load_ended : load router .ended stream.close sink = sink.items.length := by
  simp [load, Channel.close, due, State.isLive]

theorem lt_load (hs : state ≠ .ended) : sink.items.length < load router state stream sink := by
  have hlive : state.isLive = true := by
    cases state with
    | ended => exact absurd rfl hs
    | _ => rfl
  simp only [load, hlive, if_true]
  omega

/-- Every move is a turn that is not left any more. -/
theorem Step.load_lt {cancelled isOpen : Bool} {effects : List Effect}
    (h : Step router cancelled isOpen stream sink state state' stream' sink' effects) :
    load router state' (if state'.isLive then stream' else stream'.close) sink' <
      load router state stream sink := by
  have hgivenUp : state ≠ .ended →
      load router .ended stream.close sink < load router state stream sink := by
    intro hs
    rw [load_ended]
    exact lt_load hs
  cases h with
  | calledOff hs => exact hgivenUp hs
  | exhausted => exact hgivenUp nofun
  | sinkClosed => exact hgivenUp nofun
  | @taken record _ _ ht =>
    obtain ⟨rest, hitems, rfl⟩ := Channel.take?_eq_some_iff.1 ht
    have hbefore := load_ofLines router [] stream sink
    rw [hitems, List.length_cons, List.flatMap_cons, List.length_append] at hbefore
    simp only [State.ofLines, List.length_nil] at hbefore
    rw [isLive_ofLines, if_pos rfl, load_ofLines]
    dsimp only
    omega
  | @sent line rest _ _ hsent =>
    obtain ⟨-, -, rfl⟩ := Channel.send_eq_sent_iff.1 hsent
    have hbefore := load_ofLines router (line :: rest) stream sink
    simp only [State.ofLines, List.length_cons] at hbefore
    rw [isLive_ofLines, if_pos rfl, load_ofLines, List.length_append, List.length_singleton]
    omega

end Load

namespace System

variable {router : Router} {s s' : System} {a : Action} {actions : List Action}
  {effects : List Effect} {record : Record} {before after : List Record}

/-! ### A sink that nobody reads -/

/-- With a sink that nobody reads, all that is seen of an action is a record that is taken. -/
theorem act?_cases_of_sinkClosed (h : s.act? router a = some (s', effects))
    (hclosed : s.sink.closed = true) :
    (s.state = .waiting ∧ ∃ record, s'.state = .ofLines (router.route record) ∧
        effects = .take record :: complaint router record) ∨
      (effects = [] ∧ (s'.state = s.state ∨ s'.state = .ended)) := by
  rcases act?_cases h with ⟨-, stream, hstep, -⟩ | ⟨-, hstate, rfl⟩
  · rcases hstep.of_sinkClosed hclosed with htaken | ⟨hend, rfl⟩
    · exact .inl htaken
    · exact .inr ⟨rfl, .inr hend⟩
  · exact .inr ⟨rfl, .inl hstate⟩

theorem emitted_of_sinkClosed (h : Runs (act? router) s actions effects s')
    (hclosed : s.sink.closed = true) : emitted effects = [] := by
  induction h with
  | nil => rfl
  | cons ha _ ih =>
    rw [emitted_append, ih ((remains_of_act? ha).sinkClosed hclosed), List.append_nil]
    rcases act?_cases_of_sinkClosed ha hclosed with ⟨-, record, -, rfl⟩ | ⟨rfl, -⟩
    · exact emitted_complaint record
    · rfl

/-- A transformer that has a line for a sink that nobody reads takes no record any more. -/
theorem consumed_of_sinkClosed (h : Runs (act? router) s actions effects s')
    (hclosed : s.sink.closed = true) (hs : s.state ≠ .waiting) :
    consumed effects = [] ∧ s'.state ≠ .waiting := by
  induction h with
  | nil => exact ⟨rfl, hs⟩
  | @cons s mid s' a actions first more ha _ ih =>
    rcases act?_cases_of_sinkClosed ha hclosed with ⟨hwaiting, -⟩ | ⟨rfl, hstate⟩
    · exact absurd hwaiting hs
    · have hmid : mid.state ≠ .waiting := by
        rcases hstate with hstate | hstate
        · rwa [hstate]
        · rw [hstate]
          nofun
      exact ih ((remains_of_act? ha).sinkClosed hclosed) hmid

/-- The records that are taken while nobody reads the sink all route nowhere, but for one that may
come last; with that one the transformer has stopped. -/
theorem discards_of_runs (h : Runs (act? router) s actions effects s')
    (hclosed : s.sink.closed = true) (hs : s.state = .waiting) :
    (∀ r ∈ consumed effects, router.route r = []) ∨
      ∃ discarded r, consumed effects = discarded ++ [r] ∧
        (∀ d ∈ discarded, router.route d = []) ∧ router.route r ≠ [] ∧ s'.state ≠ .waiting := by
  induction h with
  | nil => exact .inl (by simp [consumed])
  | @cons s mid s' a actions first more ha hrest ih =>
    have hmid := (remains_of_act? ha).sinkClosed hclosed
    rcases act?_cases_of_sinkClosed ha hclosed with ⟨-, r, hstate, rfl⟩ | ⟨rfl, hstate | hend⟩
    · have htaken : consumed (.take r :: complaint router r) = [r] :=
        congrArg (r :: ·) (consumed_complaint r)
      rw [consumed_append, htaken]
      cases hroute : router.route r with
      | nil =>
        rw [hroute] at hstate
        rcases ih hmid hstate with hall | ⟨discarded, last, hconsumed, hall, hlast, hend⟩
        · left
          simpa [hroute] using hall
        · right
          exact ⟨r :: discarded, last, by rw [hconsumed]; rfl, by simpa [hroute] using hall, hlast,
            hend⟩
      | cons line rest =>
        have hspent : mid.state ≠ .waiting := by simp [hstate, hroute, State.ofLines]
        obtain ⟨hnone, hend⟩ := consumed_of_sinkClosed hrest hmid hspent
        right
        exact ⟨[], r, by rw [hnone]; rfl, by simp, by simp [hroute], hend⟩
    · exact ih hmid (hstate.trans hs)
    · have hspent : mid.state ≠ .waiting := by simp [hend]
      left
      intro r hr
      rw [consumed_append, (consumed_of_sinkClosed hrest hmid hspent).1] at hr
      cases hr

/-- The system with other records on the stream. -/
def withRecords (s : System) (records : List Record) : System :=
  { s with stream := { s.stream with items := records } }

theorem act?_of_next (router : Router) {rest : List Record} (hs : s.state = .waiting) (hc : s.cancelled = false)
    (hitems : s.stream.items = record :: rest) :
    s.act? router .move = some ({ s.withRecords rest with state := .ofLines (router.route record) },
      .take record :: complaint router record) := by
  have htake : s.stream.take? = some (record, { s.stream with items := rest }) :=
    Channel.take?_eq_some_iff.2 ⟨rest, hitems, rfl⟩
  refine act?_move_iff.2 ⟨{ s.stream with items := rest }, ?_, ?_, rfl, rfl⟩
  · rw [hs]
    exact .taken hc htake
  · exact (if_pos (isLive_ofLines _)).symm

/-- Records that route nowhere are taken one after the other, whoever reads the sink. -/
theorem exists_run_past {rest : List Record} (hs : s.state = .waiting) (hc : s.cancelled = false)
    (hitems : s.stream.items = before ++ rest) (hbefore : ∀ r ∈ before, router.route r = []) :
    ∃ effects, Runs (act? router) s (List.replicate before.length .move) effects
        (s.withRecords rest) ∧ consumed effects = before := by
  induction before generalizing s with
  | nil =>
    have hsame : s.withRecords rest = s := by
      rw [withRecords, ← List.nil_append rest, ← hitems]
    rw [hsame]
    exact ⟨[], .nil s, rfl⟩
  | cons r before ih =>
    have hfirst := act?_of_next router hs hc hitems
    have hwaiting : State.ofLines (router.route r) = s.state := by
      rw [hbefore r List.mem_cons_self, hs]
      rfl
    rw [hwaiting] at hfirst
    obtain ⟨effects, hrest, hconsumed⟩ :=
      ih (s := s.withRecords (before ++ rest)) hs hc rfl
        fun b hb => hbefore b (List.mem_cons_of_mem r hb)
    refine ⟨_, .cons hfirst hrest, ?_⟩
    rw [consumed_append, hconsumed]
    exact congrArg (r :: · ++ before) (consumed_complaint r)

/-- The first record that has a line is the last one. -/
theorem exists_run_to_line (hs : s.state = .waiting) (hc : s.cancelled = false)
    (hclosed : s.sink.closed = true) (hitems : s.stream.items = before ++ record :: after)
    (hbefore : ∀ r ∈ before, router.route r = []) (hrecord : router.route record ≠ []) :
    ∃ s' effects, Runs (act? router) s (List.replicate (before.length + 2) .move) effects s' ∧
      s'.state = .ended ∧ consumed effects = before ++ [record] := by
  obtain ⟨first, hpast, hconsumed⟩ := exists_run_past hs hc hitems hbefore
  obtain ⟨line, rest, hlines⟩ := List.exists_cons_of_ne_nil hrecord
  have hnext := act?_of_next router (s := s.withRecords (record :: after)) hs hc rfl
  rw [hlines] at hnext
  have hends : EndsBy { s.withRecords after with state := .sending line rest } :=
    .sinkClosed hclosed
  have hrun := (hpast.snoc hnext).snoc (act?_of_endsBy hends)
  rw [List.append_assoc] at hrun
  rw [← List.replicate_append_replicate]
  refine ⟨_, _, hrun, rfl, ?_⟩
  rw [List.append_nil, consumed_append, hconsumed]
  exact congrArg (before ++ record :: ·) (consumed_complaint record)

/-! ### A stream that nobody writes -/

theorem not_put_of_isOpen (ho : s.isOpen = false) :
    s.act? router (.put record) ≠ some (s', effects) := by
  intro h
  rw [(act?_put_iff.1 h).1] at ho
  cases ho

theorem isOpen_of_runs (h : Runs (act? router) s actions effects s') (ho : s.isOpen = false) :
    s'.isOpen = false ∧ puts actions = [] := by
  induction h with
  | nil => exact ⟨ho, rfl⟩
  | @cons s mid s' a actions first more ha _ ih =>
    obtain ⟨ho', hputs⟩ := ih ((remains_of_act? ha).isOpen ho)
    refine ⟨ho', ?_⟩
    cases a with
    | put record => exact absurd ha (not_put_of_isOpen ho)
    | _ => exact hputs

/-- A transformer that ends undisturbed has routed what it had in hand, and all that was left on its
stream. -/
theorem drained_of_runs (h : Runs (act? router) s actions effects s')
    (hcalm : ∀ a ∈ actions, a.isCalm) (hs : s.Undisturbed) (ho : s.isOpen = false)
    (hgiven : s'.stream.items = []) (hend : s'.state = .ended) :
    consumed effects = s.stream.items ∧
      emitted effects = due s.state ++ s.stream.items.flatMap router.route := by
  have hitems := items_of_runs h hcalm hs
  rw [hgiven, (isOpen_of_runs h ho).2, List.append_nil, List.append_nil] at hitems
  obtain ⟨rest, hlines, hrest⟩ := (path_of_runs h hcalm hs).lines_eq
  rw [hrest (.inr trivial), hend, hitems] at hlines
  refine ⟨hitems, ?_⟩
  rw [← hlines]
  exact (List.append_nil _).symm

/-! ### Turns -/

/-- The turns that are left when no record can come any more. -/
abbrev load (router : Router) (s : System) : Nat :=
  Transformer.load router s.state s.stream s.sink

/-- When no record can come any more, every turn is paid for by the load. -/
theorem load_le_of_act? (h : s.act? router a = some (s', effects)) (ho : s.isOpen = false) :
    (if a.isTurn then 1 else 0) + s'.load router ≤ s.load router := by
  cases a with
  | move =>
    obtain ⟨stream, hstep, hstream, -⟩ := act?_move_iff.1 h
    have hlt : s'.load router < s.load router := by
      rw [load, hstream]
      exact hstep.load_lt
    change 1 + s'.load router ≤ s.load router
    omega
  | put record => exact absurd h (not_put_of_isOpen ho)
  | take =>
    obtain ⟨line, sink, htake, rfl, -⟩ := act?_take_iff.1 h
    obtain ⟨rest, hitems, rfl⟩ := Channel.take?_eq_some_iff.1 htake
    simp only [load, Transformer.load, hitems, List.length_cons, Action.isTurn, if_true]
    omega
  | finish => cases h; simp [load, Action.isTurn]
  | close =>
    cases h
    simp only [load, Transformer.load, Channel.close, List.length_nil, Action.isTurn]
    simp
  | cancel => cases h; simp [load, Action.isTurn]

theorem load_le_of_runs (h : Runs (act? router) s actions effects s') (ho : s.isOpen = false) :
    turns actions + s'.load router ≤ s.load router := by
  induction h with
  | nil => simp [turns]
  | @cons s mid s' a actions first more ha _ ih =>
    have hfirst := load_le_of_act? ha ho
    have hrest := ih ((remains_of_act? ha).isOpen ho)
    rw [turns] at hrest ⊢
    rw [List.countP_cons]
    omega

/-- Until the end a turn can be taken, as long as the sink has room for one line at all. -/
theorem exists_turn (ho : s.isOpen = false) (hroom : 0 < s.sink.capacity) (hs : s.state ≠ .ended) :
    ∃ a, a.isTurn = true ∧ (s.act? router a).isSome = true := by
  by_cases hends : s.EndsBy
  · exact ⟨.move, rfl, by rw [act?_of_endsBy hends]; rfl⟩
  have hc : s.cancelled = false := by
    rw [← Bool.not_eq_true]
    exact fun hc => hends (.calledOff hs hc)
  cases hstate : s.state with
  | ended => exact absurd hstate hs
  | waiting =>
    cases hitems : s.stream.items with
    | nil =>
      have hexhausted : Transformer.EndsBy s.cancelled s.isOpen s.stream s.sink .waiting :=
        .exhausted hitems ho
      rw [← hstate] at hexhausted
      exact absurd hexhausted hends
    | cons r rest => exact ⟨.move, rfl, by rw [act?_of_next router hstate hc hitems]; rfl⟩
  | sending line rest =>
    cases hsend : s.sink.send line with
    | sent sink => exact ⟨.move, rfl, by simp [act?, move?, hc, hstate, hsend]⟩
    | closed => exact ⟨.move, rfl, by simp [act?, move?, hc, hstate, hsend]⟩
    | full =>
      -- a sink that is full holds a line, which its reader can take
      have hfull := Channel.le_length_of_full hsend
      obtain ⟨first, more, hitems⟩ : ∃ first more, s.sink.items = first :: more :=
        List.exists_cons_of_length_pos (by omega)
      exact ⟨.take, rfl, by simp [act?, Channel.take?, hitems]⟩

theorem capacity_of_runs (h : Runs (act? router) s actions effects s') :
    s'.sink.capacity = s.sink.capacity :=
  h.invariant (p := fun other => other.sink.capacity = s.sink.capacity)
    (fun _ _ _ _ hs ha => (remains_of_act? ha).capacity.trans hs) rfl

end System

/-! ### The whole run -/

/-- Over every run of the transformer, with any room on its stream and its sink and whatever happens
around it. It has ended exactly if one of its moves was an end; a move is an end exactly if the
transformer is called off, no record is left and none can come, or a line finds the sink closed, and
each of these can end it at once. Until then every record that was put on the stream is still there
or routed, but for the lines in hand. Once it is called off nothing more is seen of it. With a sink
that nobody reads it passes over records that route nowhere and stops at the first that has a line.
With a stream that nobody writes there are only so many turns left, one can be taken until the end,
and undisturbed the transformer routes all that is left before it ends. -/
theorem ends_only_when_called_off_exhausted_or_closed (router : Router)
    (streamCapacity sinkCapacity : Nat) (actions : List Action) {s : System} {effects : List Effect}
    (hrun : (System.start streamCapacity sinkCapacity).run? router actions = some (s, effects)) :
    (s.state = .ended ↔ ∃ before after mid seen, actions = before ++ .move :: after ∧
      (System.start streamCapacity sinkCapacity).run? router before = some (mid, seen) ∧
      mid.EndsBy) ∧
    (∀ s' new, s.act? router .move = some (s', new) → (s'.state = .ended ↔ s.EndsBy)) ∧
    (s.EndsBy →
      s.act? router .move = some ({ s with state := .ended, stream := s.stream.close }, [])) ∧
    (s.state ≠ .ended → consumed effects ++ s.stream.items = puts actions ∧
      emitted effects ++ due s.state = (consumed effects).flatMap router.route) ∧
    (s.cancelled = true → ∀ later s' new, s.run? router later = some (s', new) →
      new = [] ∧ (.move ∈ later → s'.state = .ended)) ∧
    (s.sink.closed = true → s.state = .waiting →
      (∀ later s' new, s.run? router later = some (s', new) →
        emitted new = [] ∧ reported new = router.rejections (consumed new) ∧
        ((∀ r ∈ consumed new, router.route r = []) ∨
          ∃ discarded r, consumed new = discarded ++ [r] ∧
            (∀ d ∈ discarded, router.route d = []) ∧ router.route r ≠ [] ∧
            s'.state ≠ .waiting)) ∧
      (s.cancelled = false → ∀ before rest, s.stream.items = before ++ rest →
        (∀ b ∈ before, router.route b = []) →
        (∃ new, s.run? router (List.replicate before.length .move) =
          some (s.withRecords rest, new) ∧ consumed new = before) ∧
        ∀ r after, rest = r :: after → router.route r ≠ [] →
          ∃ s' new, s.run? router (List.replicate (before.length + 2) .move) = some (s', new) ∧
            s'.state = .ended ∧ consumed new = before ++ [r])) ∧
    (s.isOpen = false → ∀ later s' new, s.run? router later = some (s', new) →
      turns later + s'.load router ≤ s.load router ∧
      (0 < sinkCapacity → s'.state ≠ .ended →
        ∃ a, a.isTurn = true ∧ (s'.act? router a).isSome = true) ∧
      (s.Undisturbed → (∀ a ∈ later, a.isCalm) → s'.state = .ended →
        consumed new = s.stream.items ∧
        emitted new = due s.state ++ s.stream.items.flatMap router.route)) := by
  simp only [System.run?_eq_some_iff] at hrun ⊢
  have hkeeps : s.Keeps := System.keeps_of_runs hrun ⟨nofun, nofun⟩
  have haccounts := System.stream_accounts_of_runs hrun (Channel.accounts_start streamCapacity)
  have hpath := System.path_of_any_runs hrun
  refine ⟨System.ended_iff hrun nofun, fun s' new => System.ended_iff_endsBy,
    System.act?_of_endsBy, ?_, fun hc later s' new hlater => System.quiet_of_cancelled hlater hc,
    ?_, ?_⟩
  · intro hs
    have hopen : s.stream.closed = false := by
      rw [← Bool.not_eq_true]
      exact fun hclosed => hs (hkeeps.1 hclosed)
    obtain ⟨rest, hlines, hrest⟩ := hpath.lines_eq
    rw [hrest (.inl hs)] at hlines
    exact ⟨haccounts.complete hopen, hlines⟩
  · intro hclosed hs
    constructor
    · intro later s' new hlater
      exact ⟨System.emitted_of_sinkClosed hlater hclosed,
        (System.path_of_any_runs hlater).reported_eq, System.discards_of_runs hlater hclosed hs⟩
    · intro hc before rest hitems hbefore
      refine ⟨System.exists_run_past hs hc hitems hbefore, ?_⟩
      rintro r after rfl hr
      exact System.exists_run_to_line hs hc hclosed hitems hbefore hr
  · intro ho later s' new hlater
    refine ⟨System.load_le_of_runs hlater ho, fun hroom hs => ?_, fun hundisturbed hcalm hend => ?_⟩
    · apply System.exists_turn (System.isOpen_of_runs hlater ho).1 _ hs
      rw [System.capacity_of_runs hlater, System.capacity_of_runs hrun]
      exact hroom
    · have hclosed : s'.stream.closed = true := (System.keeps_of_runs hlater hkeeps).2 hend
      have hgiven := (System.stream_accounts_of_runs hlater haccounts).emptied hclosed
      exact System.drained_of_runs hlater hcalm hundisturbed ho hgiven hend

/-- An old record, an empty text and a record with two lines wait when the reader of the sink goes
away; another record with a line comes after them. -/
def abandonedSink : List Action :=
  [.put ⟨"p", "j", some ⟨99, 0⟩, "y"⟩, .put ⟨"p", "i", none, ""⟩, .put ⟨"p", "i", none, "x"⟩,
    .put ⟨"p", "j", none, "z"⟩, .close]

theorem ends_at_first_line_for_abandonedSink :
    ∃ s effects, (System.start 4 1).run? sharedRouter abandonedSink = some (s, effects) ∧
      ∃ s' new, s.run? sharedRouter [.move, .move, .move, .move] = some (s', new) ∧
        s'.state = .ended ∧ (consumed new).map (·.content) = ["y", "", "x"] ∧ emitted new = [] ∧
        reported new = [.unparsable ""] := by
  obtain ⟨-, -, -, -, -, hclosed, -⟩ :=
    ends_only_when_called_off_exhausted_or_closed sharedRouter 4 1 abandonedSink rfl
  obtain ⟨hall, hnext⟩ := hclosed rfl rfl
  obtain ⟨-, hline⟩ :=
    hnext rfl [⟨"p", "j", some ⟨99, 0⟩, "y"⟩, ⟨"p", "i", none, ""⟩] _ rfl (by decide)
  obtain ⟨s', new, hlater, hend, hconsumed⟩ := hline _ _ rfl (by decide)
  obtain ⟨hemitted, hreported, -⟩ := hall _ s' new hlater
  refine ⟨_, _, rfl, s', new, hlater, hend, ?_, hemitted, ?_⟩
  · rw [hconsumed]
    rfl
  · rw [hreported, hconsumed]
    rfl

end LogRelay.Transformer
