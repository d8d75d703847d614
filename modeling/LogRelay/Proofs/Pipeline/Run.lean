import LogRelay.Proofs.Pipeline.History
import LogRelay.Proofs.Runs

/-!
Runs of the pipeline. A step is a move of one worker, a move of the transformer, or something around
them, and each leaves the rest as it is; so a run is a path of every worker and of the transformer at
once, and the accounts of the stream and of the sink balance throughout.
-/

namespace LogRelay.Pipeline

section

variable {p : Pipeline} {settings : Settings} {parser : Postgres.LineParser} {workers : List Worker}
  {now : Nat} {sink : Channel RoutedLine}

/-- There is a pipeline exactly if there can be a stream of the room that the settings ask for. -/
theorem make?_eq_some_iff :
    make? settings parser workers now sink = some p ↔
      (0 < settings.streamCapacity ∧ settings.streamCapacity ≤ Channel.maxCapacity) ∧
        p = { router := ⟨settings.servers, parser,
                freshnessHorizon (instantOf now) settings.freshnessWindowSecs⟩
              subscriptions := workers.map fun worker => { worker }
              stream := { capacity := settings.streamCapacity }
              sink, now } := by
  rw [make?, Channel.open?]
  split
  · next h => simp [h, eq_comm]
  · next h => simp [h]

theorem isSome_make?_iff :
    (make? settings parser workers now sink).isSome ↔
      0 < settings.streamCapacity ∧ settings.streamCapacity ≤ Channel.maxCapacity := by
  rw [Option.isSome_iff_exists]
  simp only [make?_eq_some_iff, exists_eq_right]

/-- Before the first step every worker and the transformer are live. -/
theorem liveTasks_make? (h : make? settings parser workers now sink = some p) :
    p.liveTasks = 1 + workers.length := by
  obtain ⟨-, rfl⟩ := make?_eq_some_iff.1 h
  have hworkers : (workers.map fun worker => ({ worker } : Subscription)).countP
      (·.state.isLive) = workers.length := by
    rw [List.countP_map]
    exact List.countP_eq_length.2 fun _ _ => rfl
  rw [liveTasks, hworkers, Nat.add_comm]
  rfl

end

/-- One step of a pipeline, with everything that it changes. -/
inductive Step (p : Pipeline) : Action → Pipeline → List Effect → Prop
  | worker {i : Nat} {m : Worker.Move} {s : Subscription} {state : Worker.State}
      {stream : Channel Record} {es : List Worker.Effect} (hs : p.subscriptions[i]? = some s)
      (h : Worker.Step s.worker p.cancelled p.now p.stream s.state m state stream es) :
      Step p (.worker i m)
        { p with subscriptions := p.subscriptions.set i { s with state }, stream }
        (es.map (.worker i))
  | transformer {state : Transformer.State} {stream : Channel Record} {sink : Channel RoutedLine}
      {es : List Transformer.Effect}
      (h : Transformer.Step p.router p.cancelled p.isOpen p.stream p.sink p.transformer state stream
        sink es) :
      Step p .transformer
        { p with
          transformer := state, sink, stream := if state.isLive then stream else stream.close }
        (es.map .transformer)
  | take {line : RoutedLine} {sink : Channel RoutedLine} (ht : p.sink.take? = some (line, sink)) :
      Step p .take { p with sink } [.line line]
  | closeSink : Step p .closeSink { p with sink := p.sink.close } []
  | cancel : Step p .cancel { p with cancelled := true } []
  | tick (n : Nat) : Step p (.tick n) { p with now := p.now + n } []

variable {p p' : Pipeline} {a : Action} {actions : List Action} {effects : List Effect} {i : Nat}
  {s : Subscription} {keys : List String}

theorem act?_eq_some_iff : p.act? a = some (p', effects) ↔ p.Step a p' effects := by
  constructor
  · intro h
    cases a with
    | worker i m =>
      obtain ⟨s, hs, h⟩ := Option.bind_eq_some_iff.1 h
      obtain ⟨⟨state, stream, es⟩, hmove, h⟩ := Option.bind_eq_some_iff.1 h
      cases h
      exact .worker hs (Worker.step_of_move? hmove)
    | transformer =>
      obtain ⟨⟨state, stream, sink, es⟩, hmove, h⟩ := Option.bind_eq_some_iff.1 h
      cases h
      exact .transformer (Transformer.move?_eq_some_iff.1 hmove)
    | take =>
      obtain ⟨⟨line, sink⟩, htake, h⟩ := Option.bind_eq_some_iff.1 h
      cases h
      exact .take htake
    | closeSink => cases h; exact .closeSink
    | cancel => cases h; exact .cancel
    | tick n => cases h; exact .tick n
  · intro h
    cases h with
    | worker hs h => simp [act?, hs, Worker.move?_of_step h]
    | transformer h => simp [act?, Transformer.move?_eq_some_iff.2 h]
    | take ht => simp [act?, ht]
    | closeSink => rfl
    | cancel => rfl
    | tick n => rfl

theorem run?_eq_some_iff : p.run? actions = some (p', effects) ↔ Runs act? p actions effects p' :=
  Runs.of_recursion (fun _ => rfl) fun _ _ _ => rfl

/-! ### The workers -/

/-- A step is a move of the worker, or it leaves the worker alone. -/
theorem Step.subscription_cases (h : p.Step a p' effects) (hs : p.subscriptions[i]? = some s) :
    (∃ m state stream es,
      Worker.Step s.worker p.cancelled p.now p.stream s.state m state stream es ∧
        a.moveOf? i = some m ∧ p'.subscriptions[i]? = some { s with state } ∧
        ofWorker i effects = es) ∨
      (a.moveOf? i = none ∧ p'.subscriptions[i]? = some s ∧ ofWorker i effects = []) := by
  cases h with
  | @worker j m t state stream es ht hstep =>
    by_cases hj : j = i
    · subst hj
      obtain rfl : s = t := Option.some.inj (hs.symm.trans ht)
      have hi : j < p.subscriptions.length := (List.getElem?_eq_some_iff.1 ht).1
      exact .inl ⟨m, state, stream, es, hstep, if_pos rfl, List.getElem?_set_self hi,
        ofWorker_self es j⟩
    · exact .inr ⟨if_neg hj, (List.getElem?_set_ne hj).trans hs, ofWorker_of_ne es hj⟩
  | @transformer _ _ _ es => exact .inr ⟨rfl, hs, ofWorker_transformer es i⟩
  | take => exact .inr ⟨rfl, hs, rfl⟩
  | closeSink => exact .inr ⟨rfl, hs, rfl⟩
  | cancel => exact .inr ⟨rfl, hs, rfl⟩
  | tick => exact .inr ⟨rfl, hs, rfl⟩

/-- Whatever else happens, a run is a path of each worker. -/
theorem worker_path_of_runs (h : Runs act? p actions effects p') (hs : p.subscriptions[i]? = some s) :
    ∃ state, p'.subscriptions[i]? = some { s with state } ∧
      Worker.Path s.worker s.state (movesOf i actions) (ofWorker i effects) state := by
  induction h generalizing s with
  | nil => exact ⟨s.state, hs, .rest _⟩
  | @cons p mid p' a actions first more ha _ ih =>
    rcases (act?_eq_some_iff.1 ha).subscription_cases hs with
      ⟨m, state, stream, es, hstep, hm, hmid, rfl⟩ | ⟨hm, hmid, hfirst⟩
    · obtain ⟨state', hlast, hpath⟩ := ih hmid
      refine ⟨state', hlast, ?_⟩
      rw [ofWorker_append, movesOf, List.filterMap_cons, hm]
      exact .move hstep hpath
    · obtain ⟨state', hlast, hpath⟩ := ih hmid
      refine ⟨state', hlast, ?_⟩
      rw [ofWorker_append, hfirst, movesOf, List.filterMap_cons, hm]
      exact hpath

theorem length_subscriptions_of_step (h : p.Step a p' effects) :
    p'.subscriptions.length = p.subscriptions.length := by
  cases h with
  | worker => exact List.length_set
  | _ => rfl

theorem length_subscriptions_of_runs (h : Runs act? p actions effects p') :
    p'.subscriptions.length = p.subscriptions.length := by
  induction h with
  | nil => rfl
  | cons ha _ ih => exact ih.trans (length_subscriptions_of_step (act?_eq_some_iff.1 ha))

/-! ### The transformer -/

/-- A step is a move of the transformer, or it leaves the transformer alone. -/
theorem Step.transformer_cases (h : p.Step a p' effects) : p'.router = p.router ∧
    ((∃ stream sink, Transformer.Step p.router p.cancelled p.isOpen p.stream p.sink p.transformer
        p'.transformer stream sink (ofTransformer effects)) ∨
      (p'.transformer = p.transformer ∧ ofTransformer effects = [])) := by
  cases h with
  | @transformer _ stream sink es h =>
    refine ⟨rfl, .inl ⟨stream, sink, ?_⟩⟩
    rwa [ofTransformer_self]
  | @worker i _ _ _ _ es => exact ⟨rfl, .inr ⟨rfl, ofTransformer_worker es i⟩⟩
  | take => exact ⟨rfl, .inr ⟨rfl, rfl⟩⟩
  | closeSink => exact ⟨rfl, .inr ⟨rfl, rfl⟩⟩
  | cancel => exact ⟨rfl, .inr ⟨rfl, rfl⟩⟩
  | tick => exact ⟨rfl, .inr ⟨rfl, rfl⟩⟩

/-- Whatever else happens, a run is a path of the transformer. -/
theorem transformer_path_of_runs (h : Runs act? p actions effects p') :
    Transformer.Path p.router False p.transformer (ofTransformer effects) p'.transformer := by
  induction h with
  | nil => exact .rest _
  | @cons p mid p' a actions first more ha _ ih =>
    rw [ofTransformer_append]
    obtain ⟨hrouter, ⟨stream, sink, hstep⟩ | ⟨hstate, hfirst⟩⟩ :=
      (act?_eq_some_iff.1 ha).transformer_cases
    · rw [hrouter] at ih
      exact .move hstep False.elim ih
    · rw [hrouter, hstate] at ih
      rwa [hfirst]

/-! ### The queues -/

theorem Step.stream_accounts {sent read : List Record} (h : p.Step a p' effects)
    (hkeys : keys.length = p.subscriptions.length) (hp : p.stream.Accounts sent read) :
    p'.stream.Accounts (sent ++ (arrivals keys effects).map (·.2))
      (read ++ Transformer.consumed (ofTransformer effects)) := by
  cases h with
  | @worker i m s state stream es hs hstep =>
    have hi : i < keys.length := hkeys ▸ (List.getElem?_eq_some_iff.1 hs).1
    have hsent : ((Worker.emitted es).map (keys[i], ·)).map (·.2) = Worker.emitted es := by
      rw [List.map_map]
      exact List.map_id' _
    rw [arrivals_worker es (List.getElem?_eq_getElem hi), ofTransformer_worker, hsent]
    exact (List.append_nil read).symm ▸ hstep.stream_accounts hp
  | @transformer state stream sink es hstep =>
    rw [arrivals_transformer, ofTransformer_self, List.map_nil, List.append_nil]
    have hstream := hstep.stream_accounts hp
    cases hlive : state.isLive with
    | true => exact hstream
    | false => exact hstream.close
  | take => exact hp.unchanged
  | closeSink => exact hp.unchanged
  | cancel => exact hp.unchanged
  | tick => exact hp.unchanged

/-- What the workers put on the stream and what the transformer took from it keep adding up. -/
theorem stream_accounts_of_runs {sent read : List Record} (h : Runs act? p actions effects p')
    (hkeys : keys.length = p.subscriptions.length) (hp : p.stream.Accounts sent read) :
    p'.stream.Accounts (sent ++ (arrivals keys effects).map (·.2))
      (read ++ Transformer.consumed (ofTransformer effects)) := by
  induction h generalizing sent read with
  | nil => exact hp.unchanged
  | cons ha _ ih =>
    have hstep := act?_eq_some_iff.1 ha
    rw [arrivals_append, ofTransformer_append, Transformer.consumed_append, List.map_append,
      ← List.append_assoc, ← List.append_assoc]
    exact ih (hkeys.trans (length_subscriptions_of_step hstep).symm)
      (hstep.stream_accounts hkeys hp)

theorem Step.sink_accounts {sent read : List RoutedLine} (h : p.Step a p' effects)
    (hp : p.sink.Accounts sent read) :
    p'.sink.Accounts (sent ++ delivered effects) (read ++ linesRead effects) := by
  cases h with
  | @worker i _ _ _ _ es =>
    rw [delivered, ofTransformer_worker, linesRead_worker]
    exact hp.unchanged
  | @transformer _ _ _ es hstep =>
    rw [delivered, ofTransformer_self, linesRead_transformer, List.append_nil]
    exact hstep.sink_accounts hp
  | take ht => exact (List.append_nil sent).symm ▸ hp.take ht
  | closeSink => exact hp.close.unchanged
  | cancel => exact hp.unchanged
  | tick => exact hp.unchanged

/-- What the transformer put on the sink and what the reader took from it keep adding up. -/
theorem sink_accounts_of_runs {sent read : List RoutedLine} (h : Runs act? p actions effects p')
    (hp : p.sink.Accounts sent read) :
    p'.sink.Accounts (sent ++ delivered effects) (read ++ linesRead effects) := by
  induction h generalizing sent read with
  | nil => exact hp.unchanged
  | cons ha _ ih =>
    rw [delivered_append, linesRead_append, ← List.append_assoc, ← List.append_assoc]
    exact ih ((act?_eq_some_iff.1 ha).sink_accounts hp)

/-- No line is on the sink, and none will be put there any more. -/
structure Deserted (p : Pipeline) : Prop where
  emptied : p.sink.items = []
  unused : p.sink.closed = true ∨ p.transformer = .ended

theorem Step.deserted (h : p.Step a p' effects) (hp : p.Deserted) : p'.Deserted := by
  cases h with
  | worker => exact ⟨hp.emptied, hp.unused⟩
  | transformer hstep =>
    rcases hp.unused with hclosed | hended
    · obtain rfl := hstep.sink_eq_of_closed hclosed
      exact ⟨hp.emptied, .inl hclosed⟩
    · rw [hended] at hstep
      exact absurd hstep Transformer.not_step_ended
  | take ht =>
    obtain ⟨rest, hitems, -⟩ := Channel.take?_eq_some_iff.1 ht
    rw [hp.emptied] at hitems
    cases hitems
  | closeSink => exact ⟨rfl, .inl rfl⟩
  | cancel => exact ⟨hp.emptied, hp.unused⟩
  | tick => exact ⟨hp.emptied, hp.unused⟩

end LogRelay.Pipeline
