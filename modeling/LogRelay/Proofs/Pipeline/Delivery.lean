import LogRelay.Proofs.Pipeline.Run
import LogRelay.Proofs.Startup
import LogRelay.Proofs.Worker.Delivery

/-!
What the pipeline delivers. The records of the confirmed batches of all subscriptions arrive on the
stream in one order, in which each subscription keeps its own; the lines on the sink are the routed
lines of those records, one record after the other.
-/

namespace LogRelay.Pipeline

variable {p p₀ : Pipeline} {actions : List Action} {effects : List Effect} {keys : List String}
  {i : Nat} {w : Worker}

theorem mem_keys_of_mem_arrivals {a : String × Record} (ha : a ∈ arrivals keys effects) :
    a.1 ∈ keys := by
  obtain ⟨e, -, he⟩ := List.mem_filterMap.1 ha
  cases e with
  | worker i e =>
    cases e with
    | emit record =>
      obtain ⟨key, hkey, rfl⟩ := Option.map_eq_some_iff.1 he
      exact List.mem_of_getElem? hkey
    | _ => cases he
  | _ => cases he

/-- The lines on the sink are the beginning of the routed lines of what arrived on the stream. -/
theorem delivered_isPrefix (h : Runs act? p₀ actions effects p)
    (hstart : p₀.transformer = .waiting) (hstream : p₀.stream.Accounts [] [])
    (hkeys : keys.length = p₀.subscriptions.length) :
    delivered effects <+: ((arrivals keys effects).map (·.2)).flatMap p₀.router.route := by
  have hpath := transformer_path_of_runs h
  rw [hstart] at hpath
  obtain ⟨rest, hrest, -⟩ := hpath.lines_eq
  have hlines : delivered effects <+:
      (Transformer.consumed (ofTransformer effects)).flatMap p₀.router.route := ⟨rest, hrest⟩
  obtain ⟨more, hmore⟩ := (stream_accounts_of_runs h hkeys hstream).taken_isPrefix
  change Transformer.consumed (ofTransformer effects) ++ more =
    (arrivals keys effects).map (·.2) at hmore
  rw [← hmore, List.flatMap_append]
  exact hlines.trans (List.prefix_append _ _)

/-- A worker puts the records of its confirmed batches on the stream, whatever the others do. -/
theorem emitted_isPrefix (h : Runs act? p₀ actions effects p)
    (hw : p₀.subscriptions[i]? = some { worker := w }) :
    Worker.emitted (ofWorker i effects) <+:
      (Worker.confirmed (movesOf i actions)).flatMap w.accepted := by
  obtain ⟨state, -, hpath⟩ := worker_path_of_runs h hw
  exact hpath.emitted_isPrefix

/-- Over every run of every pipeline that settings can lead to, with any providers and workers. Each
key has one worker, however many servers share it. The records on the stream are merged from those of
the confirmed batches of each key, in their order and each once. The lines on the sink are the
beginning of the routed lines of these records, record by record, and its reader gets them in that
order. -/
theorem delivers_merged_batches {σ τ : Type} (settings : Settings)
    (providers : List (Provider σ τ)) (seed : σ) (toWorker : Server × String × τ → Worker)
    (parser : Postgres.LineParser) (now sinkCapacity : Nat) (actions : List Action)
    {u : Startup τ} {p₀ p : Pipeline} {effects : List Effect}
    (hstart : Startup.run settings.testRun settings.servers providers seed = u)
    (hmake : make? settings parser (u.started.map toWorker) now { capacity := sinkCapacity } =
      some p₀)
    (hrun : p₀.run? actions = some (p, effects)) :
    delivered effects <+: ((arrivals u.keys effects).map (·.2)).flatMap p₀.router.route ∧
    p₀.router = ⟨settings.servers, parser,
      freshnessHorizon (instantOf now) settings.freshnessWindowSecs⟩ ∧
    (∀ r lines, p₀.router.Routes r lines ↔ lines = p₀.router.route r) ∧
    u.keys.Nodup ∧
    (∀ a ∈ arrivals u.keys effects, a.1 ∈ u.keys) ∧
    (∀ i server key t, u.started[i]? = some (server, key, t) →
      ((arrivals u.keys effects).filter (·.1 = key)).map (·.2) <+:
        (Worker.confirmed (movesOf i actions)).flatMap (toWorker (server, key, t)).accepted) ∧
    p.sink.Accounts (delivered effects) (linesRead effects) := by
  have hruns := run?_eq_some_iff.1 hrun
  obtain ⟨-, rfl⟩ := make?_eq_some_iff.1 hmake
  have hnodup : u.keys.Nodup := hstart ▸ Startup.nodup_keys_run _ _ _ _
  refine ⟨?_, rfl, fun _ _ => Router.routes_iff, hnodup, fun a => mem_keys_of_mem_arrivals, ?_, ?_⟩
  · refine delivered_isPrefix hruns rfl (Channel.accounts_start _) ?_
    simp [Startup.keys]
  · intro i server key t ht
    have hkey : u.keys[i]? = some key := by simp [Startup.keys, ht]
    rw [arrivals_of_key hnodup hkey]
    refine emitted_isPrefix hruns ?_
    simp [ht]
  · exact sink_accounts_of_runs hruns (Channel.accounts_start sinkCapacity)

/-! ### Two keys for three servers -/

/-- The first and the last server share a database and a subscription. -/
def threeServers : Settings where
  streamCapacity := 1
  servers := [⟨"a", "p", "i", some "k", none, some "1", none, none⟩,
    ⟨"b", "p", "j", some "l", none, some "2", none, none⟩,
    ⟨"c", "p", "i", some "k", none, some "3", none, none⟩]

/-- Starts whatever it is asked for. -/
def eagerProvider : Provider Unit String where
  key? := Server.subscription
  start server _ := (.ok server.name, ())

/-- Takes every text as it is. -/
def plainParser : Postgres.LineParser := fun _ text => some ⟨none, .log, none, none, none, text⟩

/-- A record of the one subscription, and two of the other that come around it. -/
def crossingRecords : List Action :=
  [.worker 0 .resume, .worker 1 .resume, .worker 1 (.received (.ok [⟨"b1", [66]⟩, ⟨"b2", [67]⟩])),
    .worker 0 (.received (.ok [⟨"a1", [65]⟩])), .worker 1 (.acknowledged (.ok ())),
    .worker 1 .resume, .transformer, .worker 0 (.acknowledged (.ok ())), .worker 0 .resume,
    .transformer, .transformer, .transformer, .transformer, .take, .worker 1 .resume]

theorem delivers_merged_batches_crossingRecords :
    ∃ p₀ p effects,
      (make? threeServers plainParser
        ((Startup.run false threeServers.servers [eagerProvider] ()).started.map fun _ =>
          Worker.byteWorker) 0 { capacity := 4 } = some p₀ ∧
        p₀.run? crossingRecords = some (p, effects)) ∧
      arrivals ["k", "l"] effects = [("l", ⟨"p", "i", none, "B"⟩), ("k", ⟨"p", "i", none, "A"⟩),
        ("l", ⟨"p", "i", none, "C"⟩)] ∧
      delivered effects <+: ((arrivals ["k", "l"] effects).map (·.2)).flatMap p₀.router.route ∧
      (delivered effects).map (fun l => (l.identity.systemId, l.line.content)) =
        [("1", "B\n"), ("3", "B\n"), ("1", "A\n")] := by
  have h := delivers_merged_batches threeServers [eagerProvider] () (fun _ => Worker.byteWorker)
    plainParser 0 4 crossingRecords rfl rfl rfl
  exact ⟨_, _, _, ⟨rfl, rfl⟩, rfl, h.1, rfl⟩

end LogRelay.Pipeline
