import LogRelay.Proofs.Pipeline.Run
import LogRelay.Proofs.Startup.Turns
import LogRelay.Proofs.Worker.Run

/-!
How subscriptions are shared. In a lenient setup every subscription that can be started is started
once, whichever servers and providers name it, and what fails is told and passed over.
-/

namespace LogRelay.Startup

variable {σ τ : Type}

/-- What was started is what the turns started. -/
theorem mem_keys_iff {u : Startup τ} {turns : List (Turn σ τ)} {key : String}
    (hu : u.attempts = turns.filterMap Turn.attempt?) :
    key ∈ u.keys ↔ ∃ t ∈ turns, t.Starts key := by
  simp only [keys, started, hu, List.filterMap_filterMap, List.mem_map, List.mem_filterMap]
  constructor
  · rintro ⟨⟨server, key, a⟩, ⟨t, ht, hsome⟩, rfl⟩
    obtain ⟨attempt, hattempt, hsome⟩ := Option.bind_eq_some_iff.1 hsome
    obtain ⟨key', hkey, hmap⟩ := Option.bind_eq_some_iff.1 hattempt
    obtain ⟨outcome, ho, rfl⟩ := Option.map_eq_some_iff.1 hmap
    obtain ⟨a, ha, heq⟩ := Option.map_eq_some_iff.1 hsome
    cases heq
    cases outcome with
    | ok a => exact ⟨t, ht, hkey, a, ho⟩
    | error e => cases ha
  · rintro ⟨t, ht, hkey, a, ho⟩
    refine ⟨(t.server, key, a), ⟨t, ht, ?_⟩, rfl⟩
    simp [Turn.attempt?, hkey, ho, Attempt.started?, Except.toOption]

/-- A strict setup goes on after no failure, and so tells none. -/
theorem warnings_visit_true (ps : List (Server × Nat × Provider σ τ)) (registry : Registry) (s : σ) :
    (visit true ps registry s).warnings = [] := by
  fun_induction visit true ps registry s with
  | case1 => rfl
  | case2 _ _ _ _ _ _ _ ih => exact ih
  | case3 _ _ _ _ _ _ _ _ _ _ ih => exact ih
  | case4 _ _ _ _ _ _ _ _ _ _ _ _ _ ih => exact ih
  | case5 => rfl
  | case6 _ _ _ _ _ _ _ _ _ _ _ _ _ _ h => exact absurd rfl h

theorem warnings_run_false (servers : List Server) (providers : List (Provider σ τ)) (s : σ) :
    (run false servers providers s).warnings =
      (run false servers providers s).attempts.filterMap Attempt.warning? := by
  obtain ⟨turns, live, last, -, -, hvisit⟩ := exists_steps (pairs servers providers) Registry.empty s
  rw [run, hvisit]

theorem severity_of_mem_warnings {strict : Bool} {servers : List Server}
    {providers : List (Provider σ τ)} {s : σ} {e : Event}
    (he : e ∈ (run strict servers providers s).warnings) : e.happening.severity = .warn := by
  cases strict with
  | true =>
    rw [run, warnings_visit_true] at he
    cases he
  | false =>
    rw [warnings_run_false] at he
    obtain ⟨a, -, hwarning⟩ := List.mem_filterMap.1 he
    obtain ⟨cause, -, rfl⟩ := Option.map_eq_some_iff.1 hwarning
    rfl

/-- A lenient setup never fails, for any servers, providers and outcomes. Its calls are those of the
turns that name a subscription which no earlier turn has started; so each is started at most once,
and after a failed start the next turn that names it tries again. There is one warning for each
failure, and what is in use in the end is what was started: a task for each, and the transformer. -/
theorem starts_shared_subscriptions_once (settings : Settings) (hlenient : settings.testRun = false)
    (providers : List (Provider σ τ)) (seed : σ) (toWorker : Server × String × τ → Worker)
    (parser : Postgres.LineParser) (now : Nat) (sink : Channel RoutedLine) {u : Startup τ}
    (hrun : run settings.testRun settings.servers providers seed = u) :
    u.result = .ok () ∧
    (∃ turns last, turns.map Turn.pair = pairs settings.servers providers ∧
      Calls seed turns last ∧ u.attempts = turns.filterMap Turn.attempt? ∧
      (∀ before t after, turns = before ++ t :: after →
        (t.outcome?.isSome ↔ ∃ key, t.key? = some key ∧ ∀ b ∈ before, ¬ b.Starts key)) ∧
      ∀ before failed between next after key e,
        turns = before ++ failed :: (between ++ next :: after) →
        failed.outcome? = some (.error e) → failed.key? = some key →
        (∀ b ∈ between, b.key? ≠ some key) → next.key? = some key → next.outcome?.isSome) ∧
    u.keys.Nodup ∧ u.registry.keys.Perm u.keys ∧
    (u.warnings = u.attempts.filterMap fun a =>
      a.failure?.map fun cause => ⟨.serverSkipped cause, some a.server.name⟩) ∧
    (∀ e ∈ u.warnings, e.happening.severity = .warn) ∧
    ((Pipeline.make? settings parser (u.started.map toWorker) now sink).isSome ↔
      0 < settings.streamCapacity ∧ settings.streamCapacity ≤ Channel.maxCapacity) ∧
    ∀ p, Pipeline.make? settings parser (u.started.map toWorker) now sink = some p →
      p.liveTasks = 1 + u.keys.length := by
  rw [hlenient] at hrun
  obtain ⟨turns, live, last, hpairs, hsteps, hvisit⟩ :=
    exists_steps (pairs settings.servers providers) Registry.empty seed
  have hu : u = ⟨turns.filterMap Turn.attempt?, live, .ok (),
      (turns.filterMap Turn.attempt?).filterMap Attempt.warning?⟩ := hrun.symm.trans hvisit
  have hattempts : u.attempts = turns.filterMap Turn.attempt? := congrArg attempts hu
  have hdue : CalledWhenDue (fun _ => False) turns := by
    simpa using hsteps.calledWhenDue
  have hnodup : u.keys.Nodup := hrun ▸ nodup_keys_run false _ _ _
  have hseverity : ∀ e ∈ u.warnings, e.happening.severity = .warn := by
    rw [← hrun]
    exact fun e => severity_of_mem_warnings
  refine ⟨congrArg result hu, ⟨turns, last, hpairs, hsteps.calls, hattempts, ?_, ?_⟩, hnodup, ?_,
    hrun ▸ warnings_run_false _ _ _, hseverity, Pipeline.isSome_make?_iff, ?_⟩
  · intro before t after hturns
    simpa using hdue before t after hturns
  · intro before failed between next after key e hturns hfailed hkey hbetween hnext
    exact hdue.retry hturns hfailed hkey hbetween hnext
  · refine (List.perm_ext_iff_of_nodup u.registry.nodup hnodup).2 fun key => ?_
    have hlive : u.registry = live := congrArg registry hu
    rw [mem_keys_iff hattempts, hlive, hsteps.mem_keys]
    simp
  · intro p hp
    rw [Pipeline.liveTasks_make? hp, List.length_map, keys, List.length_map]

/-! ### Two providers that name each other's subscriptions -/

/-- Starts whatever it is asked for, but for the very first call of all. -/
def secondTimeLucky (key? : Server → Option String) : Provider Nat String where
  key?
  start server calls :=
    (if calls = 0 then .error (.client server.name) else .ok server.name, calls + 1)

/-- Each server names a subscription and a project, which goes for a subscription as well. -/
def crossedNames : Settings where
  servers := [⟨"a", "l", "i", some "k", none, none, none, none⟩,
    ⟨"b", "l", "j", some "k", none, none, none, none⟩,
    ⟨"c", "k", "i", some "l", none, none, none, none⟩]

theorem starts_shared_subscriptions_once_crossedNames :
    ∃ u : Startup String, run crossedNames.testRun crossedNames.servers
        [secondTimeLucky Server.subscription, secondTimeLucky fun s => some s.projectId] 0 = u ∧
      u.attempts.map (fun a => (a.server.name, a.provider, a.key)) =
        [("a", 0, "k"), ("a", 1, "l"), ("b", 0, "k")] ∧
      u.keys = ["l", "k"] ∧ u.registry.keys.Perm ["l", "k"] ∧
      u.warnings = [⟨.serverSkipped (.client "a"), some "a"⟩] ∧
      ∀ p, Pipeline.make? crossedNames (fun _ _ => none) (u.started.map fun _ => Worker.byteWorker)
        0 { capacity := 1 } = some p → p.liveTasks = 3 := by
  have h := starts_shared_subscriptions_once crossedNames rfl
    [secondTimeLucky Server.subscription, secondTimeLucky fun s => some s.projectId] 0
    (fun _ => Worker.byteWorker) (fun _ _ => none) 0 { capacity := 1 } rfl
  exact ⟨_, rfl, rfl, rfl, h.2.2.2.1, rfl, h.2.2.2.2.2.2.2⟩

end LogRelay.Startup
