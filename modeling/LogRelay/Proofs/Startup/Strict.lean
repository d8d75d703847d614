import LogRelay.Proofs.Pipeline.Run
import LogRelay.Proofs.Startup.Sharing
import LogRelay.Proofs.Worker.Run

/-!
Strict and lenient setup side by side. Up to the first failure they are the same; there the strict one
stops with the reason for it, and what was started by then goes on.
-/

namespace LogRelay.Startup

variable {σ τ : Type}

/-- A strict setup compared with the lenient one: they are the same if nothing fails, and otherwise
the calls of the strict one are those up to the first that fails. -/
inductive CutAtFailure (strict lenient : Startup τ) : Prop
  | whole (hsame : strict = lenient) (hok : ∀ a ∈ lenient.attempts, a.failure? = none)
      (hresult : strict.result = .ok ())
  | failed {before after : List (Attempt τ)} {a : Attempt τ} {e : SetupError}
      (hlenient : lenient.attempts = before ++ a :: after)
      (hok : ∀ b ∈ before, b.failure? = none) (hfailed : a.failure? = some e)
      (hstrict : strict.attempts = before ++ [a]) (hresult : strict.result = .error e)

/-- A call that succeeds in front of both setups changes nothing about the comparison. -/
theorem CutAtFailure.begin {strict lenient : Startup τ} {a : Attempt τ} (ha : a.failure? = none)
    (h : CutAtFailure strict lenient) :
    CutAtFailure (Startup.begin a [] strict) (Startup.begin a [] lenient) := by
  cases h with
  | whole hsame hok hresult =>
    subst hsame
    exact .whole rfl (List.forall_mem_cons.2 ⟨ha, hok⟩) hresult
  | @failed before after b e hlenient hok hfailed hstrict hresult =>
    have hl : (Startup.begin a [] lenient).attempts = (a :: before) ++ b :: after :=
      congrArg (a :: ·) hlenient
    have hs : (Startup.begin a [] strict).attempts = (a :: before) ++ [b] :=
      congrArg (a :: ·) hstrict
    exact .failed hl (List.forall_mem_cons.2 ⟨ha, hok⟩) hfailed hs hresult

/-- A call that fails is where they part. -/
theorem CutAtFailure.of_error {a : Attempt τ} {e : SetupError} (ha : a.failure? = some e)
    (released : Registry) (told : List Event) (later : Startup τ) :
    CutAtFailure ⟨[a], released, .error e, []⟩ (Startup.begin a told later) :=
  .failed (List.nil_append _).symm (List.forall_mem_nil _) ha (List.nil_append _).symm rfl

theorem cutAtFailure_visit (ps : List (Server × Nat × Provider σ τ)) (registry : Registry) (s : σ) :
    CutAtFailure (visit true ps registry s) (visit false ps registry s) := by
  induction ps generalizing registry s with
  | nil => exact .whole rfl (List.forall_mem_nil _) rfl
  | cons p rest ih =>
    obtain ⟨server, i, provider⟩ := p
    cases hk : provider.key? server with
    | none =>
      simp only [visit, hk]
      exact ih registry s
    | some key =>
      rcases hr : registry.reserve key with ⟨isNew, reserved⟩
      cases isNew with
      | false =>
        simp only [visit, hk, hr]
        exact ih reserved s
      | true =>
        rcases ho : provider.start server s with ⟨outcome, s'⟩
        cases outcome with
        | ok started =>
          have hok : (⟨server, i, key, .ok started⟩ : Attempt τ).failure? = none := rfl
          simp only [visit, hk, hr, ho]
          exact .begin hok (ih reserved s')
        | error e =>
          have hfailed : (⟨server, i, key, .error e⟩ : Attempt τ).failure? = some e := rfl
          simp only [visit, hk, hr, ho, if_true, Bool.false_eq_true, if_false]
          exact .of_error hfailed _ _ _

/-! ### What goes on -/

theorem started_isPrefix {u v : Startup τ} {rest : List (Attempt τ)}
    (h : v.attempts = u.attempts ++ rest) : u.started <+: v.started := by
  rw [started, started, h, List.filterMap_append]
  exact List.prefix_append _ _

theorem exists_started_of_ok {a : Attempt τ} (ha : a.failure? = none) :
    ∃ started, a.started? = some started := by
  cases ho : a.outcome with
  | ok started => exact ⟨started, by simp [Attempt.started?, ho, Except.toOption]⟩
  | error e => simp [Attempt.failure?, ho] at ha

theorem started_of_failed {a : Attempt τ} {e : SetupError} (ha : a.failure? = some e) :
    a.started? = none := by
  cases ho : a.outcome with
  | ok started => simp [Attempt.failure?, ho] at ha
  | error e => simp [Attempt.started?, ho, Except.toOption]

/-- Every call before the first failure has started something, and the failed one has not. -/
theorem length_started {u : Startup τ} {before : List (Attempt τ)} {a : Attempt τ} {e : SetupError}
    (hu : u.attempts = before ++ [a]) (hok : ∀ b ∈ before, b.failure? = none)
    (hfailed : a.failure? = some e) : u.started.length = before.length := by
  have hlast : [a].filterMap (fun a => a.started?.map (a.server, a.key, ·)) = [] := by
    simp [started_of_failed hfailed]
  rw [started, hu, List.filterMap_append, hlast, List.append_nil]
  clear hu
  induction before with
  | nil => rfl
  | cons b before ih =>
    obtain ⟨hb, hbefore⟩ := List.forall_mem_cons.1 hok
    obtain ⟨started, hstarted⟩ := exists_started_of_ok hb
    simp [hstarted, ih hbefore]

/-- Strict and lenient setup of the same servers with the same providers, whose calls may depend on
all calls before. Without a failure they are the same. Otherwise the calls of the strict setup are
those of the lenient one up to the first that fails, and it returns the reason for that without a
warning; the transformer and what was started by then are at work, just as in the lenient setup. -/
theorem strict_setup_stops_at_first_failure (settings : Settings) (providers : List (Provider σ τ))
    (seed : σ) (toWorker : Server × String × τ → Worker) (parser : Postgres.LineParser) (now : Nat)
    (sink : Channel RoutedLine) {strict lenient : Startup τ}
    (hstrict : run true settings.servers providers seed = strict)
    (hlenient : run false settings.servers providers seed = lenient) :
    lenient.result = .ok () ∧ strict.warnings = [] ∧
    (((∀ a ∈ lenient.attempts, a.failure? = none) ∧ strict = lenient ∧ strict.result = .ok ()) ∨
      ∃ before a e after, lenient.attempts = before ++ a :: after ∧
        (∀ b ∈ before, b.failure? = none) ∧ a.failure? = some e ∧
        strict.attempts = before ++ [a] ∧ strict.result = .error e ∧
        strict.started <+: lenient.started ∧ strict.started.length = before.length ∧
        ∀ p, Pipeline.make? settings parser (strict.started.map toWorker) now sink = some p →
          p.liveTasks = 1 + before.length ∧ p.transformer = .waiting ∧ p.cancelled = false ∧
          ∃ q, Pipeline.make? settings parser (lenient.started.map toWorker) now sink = some q ∧
            p.subscriptions <+: q.subscriptions) := by
  obtain ⟨_, _, _, -, -, hvisit⟩ :=
    exists_steps (pairs settings.servers providers) Registry.empty seed
  refine ⟨congrArg result (hlenient.symm.trans hvisit), ?_, ?_⟩
  · rw [← hstrict, run, warnings_visit_true]
  have hcut : CutAtFailure strict lenient :=
    hstrict ▸ hlenient ▸ cutAtFailure_visit (pairs settings.servers providers) Registry.empty seed
  cases hcut with
  | whole hsame hok hresult => exact .inl ⟨hok, hsame, hresult⟩
  | @failed before after a e hl hok hfailed hs hresult =>
    have hmore : lenient.attempts = strict.attempts ++ after := by
      rw [hs, hl, List.append_assoc]
      rfl
    have hbegin := started_isPrefix hmore
    have hlength := length_started hs hok hfailed
    refine .inr ⟨before, a, e, after, hl, hok, hfailed, hs, hresult, hbegin, hlength,
      fun p hp => ?_⟩
    have htasks := Pipeline.liveTasks_make? hp
    rw [List.length_map, hlength] at htasks
    obtain ⟨hroom, rfl⟩ := Pipeline.make?_eq_some_iff.1 hp
    exact ⟨htasks, rfl, rfl, _, Pipeline.make?_eq_some_iff.2 ⟨hroom, rfl⟩,
      (hbegin.map toWorker).map _⟩

/-! ### A failure at the third call -/

/-- Starts whatever it is asked for, but for the third call. -/
def thirdCallFails : Provider Nat String where
  key? := Server.subscription?
  start server calls :=
    (if calls = 2 then .error (.client server.name) else .ok server.name, calls + 1)

/-- The second server shares the subscription of the first. -/
def fiveServers : Settings where
  servers := [("a", "k"), ("b", " k"), ("c", "l"), ("d", "m"), ("e", "n")].map fun (name, key) =>
    { name, subscription := some key }

theorem strict_setup_stops_at_first_failure_thirdCall :
    ∃ strict lenient : Startup String,
      run true fiveServers.servers [thirdCallFails] 0 = strict ∧
      run false fiveServers.servers [thirdCallFails] 0 = lenient ∧
      strict.attempts.map (fun a => (a.server.name, a.key)) = [("a", "k"), ("c", "l"), ("d", "m")] ∧
      lenient.attempts.map (fun a => (a.server.name, a.key)) =
        [("a", "k"), ("c", "l"), ("d", "m"), ("e", "n")] ∧
      strict.result = .error (.client "d") ∧ lenient.result = .ok () ∧
      strict.warnings = [] ∧
      ∃ before a e after, lenient.attempts = before ++ a :: after ∧ a.failure? = some e ∧
        strict.attempts = before ++ [a] ∧ strict.result = .error e ∧
        strict.started <+: lenient.started ∧ strict.started.length = before.length ∧
        ∀ p, Pipeline.make? fiveServers (fun _ _ => none)
            (strict.started.map fun _ => Worker.byteWorker) 0 { capacity := 1 } = some p →
          p.liveTasks = 1 + before.length := by
  obtain ⟨hresult, hwarnings, h⟩ := strict_setup_stops_at_first_failure fiveServers [thirdCallFails] 0
    (fun _ => Worker.byteWorker) (fun _ _ => none) 0 { capacity := 1 } rfl rfl
  refine ⟨_, _, rfl, rfl, rfl, rfl, rfl, hresult, hwarnings, ?_⟩
  rcases h with ⟨hok, -⟩ | ⟨before, a, e, after, hl, -, hfailed, hs, he, hbegin, hlength, hp⟩
  · have hthird := hok _ (.tail _ (.tail _ (.head _)))
    cases hthird
  · exact ⟨before, a, e, after, hl, hfailed, hs, he, hbegin, hlength, fun p hmake => (hp p hmake).1⟩

end LogRelay.Startup
