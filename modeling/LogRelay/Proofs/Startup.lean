import LogRelay.Startup

/-!
What setting up the subscriptions comes to. However many servers and providers name a subscription,
at most one of their calls starts it.
-/

namespace LogRelay.Startup

variable {σ τ : Type} {registry reserved : Registry} {key : String} {isNew : Bool}
  {ks : List String}

/-- The keys of what was started. -/
def keys (u : Startup τ) : List String := u.started.map (·.2.1)

theorem not_mem_of_reserve (hr : registry.reserve key = (true, reserved)) : key ∉ registry.keys := by
  have hfst := registry.reserve_fst key
  rw [hr] at hfst
  exact of_decide_eq_true hfst.symm

theorem mem_of_reserve (hr : registry.reserve key = (isNew, reserved)) {k : String} :
    k ∈ reserved.keys ↔ k = key ∨ k ∈ registry.keys := by
  rw [← Registry.mem_reserve, hr]

/-- The keys are all different, and none of them is in use. -/
structure Fresh (registry : Registry) (ks : List String) : Prop where
  nodup : ks.Nodup
  unused : ∀ k ∈ ks, k ∉ registry.keys

theorem Fresh.nil (registry : Registry) : Fresh registry [] := ⟨List.nodup_nil, nofun⟩

theorem Fresh.of_reserve (hr : registry.reserve key = (isNew, reserved)) (h : Fresh reserved ks) :
    Fresh registry ks :=
  ⟨h.nodup, fun k hk hmem => h.unused k hk ((mem_of_reserve hr).2 (.inr hmem))⟩

/-- A key that was reserved is started now and never again. -/
theorem Fresh.cons_reserve (hr : registry.reserve key = (true, reserved)) (h : Fresh reserved ks) :
    Fresh registry (key :: ks) := by
  have hnew : key ∉ ks := fun hmem => h.unused key hmem ((mem_of_reserve hr).2 (.inl rfl))
  refine ⟨List.nodup_cons.2 ⟨hnew, h.nodup⟩, List.forall_mem_cons.2 ⟨not_mem_of_reserve hr, ?_⟩⟩
  exact (h.of_reserve hr).unused

/-- A key that was reserved and given back may be started later. -/
theorem Fresh.of_release (hr : registry.reserve key = (true, reserved))
    (h : Fresh (reserved.release key) ks) : Fresh registry ks := by
  refine ⟨h.nodup, fun k hk hmem => h.unused k hk (Registry.mem_release.2 ⟨?_, ?_⟩)⟩
  · rintro rfl
    exact not_mem_of_reserve hr hmem
  · exact (mem_of_reserve hr).2 (.inr hmem)

theorem fresh_visit (strict : Bool) (ps : List (Server × Nat × Provider σ τ)) (registry : Registry)
    (s : σ) : Fresh registry (visit strict ps registry s).keys := by
  induction ps generalizing registry s with
  | nil => exact .nil registry
  | cons p rest ih =>
    obtain ⟨server, i, provider⟩ := p
    cases hk : provider.key? server with
    | none =>
      simp only [visit, hk]
      exact ih registry s
    | some key =>
      match hr : registry.reserve key with
      | (false, reserved) =>
        simp only [visit, hk, hr]
        exact .of_reserve hr (ih reserved s)
      | (true, reserved) =>
        match ho : provider.start server s with
        | (.ok started, s') =>
          simp only [visit, hk, hr, ho]
          exact .cons_reserve hr (ih reserved s')
        | (.error e, s') =>
          cases strict with
          | true =>
            simp only [visit, hk, hr, ho]
            exact .nil registry
          | false =>
            simp only [visit, hk, hr, ho]
            exact .of_release hr (ih _ s')

/-- No two things that were started have the same key. -/
theorem nodup_keys_run (strict : Bool) (servers : List Server) (providers : List (Provider σ τ))
    (s : σ) : (run strict servers providers s).keys.Nodup :=
  (fresh_visit strict (pairs servers providers) Registry.empty s).nodup

/-- Every call is one of the pairs to be tried, and its outcome is that of the provider. -/
theorem start_of_mem_visit {strict : Bool} {ps : List (Server × Nat × Provider σ τ)} {s : σ}
    {a : Attempt τ} (ha : a ∈ (visit strict ps registry s).attempts) :
    ∃ provider mid s', (a.server, a.provider, provider) ∈ ps ∧
      provider.key? a.server = some a.key ∧ provider.start a.server mid = (a.outcome, s') := by
  induction ps generalizing registry s with
  | nil => cases ha
  | cons p rest ih =>
    obtain ⟨server, i, provider⟩ := p
    have hlater : ∀ {registry s}, a ∈ (visit strict rest registry s).attempts →
        ∃ provider' mid s', (a.server, a.provider, provider') ∈ (server, i, provider) :: rest ∧
          provider'.key? a.server = some a.key ∧
          provider'.start a.server mid = (a.outcome, s') := by
      intro registry s ha
      obtain ⟨provider', mid, s', hmem, hk, hstart⟩ := ih ha
      exact ⟨provider', mid, s', List.mem_cons_of_mem _ hmem, hk, hstart⟩
    cases hk : provider.key? server with
    | none =>
      simp only [visit, hk] at ha
      exact hlater ha
    | some key =>
      match hr : registry.reserve key with
      | (false, reserved) =>
        simp only [visit, hk, hr] at ha
        exact hlater ha
      | (true, reserved) =>
        match ho : provider.start server s with
        | (.ok started, s') =>
          simp only [visit, hk, hr, ho] at ha
          rcases List.mem_cons.1 ha with rfl | ha
          · exact ⟨provider, s, s', List.mem_cons_self, hk, ho⟩
          · exact hlater ha
        | (.error e, s') =>
          cases strict with
          | true =>
            simp only [visit, hk, hr, ho, if_true] at ha
            obtain rfl := List.mem_singleton.1 ha
            exact ⟨provider, s, s', List.mem_cons_self, hk, ho⟩
          | false =>
            simp only [visit, hk, hr, ho, Bool.false_eq_true, if_false] at ha
            rcases List.mem_cons.1 ha with rfl | ha
            · exact ⟨provider, s, s', List.mem_cons_self, hk, ho⟩
            · exact hlater ha

/-- What is started with a single provider is what it starts for a server that is to be set up. -/
theorem start_of_mem_started {strict : Bool} {servers : List Server} {provider : Provider σ τ}
    {s : σ} {server : Server} {a : τ}
    (h : (server, key, a) ∈ (run strict servers [provider] s).started) :
    server ∈ servers ∧ provider.key? server = some key ∧
      ∃ mid s', provider.start server mid = (.ok a, s') := by
  obtain ⟨attempt, hattempt, hstarted⟩ := List.mem_filterMap.1 h
  obtain ⟨provider', mid, s', hmem, hk, hstart⟩ := start_of_mem_visit hattempt
  obtain ⟨b, hb, heq⟩ := Option.map_eq_some_iff.1 hstarted
  obtain ⟨rfl, rfl, rfl⟩ : attempt.server = server ∧ attempt.key = key ∧ b = a := by
    simpa using heq
  obtain ⟨server', hserver, hpair⟩ := List.mem_flatMap.1 hmem
  obtain ⟨rfl, -, rfl⟩ : attempt.server = server' ∧ attempt.provider = 0 ∧ provider' = provider := by
    simpa using hpair
  refine ⟨hserver, hk, mid, s', ?_⟩
  rw [hstart]
  cases ho : attempt.outcome with
  | error e => simp [Attempt.started?, ho, Except.toOption] at hb
  | ok x =>
    obtain rfl : x = b := by simpa [Attempt.started?, ho, Except.toOption] using hb
    rfl

end LogRelay.Startup
