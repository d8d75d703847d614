import LogRelay.Postgres.Parser
import LogRelay.Proofs.Routing
import LogRelay.Proofs.Startup.Sharing

/-!
The order of the servers and of the providers. Which turns are used for a call depends on it, but
where every start has an outcome of its own, what is live in the end does not: a subscription is live
exactly if some server can start it.
-/

namespace LogRelay.Startup

variable {σ τ : Type} {servers servers' : List Server} {providers providers' : List (Provider σ τ)}
  {s s' : σ} {turns : List (Turn σ τ)} {t : Turn σ τ} {key : String}
  {succeeds : Server → Provider σ τ → Prop}

/-- Whether a start succeeds is up to the server and the provider, whatever was called before. -/
def Decided (succeeds : Server → Provider σ τ → Prop) (servers : List Server)
    (providers : List (Provider σ τ)) : Prop :=
  ∀ server ∈ servers, ∀ p ∈ providers, ∀ s, (p.start server s).1.isOk ↔ succeeds server p

/-- Some server has the subscription with some provider, and can start it. -/
def Startable (succeeds : Server → Provider σ τ → Prop) (servers : List Server)
    (providers : List (Provider σ τ)) (key : String) : Prop :=
  ∃ server ∈ servers, ∃ p ∈ providers, p.key? server = some key ∧ succeeds server p

theorem Decided.of_perm (h : Decided succeeds servers providers) (hs : servers.Perm servers')
    (hp : providers.Perm providers') : Decided succeeds servers' providers' :=
  fun server hserver p hprovider => h server (hs.mem_iff.2 hserver) p (hp.mem_iff.2 hprovider)

theorem startable_of_perm (hs : servers.Perm servers') (hp : providers.Perm providers') :
    Startable succeeds servers providers key ↔ Startable succeeds servers' providers' key := by
  simp only [Startable, hs.mem_iff, hp.mem_iff]

theorem mem_pairs {server : Server} {i : Nat} {p : Provider σ τ} :
    (server, i, p) ∈ pairs servers providers ↔ server ∈ servers ∧ providers[i]? = some p := by
  simp only [pairs, List.mem_flatMap, List.mem_map, Prod.exists, List.mem_zipIdx_iff_getElem?,
    Prod.mk.injEq]
  constructor
  · rintro ⟨_, hserver, _, _, hi, rfl, rfl, rfl⟩
    exact ⟨hserver, hi⟩
  · rintro ⟨hserver, hi⟩
    exact ⟨server, hserver, p, i, hi, rfl, rfl, rfl⟩

theorem Calls.start_of_mem {outcome : Except SetupError τ} (h : Calls s turns s') (ht : t ∈ turns)
    (ho : t.outcome? = some outcome) :
    ∃ mid last, t.provider.start t.server mid = (outcome, last) := by
  induction h with
  | nil => cases ht
  | pass hnone _ ih =>
    rcases List.mem_cons.1 ht with rfl | ht
    · rw [hnone] at ho
      cases ho
    · exact ih ht
  | call hsome hc _ ih =>
    rcases List.mem_cons.1 ht with rfl | ht
    · cases hsome.symm.trans ho
      exact ⟨_, _, hc⟩
    · exact ih ht

/-- The turns start exactly what can be started: the first turn that can start a subscription is
used, unless it is live already. -/
theorem exists_starts_iff (hdecided : Decided succeeds servers providers)
    (hpairs : turns.map Turn.pair = pairs servers providers) (hcalls : Calls s turns s')
    (hdue : CalledWhenDue (fun _ => False) turns) :
    (∃ t ∈ turns, t.Starts key) ↔ Startable succeeds servers providers key := by
  constructor
  · rintro ⟨t, ht, hkey, started, ho⟩
    have hpair : t.pair ∈ pairs servers providers := hpairs ▸ List.mem_map_of_mem ht
    obtain ⟨hserver, hprovider⟩ := mem_pairs.1 hpair
    have hmem := List.mem_of_getElem? hprovider
    obtain ⟨mid, last, hstart⟩ := hcalls.start_of_mem ht ho
    refine ⟨t.server, hserver, t.provider, hmem, hkey, (hdecided _ hserver _ hmem mid).1 ?_⟩
    rw [hstart]
    rfl
  · rintro ⟨server, hserver, p, hmem, hkey, hsucceeds⟩
    obtain ⟨i, hi⟩ := List.getElem?_of_mem hmem
    have hpair : (server, i, p) ∈ turns.map Turn.pair := hpairs ▸ mem_pairs.2 ⟨hserver, hi⟩
    obtain ⟨t, ht, heq⟩ := List.mem_map.1 hpair
    obtain ⟨rfl, -, rfl⟩ : t.server = server ∧ t.index = i ∧ t.provider = p := by
      simpa [Turn.pair] using heq
    obtain ⟨before, after, hturns⟩ := List.append_of_mem ht
    by_cases hlive : ∃ b ∈ before, b.Starts key
    · obtain ⟨b, hb, hstarts⟩ := hlive
      exact ⟨b, hturns ▸ List.mem_append_left _ hb, hstarts⟩
    · have hcalled : t.outcome?.isSome :=
        (hdue before t after hturns).2 ⟨key, hkey, id, fun b hb hst => hlive ⟨b, hb, hst⟩⟩
      obtain ⟨outcome, ho⟩ := Option.isSome_iff_exists.1 hcalled
      obtain ⟨mid, last, hstart⟩ := hcalls.start_of_mem ht ho
      have hok := (hdecided _ hserver _ hmem mid).2 hsucceeds
      rw [hstart] at hok
      cases outcome with
      | ok started => exact ⟨t, ht, hkey, started, ho⟩
      | error e => cases hok

/-- What is in use after a lenient setup, and what it has started, is what can be started. -/
theorem mem_live_iff (hdecided : Decided succeeds servers providers) (s : σ) :
    (key ∈ (run false servers providers s).registry.keys ↔
      Startable succeeds servers providers key) ∧
    (key ∈ (run false servers providers s).keys ↔ Startable succeeds servers providers key) := by
  obtain ⟨turns, live, last, hpairs, hsteps, hvisit⟩ :=
    exists_steps (pairs servers providers) Registry.empty s
  have hrun : run false servers providers s = ⟨turns.filterMap Turn.attempt?, live, .ok (),
      (turns.filterMap Turn.attempt?).filterMap Attempt.warning?⟩ := hvisit
  have hdue : CalledWhenDue (fun _ => False) turns := by simpa using hsteps.calledWhenDue
  have hstarts : (∃ t ∈ turns, t.Starts key) ↔ Startable succeeds servers providers key :=
    exists_starts_iff hdecided hpairs hsteps.calls hdue
  rw [mem_keys_iff (congrArg attempts hrun), hrun]
  simpa [hsteps.mem_keys] using hstarts

/-- Servers and providers in any order, where every start has an outcome of its own. What is live
after a lenient setup is the same in each order: the subscriptions that some server can start. And
the lines of a record are the same, but for their order. -/
theorem live_subscriptions_ignore_order (hservers : servers.Perm servers')
    (hproviders : providers.Perm providers') (succeeds : Server → Provider σ τ → Prop)
    (hdecided : Decided succeeds servers providers) (s s' : σ) :
    (∀ key, key ∈ (run false servers providers s).registry.keys ↔
      Startable succeeds servers providers key) ∧
    (run false servers providers s).registry.keys.Perm
      (run false servers' providers' s').registry.keys ∧
    (run false servers providers s).keys.Perm (run false servers' providers' s').keys ∧
    ∀ (parser : Postgres.LineParser) (horizon : Time.Instant) (r : Record),
      (Router.route ⟨servers, parser, horizon⟩ r).Perm
        (Router.route ⟨servers', parser, horizon⟩ r) := by
  have hdecided' := hdecided.of_perm hservers hproviders
  refine ⟨fun key => (mem_live_iff hdecided s).1, ?_, ?_, Router.route_perm hservers⟩
  · refine (List.perm_ext_iff_of_nodup (Registry.nodup _) (Registry.nodup _)).2 fun key => ?_
    rw [(mem_live_iff hdecided s).1, (mem_live_iff hdecided' s').1]
    exact startable_of_perm hservers hproviders
  · refine (List.perm_ext_iff_of_nodup (nodup_keys_run ..) (nodup_keys_run ..)).2 fun key => ?_
    rw [(mem_live_iff hdecided s).2, (mem_live_iff hdecided' s').2]
    exact startable_of_perm hservers hproviders

/-! ### A broken server in front -/

/-- Starts whatever it is asked for, but for one server. The reason given for that counts the calls. -/
def wary (key? : Server → Option String) : Provider Nat String where
  key?
  start server calls :=
    (if server.name = "broken" then .error (.client (toString calls)) else .ok server.name, calls + 1)

def bySubscription : Provider Nat String := wary Server.subscription

def byProject : Provider Nat String := wary fun s => some s.projectId

def brokenServer : Server := ⟨"broken", "p", "i", some "k", none, none, none, none⟩

/-- It has the project, the instance and the subscription of the broken server. -/
def soundServer : Server := ⟨"sound", "p", "i", some "k", none, some "id", none, none⟩

theorem decided_wary (servers : List Server) :
    Decided (fun server _ => server.name ≠ "broken") servers [bySubscription, byProject] := by
  intro server _ p hp s
  obtain rfl | rfl : p = bySubscription ∨ p = byProject := by simpa using hp
  all_goals
    by_cases hname : server.name = "broken" <;>
      simp [bySubscription, byProject, wary, hname, Except.isOk, Except.toBool]

theorem live_subscriptions_ignore_order_brokenFirst :
    ∃ u u' : Startup String, run false [brokenServer, soundServer] [bySubscription, byProject] 0 = u ∧
      run false [soundServer, brokenServer] [byProject, bySubscription] 7 = u' ∧
      u.attempts.map (fun a => (a.server.name, a.key)) =
        [("broken", "k"), ("broken", "p"), ("sound", "k"), ("sound", "p")] ∧
      u'.attempts.map (fun a => (a.server.name, a.key)) = [("sound", "p"), ("sound", "k")] ∧
      u.registry.keys.Perm u'.registry.keys ∧ u.keys.Perm u'.keys ∧ "k" ∈ u.registry.keys ∧
      (Router.route ⟨[brokenServer, soundServer], Postgres.parseLine, ⟨0, 0⟩⟩
        ⟨"p", "i", none, "LOG:  ready"⟩).map (·.identity.systemId) = ["p:i", "id"] ∧
      (Router.route ⟨[brokenServer, soundServer], Postgres.parseLine, ⟨0, 0⟩⟩
        ⟨"p", "i", none, "LOG:  ready"⟩).Perm
          (Router.route ⟨[soundServer, brokenServer], Postgres.parseLine, ⟨0, 0⟩⟩
            ⟨"p", "i", none, "LOG:  ready"⟩) := by
  have h := live_subscriptions_ignore_order (.swap soundServer brokenServer [])
    (.swap byProject bySubscription []) _ (decided_wary _) 0 7
  refine ⟨_, _, rfl, rfl, rfl, rfl, h.2.1, h.2.2.1, (h.1 "k").2 ?_, rfl, h.2.2.2 _ _ _⟩
  exact ⟨soundServer, by simp, bySubscription, by simp, rfl, by decide⟩

end LogRelay.Startup
