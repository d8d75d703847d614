import LogRelay.Proofs.Startup

/-!
The calls of a lenient setup. The servers take turns with the providers, and a turn is used for a
call unless an earlier turn has started its subscription. So a subscription is started at most once,
and one whose start failed is tried again in the next turn that names it.
-/

namespace LogRelay

/-- What is told about a call that fails, before the setup goes on. -/
def Attempt.warning? {τ : Type} (a : Attempt τ) : Option Event :=
  a.failure?.map fun cause => ⟨.serverSkipped cause, some a.server.name⟩

namespace Startup

variable {σ τ : Type}

/-- The turn of a server with a provider, and what came of the call, if there was one. -/
structure Turn (σ τ : Type) where
  server : Server
  /-- Which of the providers. -/
  index : Nat
  provider : Provider σ τ
  outcome? : Option (Except SetupError τ)

namespace Turn

def pair (t : Turn σ τ) : Server × Nat × Provider σ τ := (t.server, t.index, t.provider)

/-- The subscription that the turn names. -/
def key? (t : Turn σ τ) : Option String := t.provider.key? t.server

/-- The call that is made in the turn. -/
def attempt? (t : Turn σ τ) : Option (Attempt τ) :=
  t.key?.bind fun key => t.outcome?.map (⟨t.server, t.index, key, ·⟩)

/-- The turn starts the subscription of that key. -/
def Starts (t : Turn σ τ) (key : String) : Prop :=
  t.key? = some key ∧ ∃ started, t.outcome? = some (.ok started)

end Turn

/-- Each call of the turns finds the providers as the call before it left them. -/
inductive Calls : σ → List (Turn σ τ) → σ → Prop
  | nil (s : σ) : Calls s [] s
  | pass {s s' : σ} {t : Turn σ τ} {turns : List (Turn σ τ)} (ht : t.outcome? = none)
      (h : Calls s turns s') : Calls s (t :: turns) s'
  | call {s mid s' : σ} {t : Turn σ τ} {turns : List (Turn σ τ)} {outcome : Except SetupError τ}
      (ht : t.outcome? = some outcome) (hc : t.provider.start t.server s = (outcome, mid))
      (h : Calls mid turns s') : Calls s (t :: turns) s'

/-- A turn is used for a call exactly if it names a key that is not `used`, neither at first nor by
a start in an earlier turn. -/
def CalledWhenDue (used : String → Prop) (turns : List (Turn σ τ)) : Prop :=
  ∀ before t after, turns = before ++ t :: after →
    (t.outcome?.isSome ↔ ∃ key, t.key? = some key ∧ ¬ used key ∧ ∀ b ∈ before, ¬ b.Starts key)

/-! ### One turn -/

/-- A turn of a lenient setup, with the registry and the providers before and after it. -/
inductive Step (registry : Registry) (s : σ) : Turn σ τ → Registry → σ → Prop
  | unnamed {server : Server} {i : Nat} {provider : Provider σ τ}
      (hk : provider.key? server = none) : Step registry s ⟨server, i, provider, none⟩ registry s
  | shared {server : Server} {i : Nat} {provider : Provider σ τ} {key : String}
      {reserved : Registry} (hk : provider.key? server = some key)
      (hr : registry.reserve key = (false, reserved)) :
      Step registry s ⟨server, i, provider, none⟩ reserved s
  | started {server : Server} {i : Nat} {provider : Provider σ τ} {key : String}
      {reserved : Registry} {a : τ} {s' : σ} (hk : provider.key? server = some key)
      (hr : registry.reserve key = (true, reserved)) (hc : provider.start server s = (.ok a, s')) :
      Step registry s ⟨server, i, provider, some (.ok a)⟩ reserved s'
  | failed {server : Server} {i : Nat} {provider : Provider σ τ} {key : String}
      {reserved : Registry} {e : SetupError} {s' : σ} (hk : provider.key? server = some key)
      (hr : registry.reserve key = (true, reserved))
      (hc : provider.start server s = (.error e, s')) :
      Step registry s ⟨server, i, provider, some (.error e)⟩ (reserved.release key) s'

variable {registry registry' reserved : Registry} {s s' : σ} {t : Turn σ τ}
  {turns : List (Turn σ τ)} {key k : String} {used : String → Prop}

theorem mem_of_reserve_false (hr : registry.reserve key = (false, reserved)) :
    key ∈ registry.keys := by
  have hfst := registry.reserve_fst key
  rw [hr] at hfst
  exact Classical.not_not.1 (of_decide_eq_false hfst.symm)

/-- A turn of a lenient setup, and the setup that goes on after it. -/
def goOn (a? : Option (Attempt τ)) (later : Startup τ) : Startup τ :=
  { later with
    attempts := a?.toList ++ later.attempts
    warnings := (a?.bind Attempt.warning?).toList ++ later.warnings }

/-- Lenient setup goes on after every turn, whatever comes of it. -/
theorem exists_step (p : Server × Nat × Provider σ τ) (registry : Registry) (s : σ) :
    ∃ t registry' s', t.pair = p ∧ Step registry s t registry' s' ∧ ∀ rest,
      visit false (p :: rest) registry s =
        goOn t.attempt? (visit false rest registry' s') := by
  obtain ⟨server, i, provider⟩ := p
  cases hk : provider.key? server with
  | none =>
    refine ⟨⟨server, i, provider, none⟩, registry, s, rfl, .unnamed hk, fun rest => ?_⟩
    simp [visit, goOn, hk, Turn.attempt?, Turn.key?]
  | some key =>
    cases hr : registry.reserve key with
    | mk free reserved =>
      cases free with
      | false =>
        refine ⟨⟨server, i, provider, none⟩, reserved, s, rfl, .shared hk hr, fun rest => ?_⟩
        simp [visit, goOn, hk, hr, Turn.attempt?, Turn.key?]
      | true =>
        cases hc : provider.start server s with
        | mk outcome s' =>
          cases outcome with
          | ok a =>
            refine ⟨⟨server, i, provider, some (.ok a)⟩, reserved, s', rfl, .started hk hr hc,
              fun rest => ?_⟩
            simp [visit, begin, goOn, hk, hr, hc, Turn.attempt?, Turn.key?, Attempt.warning?,
              Attempt.failure?]
          | error e =>
            refine ⟨⟨server, i, provider, some (.error e)⟩, reserved.release key, s', rfl,
              .failed hk hr hc, fun rest => ?_⟩
            simp [visit, begin, goOn, hk, hr, hc, Turn.attempt?, Turn.key?, Attempt.warning?,
              Attempt.failure?]

/-- A call is made exactly if the key is free. -/
theorem Step.isSome_iff (h : Step registry s t registry' s') :
    t.outcome?.isSome ↔ ∃ key, t.key? = some key ∧ key ∉ registry.keys := by
  cases h with
  | unnamed hk => simp [Turn.key?, hk]
  | shared hk hr => simp [Turn.key?, hk, mem_of_reserve_false hr]
  | started hk hr => simp [Turn.key?, hk, not_mem_of_reserve hr]
  | failed hk hr => simp [Turn.key?, hk, not_mem_of_reserve hr]

/-- After a turn the key that it started is in use, and otherwise just those that were before: a
failed start has given its key back. -/
theorem Step.mem_keys (h : Step registry s t registry' s') :
    k ∈ registry'.keys ↔ k ∈ registry.keys ∨ t.Starts k := by
  cases h with
  | unnamed hk => simp [Turn.Starts]
  | shared hk hr =>
    have hmem := mem_of_reserve_false hr
    rw [mem_of_reserve hr]
    simp only [Turn.Starts, reduceCtorEq, exists_false, and_false, or_false, or_iff_right_iff_imp]
    rintro rfl
    exact hmem
  | started hk hr =>
    rw [mem_of_reserve hr]
    simp [Turn.Starts, Turn.key?, hk, or_comm, eq_comm]
  | failed hk hr =>
    have hnew := not_mem_of_reserve hr
    rw [Registry.mem_release, mem_of_reserve hr]
    simp only [Turn.Starts, Option.some.injEq, reduceCtorEq, exists_false, and_false, or_false]
    constructor
    · rintro ⟨hne, rfl | hmem⟩
      · exact absurd rfl hne
      · exact hmem
    · intro hmem
      refine ⟨?_, .inr hmem⟩
      rintro rfl
      exact hnew hmem

/-! ### All turns -/

/-- The turns of a lenient setup. -/
inductive Steps : Registry → σ → List (Turn σ τ) → Registry → σ → Prop
  | nil (registry : Registry) (s : σ) : Steps registry s [] registry s
  | cons {registry mid registry' : Registry} {s smid s' : σ} {t : Turn σ τ}
      {turns : List (Turn σ τ)} (h : Step registry s t mid smid)
      (hs : Steps mid smid turns registry' s') : Steps registry s (t :: turns) registry' s'

theorem exists_steps (ps : List (Server × Nat × Provider σ τ)) (registry : Registry) (s : σ) :
    ∃ turns registry' s', turns.map Turn.pair = ps ∧ Steps registry s turns registry' s' ∧
      visit false ps registry s = ⟨turns.filterMap Turn.attempt?, registry', .ok (),
        (turns.filterMap Turn.attempt?).filterMap Attempt.warning?⟩ := by
  induction ps generalizing registry s with
  | nil => exact ⟨[], registry, s, rfl, .nil registry s, rfl⟩
  | cons p rest ih =>
    obtain ⟨t, mid, smid, hp, hstep, hvisit⟩ := exists_step p registry s
    obtain ⟨turns, registry', s', hrest, hsteps, hlater⟩ := ih mid smid
    refine ⟨t :: turns, registry', s', ?_, .cons hstep hsteps, ?_⟩
    · rw [List.map_cons, hp, hrest]
    · rw [hvisit, hlater]
      cases ht : t.attempt? with
      | none => simp [goOn, ht]
      | some a => cases hw : a.warning? <;> simp [goOn, ht, hw]

theorem Steps.calls (h : Steps registry s turns registry' s') : Calls s turns s' := by
  induction h with
  | nil => exact .nil _
  | cons h _ ih =>
    cases h with
    | unnamed => exact .pass rfl ih
    | shared => exact .pass rfl ih
    | started _ _ hc => exact .call rfl hc ih
    | failed _ _ hc => exact .call rfl hc ih

theorem Steps.mem_keys (h : Steps registry s turns registry' s') :
    k ∈ registry'.keys ↔ k ∈ registry.keys ∨ ∃ t ∈ turns, t.Starts k := by
  induction h with
  | nil => simp
  | cons h _ ih => simp only [ih, h.mem_keys, or_assoc, List.mem_cons, exists_eq_or_imp]

/-- What the first turn starts counts as used for the turns after it. -/
theorem CalledWhenDue.cons
    (ht : t.outcome?.isSome ↔ ∃ key, t.key? = some key ∧ ¬ used key)
    (h : CalledWhenDue (fun key => used key ∨ t.Starts key) turns) :
    CalledWhenDue used (t :: turns) := by
  intro before u after heq
  cases before with
  | nil =>
    obtain ⟨rfl, rfl⟩ := List.cons.inj heq
    simpa using ht
  | cons first before =>
    obtain ⟨rfl, hrest⟩ := List.cons.inj heq
    rw [h before u after hrest]
    simp only [List.forall_mem_cons, not_or, and_assoc]

theorem Steps.calledWhenDue (h : Steps registry s turns registry' s') :
    CalledWhenDue (· ∈ registry.keys) turns := by
  induction h with
  | nil => exact fun before t after heq => by simp at heq
  | cons h _ ih =>
    refine .cons h.isSome_iff ?_
    simpa only [h.mem_keys] using ih

/-- A turn that names the key of a failed start is used for a call if no turn between the two names
the key. -/
theorem CalledWhenDue.retry (h : CalledWhenDue used turns) {before between after : List (Turn σ τ)}
    {failed next : Turn σ τ} {e : SetupError}
    (hturns : turns = before ++ failed :: (between ++ next :: after))
    (hfailed : failed.outcome? = some (.error e)) (hkey : failed.key? = some key)
    (hbetween : ∀ b ∈ between, b.key? ≠ some key) (hnext : next.key? = some key) :
    next.outcome?.isSome := by
  obtain ⟨key', hkey', hfree, hbefore⟩ := (h before failed _ hturns).1 (by rw [hfailed]; rfl)
  obtain rfl : key' = key := Option.some.inj (hkey'.symm.trans hkey)
  refine (h (before ++ failed :: between) next after (by simp [hturns])).2
    ⟨key', hnext, hfree, fun b hb => ?_⟩
  rcases List.mem_append.1 hb with hb | hb
  · exact hbefore b hb
  · rcases List.mem_cons.1 hb with rfl | hb
    · rintro ⟨-, started, hok⟩
      rw [hfailed] at hok
      cases hok
    · exact fun hst => hbetween b hb hst.1

end Startup

end LogRelay
