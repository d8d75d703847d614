import LogRelay.Proofs.Pipeline.Run
import LogRelay.Proofs.Worker.Run
import LogRelay.Startup

/-!
Whether settings that pass the check can be started. What is computed from them on the way to a
pipeline always has a value; only the stream may not exist, and the check looks at one end of the
room that it may have.
-/

namespace LogRelay

/-- What it takes to pass the check. -/
theorem Settings.validate_eq_ok_iff {s : Settings} :
    s.validate = .ok s ↔ s.logLevel ∈ logLevels ∧ 0 < s.streamCapacity ∧ 0 < s.retryIntervalSecs ∧
      0 < s.maxMessages ∧ ∀ endpoint, s.endpoint = some endpoint → ¬ Text.isBlankText endpoint := by
  have hnone : s.validate = .ok s ↔ s.fault? = none := by
    cases h : s.fault? <;> simp [validate, h]
  have hendpoint : (s.endpoint.map Text.isBlankText).getD false = false ↔
      ∀ endpoint, s.endpoint = some endpoint → ¬ Text.isBlankText endpoint := by
    cases s.endpoint <;> simp
  rw [hnone, ← hendpoint, fault?]
  repeat' split
  all_goals simp_all [Nat.pos_iff_ne_zero]

namespace Time.Instant

theorem isRepresentable_of_minusSeconds? {t u : Instant} {n : Nat}
    (h : t.minusSeconds? n = some u) : u.isRepresentable := by
  simp only [minusSeconds?] at h
  split at h
  all_goals
    split at h
    · cases h
      assumption
    · cases h

end Time.Instant

/-- However long the window, there is a horizon. -/
theorem isRepresentable_freshnessHorizon (now : Time.Instant) (windowSecs : Nat) :
    (freshnessHorizon now windowSecs).isRepresentable := by
  rw [freshnessHorizon]
  cases h : now.minusSeconds? (min windowSecs longestWindowSecs) with
  | none => decide
  | some horizon => exact Time.Instant.isRepresentable_of_minusSeconds? h

namespace Startup

variable {σ τ : Type}

/-- Settings that pass the check are started with any providers, and whatever comes of their calls,
exactly if there can be a stream of the room that they ask for. Everything else that is made of them
has a value. -/
theorem checked_settings_start_iff_room (settings : Settings)
    (hvalid : settings.validate = .ok settings) (providers : List (Provider σ τ)) (seed : σ)
    (toWorker : Server × String × τ → Worker) (parser : Postgres.LineParser) (now : Nat)
    (sink : Channel RoutedLine) :
    ((Pipeline.make? settings parser ((run settings.testRun settings.servers providers
        seed).started.map toWorker) now sink).isSome ↔
      settings.streamCapacity ≤ Channel.maxCapacity) ∧
    0 < settings.retryIntervalSecs ∧
    ∀ windowSecs, (freshnessHorizon (Pipeline.instantOf now) windowSecs).isRepresentable := by
  obtain ⟨-, hroom, hretry, -⟩ := Settings.validate_eq_ok_iff.1 hvalid
  refine ⟨?_, hretry, isRepresentable_freshnessHorizon _⟩
  rw [Pipeline.isSome_make?_iff]
  exact and_iff_right hroom

/-- The widest stream that can be. -/
def widest : Settings where
  streamCapacity := Channel.maxCapacity

theorem checked_settings_start_widest :
    widest.validate = .ok widest ∧
      (Pipeline.make? widest (fun _ _ => none) ((run widest.testRun widest.servers
        ([] : List (Provider Unit Unit)) ()).started.map fun _ => Worker.byteWorker) 0
        { capacity := 1 }).isSome := by
  have hvalid : widest.validate = .ok widest := rfl
  have h := checked_settings_start_iff_room widest hvalid ([] : List (Provider Unit Unit)) ()
    (fun _ => Worker.byteWorker) (fun _ _ => none) 0 { capacity := 1 }
  exact ⟨hvalid, h.1.2 (Nat.le_refl _)⟩

/-- One place more than a stream can have passes the check as well, and then nothing starts. -/
theorem overwide_settings_never_start :
    ∃ settings : Settings, settings = { streamCapacity := Channel.maxCapacity + 1 } ∧
      settings.validate = .ok settings ∧
      ∀ (parser : Postgres.LineParser) (workers : List Worker) (now : Nat)
        (sink : Channel RoutedLine), Pipeline.make? settings parser workers now sink = none := by
  refine ⟨_, rfl, rfl, fun parser workers now sink => ?_⟩
  rw [← Option.not_isSome_iff_eq_none, Pipeline.isSome_make?_iff]
  rintro ⟨-, hroom⟩
  exact absurd hroom (Nat.not_succ_le_self _)

end Startup

end LogRelay
