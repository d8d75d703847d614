import LogRelay.Proofs.Text
import LogRelay.SubscriptionPath

/-!
The paths that can be read are those that can be written, each from its own text alone.
-/

namespace LogRelay.SubscriptionPath

variable {s endpoint : String} {p q : SubscriptionPath}

/-- Project and name are there, and neither holds a slash. -/
structure IsProper (p : SubscriptionPath) : Prop where
  project_ne : p.project ≠ ""
  name_ne : p.name ≠ ""
  slash_project : '/' ∉ p.project.toList
  slash_name : '/' ∉ p.name.toList

/-- The pieces between the slashes of a path. -/
theorem splitOn_render (h : p.IsProper) : p.render.toList.splitOn '/' =
    ["projects".toList, p.project.toList, "subscriptions".toList, p.name.toList] := by
  have hrender : p.render.toList = "projects".toList ++ '/' :: (p.project.toList ++
      '/' :: ("subscriptions".toList ++ '/' :: p.name.toList)) := by
    simp [render, String.toList_append]
  rw [hrender, List.splitOn_append_cons_self_of_not_mem (by decide),
    List.splitOn_append_cons_self_of_not_mem h.slash_project,
    List.splitOn_append_cons_self_of_not_mem (by decide), List.splitOn_eq_singleton h.slash_name]

theorem parse?_eq_some_iff : parse? s = some p ↔ s = p.render ∧ p.IsProper := by
  constructor
  · intro h
    rw [parse?] at h
    split at h
    · rename_i projects project subscriptions name hsplit
      split at h
      · rename_i hwords
        obtain ⟨rfl, rfl, hproject, hname⟩ := hwords
        obtain rfl := Option.some.inj h
        have hjoin : ['/'].intercalate (s.toList.splitOn '/') = s.toList :=
          List.intercalate_splitOn '/'
        have hslash : ∀ piece ∈ s.toList.splitOn '/', '/' ∉ piece :=
          fun piece => Text.not_mem_of_mem_splitOn
        rw [hsplit] at hjoin hslash
        refine ⟨?_, ⟨?_, ?_, ?_, ?_⟩⟩
        · rw [← String.toList_inj, ← hjoin]
          simp [render, String.toList_append, List.intercalate]
        · simpa using hproject
        · simpa using hname
        · simpa using hslash project (by simp)
        · simpa using hslash name (by simp)
      · cases h
    · cases h
  · rintro ⟨rfl, h⟩
    have hproject : p.project.toList ≠ [] := by simpa using h.project_ne
    have hname : p.name.toList ≠ [] := by simpa using h.name_ne
    rw [parse?, splitOn_render h]
    simp [hproject, hname]

end LogRelay.SubscriptionPath
