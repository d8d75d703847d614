import LogRelay.Json.Schema

/-!
A record that is read has every field that it must have, whether it is read from an object or from a
list.
-/

namespace LogRelay.Json.Schema

variable {σ : Type} {schema : Schema σ} {fields : List (Field σ)} {field : Field σ} {acc acc' : σ}
  {bytes rest : List UInt8} {position : Nat}

/-- Reading a field sets it, and unsets no other. -/
structure Cumulative (schema : Schema σ) : Prop where
  sets : ∀ f ∈ schema.fields, ∀ acc bytes acc' rest, f.read acc bytes = .ok (acc', rest) →
    f.isSet acc' = true
  keeps : ∀ f ∈ schema.fields, ∀ g ∈ schema.fields, ∀ acc bytes acc' rest,
    g.read acc bytes = .ok (acc', rest) → f.isSet acc = true → f.isSet acc' = true

theorem isSet_of_missing?_eq_none (h : schema.missing? acc = none) (hf : field ∈ schema.fields)
    (hneeded : field.optional = false) : field.isSet acc = true := by
  have hnone := List.find?_eq_none.1 (Option.map_eq_none_iff.1 h) field hf
  simpa [hneeded] using hnone

/-- The elements of a list set the fields in whose places they stand. -/
theorem isSet_of_readPositions (hs : schema.Cumulative) (hfields : ∀ f ∈ fields, f ∈ schema.fields)
    (h : schema.readPositions fields position acc bytes = .ok (acc', rest))
    (hf : field ∈ schema.fields) (hneeded : field.optional = false)
    (hset : field.isSet acc = true ∨ field ∈ fields) : field.isSet acc' = true := by
  induction fields generalizing position acc bytes with
  | nil =>
    have hacc : field.isSet acc = true := hset.resolve_right nofun
    rw [readPositions] at h
    cases hc : closeList bytes with
    | error e => simp [hc, Except.map] at h
    | ok after =>
      obtain ⟨rfl, -⟩ : acc = acc' ∧ after = rest := by simpa [hc, Except.map] using h
      exact hacc
  | cons f fields ih =>
    have hrest : ∀ g ∈ fields, g ∈ schema.fields := fun g hg => hfields g (List.mem_cons_of_mem f hg)
    have hmem : f ∈ schema.fields := hfields f List.mem_cons_self
    rw [readPositions] at h
    cases hn : nextElement? (position == 0) bytes with
    | error e => simp [hn] at h
    | ok next =>
      cases next with
      | none =>
        cases ho : f.optional with
        | false => simp [hn, ho] at h
        | true =>
          simp only [hn, ho, if_true] at h
          refine ih hrest h (hset.imp_right fun hin => ?_)
          rcases List.mem_cons.1 hin with rfl | hin
          · rw [hneeded] at ho
            cases ho
          · exact hin
      | some left =>
        cases hr : f.read acc left with
        | error e => simp [hn, hr] at h
        | ok result =>
          obtain ⟨mid, after⟩ := result
          simp only [hn, hr] at h
          refine ih hrest h ?_
          rcases hset with hset | hin
          · exact .inl (hs.keeps field hf f hmem acc left mid after hr hset)
          · rcases List.mem_cons.1 hin with rfl | hin
            · exact .inl (hs.sets field hf acc left mid after hr)
            · exact .inr hin

theorem isSet_of_read (hs : schema.Cumulative) (h : schema.read bytes = .ok (acc, rest))
    (hf : field ∈ schema.fields) (hneeded : field.optional = false) : field.isSet acc = true := by
  rw [read] at h
  split at h
  · cases h
  · split at h
    · exact isSet_of_readPositions hs (fun _ hg => hg) h hf hneeded (.inr hf)
    · split at h
      · split at h
        · cases h
        · split at h
          · cases h
          · rename_i hmissing
            cases h
            exact isSet_of_missing?_eq_none hmissing hf hneeded
      · cases h

theorem isSet_of_readWhole (hs : schema.Cumulative) (h : readWhole schema.read bytes = .ok acc)
    (hf : field ∈ schema.fields) (hneeded : field.optional = false) : field.isSet acc = true := by
  rw [readWhole] at h
  cases hr : schema.read bytes with
  | error e => simp [hr] at h
  | ok result =>
    obtain ⟨value, left⟩ := result
    simp only [hr] at h
    split at h
    · cases h
      exact isSet_of_read hs hr hf hneeded
    · cases h

end LogRelay.Json.Schema
