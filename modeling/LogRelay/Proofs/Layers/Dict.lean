import LogRelay.Layers.Value

/-!
Dictionaries by what is found in them. A dictionary that is ordered by its keys is determined by its
values at all keys, and laying one over another decides key by key.
-/

namespace LogRelay.Layers

variable {d e : Dict} {key k : String} {v w : Value}

namespace Dict

/-- The keys ascend, so each is there once. -/
def IsOrdered (d : Dict) : Prop := d.Pairwise fun x y => x.1 < y.1

@[simp] theorem get?_nil (k : String) : get? k [] = none := rfl

theorem get?_cons (k key : String) (v : Value) (d : Dict) :
    get? k ((key, v) :: d) = if k = key then some v else get? k d := by
  by_cases hk : k = key
  · rw [if_pos hk, hk]
    exact List.lookup_cons_self
  · have hbeq : (k == key) = false := beq_false_of_ne hk
    rw [if_neg hk, get?, List.lookup_cons, hbeq]
    rfl

theorem get?_insert (k key : String) (v : Value) (d : Dict) :
    get? k (insert key v d) = if k = key then some v else get? k d := by
  induction d with
  | nil => rw [insert, get?_cons]
  | cons x d ih =>
    obtain ⟨first, w⟩ := x
    rw [insert]
    split
    · rw [get?_cons]
    · split
      · next heq =>
        subst heq
        rw [get?_cons, get?_cons]
        split <;> rfl
      · next hne =>
        rw [get?_cons, get?_cons, ih]
        by_cases hk : k = first
        · rw [if_pos hk, if_pos hk, if_neg fun hkey => hne (hkey.symm.trans hk)]
        · rw [if_neg hk, if_neg hk]

theorem mem_insert {x : String × Value} (h : x ∈ insert key v d) : x = (key, v) ∨ x ∈ d := by
  induction d with
  | nil => exact .inl (List.mem_singleton.1 h)
  | cons y d ih =>
    obtain ⟨first, w⟩ := y
    rw [insert] at h
    split at h
    · exact List.mem_cons.1 h
    · split at h
      · exact (List.mem_cons.1 h).imp_right (List.mem_cons_of_mem _)
      · rcases List.mem_cons.1 h with rfl | h
        · exact .inr List.mem_cons_self
        · exact (ih h).imp_right (List.mem_cons_of_mem _)

theorem IsOrdered.insert (h : d.IsOrdered) (key : String) (v : Value) :
    (Dict.insert key v d).IsOrdered := by
  induction d with
  | nil => exact List.pairwise_singleton _ _
  | cons x d ih =>
    obtain ⟨first, w⟩ := x
    obtain ⟨hfirst, hd⟩ := List.pairwise_cons.1 h
    rw [Dict.insert]
    split
    · next hlt =>
      refine List.pairwise_cons.2 ⟨List.forall_mem_cons.2 ⟨hlt, fun y hy => ?_⟩, h⟩
      exact String.lt_trans hlt (hfirst y hy)
    · split
      · next heq =>
        subst heq
        exact List.pairwise_cons.2 ⟨hfirst, hd⟩
      · next hlt hne =>
        refine List.pairwise_cons.2 ⟨fun y hy => ?_, ih hd⟩
        rcases mem_insert hy with rfl | hy
        · exact String.not_le.1 fun hle => hne (String.le_antisymm hle (String.not_lt.1 hlt))
        · exact hfirst y hy

/-- Only what comes after a key is found behind it. -/
theorem get?_eq_none_of_not_lt (h : IsOrdered ((key, v) :: d)) (hk : ¬ key < k) :
    get? k d = none := by
  refine List.lookup_eq_none_iff.2 fun x hx => ?_
  have hlt := (List.pairwise_cons.1 h).1 x hx
  have hne : k ≠ x.1 := by
    rintro rfl
    exact hk hlt
  simpa using hne

theorem key_le_of_get? (he : IsOrdered ((key, v) :: e)) (h : get? k ((key, v) :: e) = some w) :
    ¬ k < key := by
  intro hlt
  have hne : k ≠ key := by
    rintro rfl
    exact String.lt_irrefl _ hlt
  rw [get?_cons, if_neg hne, get?_eq_none_of_not_lt he (String.lt_asymm hlt)] at h
  cases h

theorem IsOrdered.ext (hd : d.IsOrdered) (he : e.IsOrdered) (h : ∀ k, get? k d = get? k e) :
    d = e := by
  induction d generalizing e with
  | nil =>
    cases e with
    | nil => rfl
    | cons y e => simpa using (h y.1).trans ((get?_cons ..).trans (if_pos rfl))
  | cons x d ih =>
    obtain ⟨first, v⟩ := x
    have hv : get? first ((first, v) :: d) = some v := (get?_cons ..).trans (if_pos rfl)
    cases e with
    | nil => simpa [hv] using h first
    | cons y e =>
      obtain ⟨first', w⟩ := y
      have hw : get? first' ((first', w) :: e) = some w := (get?_cons ..).trans (if_pos rfl)
      have hfirst : first = first' :=
        String.le_antisymm (String.not_lt.1 (key_le_of_get? hd ((h first').trans hw)))
          (String.not_lt.1 (key_le_of_get? he ((h first).symm.trans hv)))
      subst hfirst
      obtain rfl : v = w := by simpa [hv, hw] using h first
      have hrest : ∀ k, get? k d = get? k e := by
        intro k
        by_cases hk : k = first
        · rw [hk, get?_eq_none_of_not_lt hd (String.lt_irrefl _),
            get?_eq_none_of_not_lt he (String.lt_irrefl _)]
        · simpa [get?_cons, hk] using h k
      rw [ih (List.pairwise_cons.1 hd).2 (List.pairwise_cons.1 he).2 hrest]

theorem get?_filter (p : String → Bool) (k : String) (d : Dict) :
    get? k (d.filter fun x => p x.1) = if p k then get? k d else none := by
  induction d with
  | nil => exact (ite_self _).symm
  | cons x d ih =>
    obtain ⟨key, v⟩ := x
    by_cases hkey : p key
    · rw [List.filter_cons, if_pos hkey, get?_cons, get?_cons, ih]
      by_cases hk : k = key
      · subst hk
        rw [if_pos rfl, if_pos hkey, if_pos rfl]
      · rw [if_neg hk, if_neg hk]
    · rw [List.filter_cons, if_neg hkey, get?_cons, ih]
      by_cases hk : k = key
      · subst hk
        rw [if_neg hkey, if_neg hkey]
      · rw [if_neg hk]

theorem IsOrdered.filter (h : d.IsOrdered) (p : String × Value → Bool) :
    IsOrdered (d.filter p) :=
  List.Pairwise.filter p h

end Dict

open Dict (get?_cons get?_insert)

/-- The value that is found at a key of two layers. -/
theorem Value.get?_layEntries (k : String) (d e : Dict) :
    Dict.get? k (layEntries d e) =
      match Dict.get? k d with
      | some v => some (match Dict.get? k e with
        | some w => lay v w
        | none => v)
      | none => Dict.get? k e := by
  induction d with
  | nil => rfl
  | cons x d ih =>
    obtain ⟨key, v⟩ := x
    rw [layEntries, get?_cons]
    by_cases hk : k = key
    · subst hk
      cases he : Dict.get? k e <;> simp [get?_insert]
    · cases he : Dict.get? key e <;> simp [get?_insert, hk, ih]

theorem Dict.IsOrdered.layEntries (he : e.IsOrdered) (d : Dict) :
    (Value.layEntries d e).IsOrdered := by
  induction d with
  | nil => exact he
  | cons x d ih =>
    obtain ⟨key, v⟩ := x
    rw [Value.layEntries]
    split
    · exact ih.insert key _
    · exact ih.insert key v

end LogRelay.Layers
