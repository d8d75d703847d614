import LogRelay.Channel

/-!
What becomes of the items of a queue. They leave in the order in which they were put on it, and as
long as there is a reader none is lost. What is proved step by step here is used along whole runs.
-/

namespace LogRelay.Channel

variable {α : Type} {c d : Channel α} {a : α} {sent taken : List α}

theorem take?_eq_none_iff : c.take? = none ↔ c.items = [] := by
  cases h : c.items <;> simp [take?, h]

theorem take?_closed (h : c.take? = some (a, d)) : d.closed = c.closed := by
  obtain ⟨rest, -, rfl⟩ := take?_eq_some_iff.1 h
  rfl

theorem le_length_of_full (h : c.send a = .full) : c.capacity ≤ c.items.length := by
  unfold send at h
  split at h
  · cases h
  · split at h
    · cases h
    · omega

/-- The queue after `sent` was put on it and `taken` was read from it. -/
structure Accounts (c : Channel α) (sent taken : List α) : Prop where
  inOrder : taken ++ c.items <+: sent
  complete : c.closed = false → taken ++ c.items = sent
  emptied : c.closed = true → c.items = []

theorem accounts_start (capacity : Nat) : Accounts ({ capacity } : Channel α) [] [] :=
  ⟨List.prefix_refl _, fun _ => rfl, fun _ => rfl⟩

/-- What is on a queue that is read may count as put on it and not read yet. -/
theorem accounts_of_open (hread : c.closed = false) : c.Accounts c.items [] :=
  ⟨List.prefix_refl _, fun _ => rfl, fun hc => by simp [hread] at hc⟩

theorem Accounts.taken_isPrefix (h : c.Accounts sent taken) : taken <+: sent :=
  (List.prefix_append _ _).trans h.inOrder

/-- Nothing was put on the queue or read from it. -/
theorem Accounts.unchanged (h : c.Accounts sent taken) : c.Accounts (sent ++ []) (taken ++ []) := by
  rwa [List.append_nil, List.append_nil]

theorem Accounts.send (h : c.Accounts sent taken) (hs : c.send a = .sent d) :
    d.Accounts (sent ++ [a]) taken := by
  obtain ⟨hopen, -, rfl⟩ := send_eq_sent_iff.1 hs
  have heq : taken ++ (c.items ++ [a]) = sent ++ [a] := by
    rw [← List.append_assoc, h.complete hopen]
  exact ⟨heq ▸ List.prefix_refl _, fun _ => heq, fun hc => by simp [hopen] at hc⟩

theorem Accounts.take (h : c.Accounts sent taken) (ht : c.take? = some (a, d)) :
    d.Accounts sent (taken ++ [a]) := by
  obtain ⟨rest, hitems, rfl⟩ := take?_eq_some_iff.1 ht
  have heq : taken ++ [a] ++ rest = taken ++ c.items := by simp [hitems]
  refine ⟨heq ▸ h.inOrder, fun hopen => heq ▸ h.complete hopen, fun hc => ?_⟩
  simp [h.emptied hc] at hitems

theorem Accounts.close (h : c.Accounts sent taken) : c.close.Accounts sent taken := by
  refine ⟨?_, nofun, fun _ => rfl⟩
  change taken ++ [] <+: sent
  rw [List.append_nil]
  exact h.taken_isPrefix

end LogRelay.Channel
