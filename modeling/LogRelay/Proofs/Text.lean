import LogRelay.Text.Blank

/-!
Runs of characters of one class, and pieces between separators. A run is the longest at its place
exactly if what follows it does not begin with another character of the class; the pieces of a text
are those before a separator and those after it.
-/

namespace LogRelay.Text

variable {p : Char → Bool} {text run rest : List Char}

/-- `run` is the longest run of `p` that the text begins with, and `rest` is what follows it. -/
structure Span (p : Char → Bool) (text run rest : List Char) : Prop where
  split : text = run ++ rest
  inside : ∀ c ∈ run, p c = true
  boundary : ∀ c, rest.head? = some c → p c = false

theorem Span.takeWhile_eq (h : Span p text run rest) : text.takeWhile p = run := by
  obtain ⟨rfl, inside, boundary⟩ := h
  rw [List.takeWhile_append_of_pos inside]
  cases rest with
  | nil => simp
  | cons c rest => simp [boundary c rfl]

theorem Span.dropWhile_eq (h : Span p text run rest) : text.dropWhile p = rest := by
  have hsplit := List.takeWhile_append_dropWhile (p := p) (l := text)
  rw [h.takeWhile_eq, h.split] at hsplit
  rw [h.split]
  exact List.append_cancel_left hsplit

theorem span_takeWhile (p : Char → Bool) (text : List Char) :
    Span p text (text.takeWhile p) (text.dropWhile p) where
  split := List.takeWhile_append_dropWhile.symm
  inside := fun c hc => by
    have hall := List.all_takeWhile (p := p) (l := text)
    exact List.all_eq_true.1 hall c hc
  boundary := fun c hc => by
    have hhead := List.head?_dropWhile_not p text
    rwa [hc] at hhead

theorem span_iff : Span p text run rest ↔ text.takeWhile p = run ∧ text.dropWhile p = rest := by
  constructor
  · exact fun h => ⟨h.takeWhile_eq, h.dropWhile_eq⟩
  · rintro ⟨rfl, rfl⟩
    exact span_takeWhile p text

/-- A run ends at a character of another class. -/
theorem span_append_cons {c : Char} (inside : ∀ d ∈ run, p d = true) (hc : p c = false)
    (rest : List Char) : Span p (run ++ c :: rest) run (c :: rest) where
  split := rfl
  inside := inside
  boundary := fun d hd => by
    obtain rfl := Option.some.inj hd
    exact hc

/-- A text up to the first of a character. -/
theorem span_ne {c : Char} (h : c ∉ run) (rest : List Char) :
    Span (· ≠ c) (run ++ c :: rest) run (c :: rest) := by
  refine span_append_cons (fun d hd => ?_) (by simp) rest
  have hne : d ≠ c := fun heq => h (heq ▸ hd)
  simpa using hne

/-- Nothing is trimmed where no character is of the class. -/
theorem trimWhile_of_forall (h : ∀ c ∈ text, p c = false) : trimWhile p text = text := by
  have hdrop : ∀ cs : List Char, (∀ c ∈ cs, p c = false) → cs.dropWhile p = cs := by
    intro cs hcs
    cases cs with
    | nil => rfl
    | cons c cs => exact List.dropWhile_cons_of_neg (by simp [hcs c])
  rw [trimWhile, dropEndWhile, hdrop text h, hdrop _ (by simpa using h), List.reverse_reverse]

/-- Trimming only takes characters away. -/
theorem mem_of_mem_trimWhile {c : Char} (h : c ∈ trimWhile p text) : c ∈ text := by
  have hend := (List.dropWhile_sublist _).subset (List.mem_reverse.1 h)
  exact (List.dropWhile_sublist _).subset (List.mem_reverse.1 hend)

/-- What is dropped at the end does not reach past a character that stays. -/
theorem dropEndWhile_append_cons {c : Char} (hc : p c = false) (front tail : List Char) :
    dropEndWhile p (front ++ c :: tail) = front ++ c :: dropEndWhile p tail := by
  have hstop : ∀ cs : List Char, (cs ++ c :: front.reverse).dropWhile p =
      cs.dropWhile p ++ c :: front.reverse := by
    intro cs
    induction cs with
    | nil => exact List.dropWhile_cons_of_neg (by simp [hc])
    | cons d cs ih =>
      rw [List.cons_append, List.dropWhile_cons, List.dropWhile_cons]
      split
      · exact ih
      · rfl
  rw [dropEndWhile, List.reverse_append, List.reverse_cons, List.append_assoc,
    List.singleton_append, hstop, List.reverse_append, List.reverse_cons, List.reverse_reverse,
    List.append_assoc, List.singleton_append]
  rfl

theorem digitChar_ne_newline {n : Nat} (h : n < 16) : Nat.digitChar n ≠ '\n' := by
  have hall : ∀ n < 16, Nat.digitChar n ≠ '\n' := by decide
  exact hall n h

/-! ### Pieces -/

variable {sep : Char} {cs ds first piece : List Char} {pieces : List (List Char)}

/-- A text without separators goes before the first piece. -/
theorem splitOn_append (h : sep ∉ cs) (hds : ds.splitOn sep = first :: pieces) :
    (cs ++ ds).splitOn sep = (cs ++ first) :: pieces := by
  induction cs with
  | nil => exact hds
  | cons c cs ih =>
    obtain ⟨hc, hcs⟩ := not_or.1 (fun hor => h (List.mem_cons.2 hor))
    have hne : ¬ (c == sep) = true := by simpa using Ne.symm hc
    rw [List.cons_append, List.splitOn_cons_eq_if_modifyHead, if_neg hne, ih hcs]
    rfl

theorem not_mem_of_mem_splitOn (h : piece ∈ cs.splitOn sep) : sep ∉ piece := by
  induction cs generalizing piece with
  | nil =>
    rw [List.splitOn_nil, List.mem_singleton] at h
    rw [h]
    exact List.not_mem_nil
  | cons c cs ih =>
    obtain ⟨first, pieces, hcs⟩ := List.exists_cons_of_ne_nil (List.splitOn_ne_nil sep cs)
    rw [List.splitOn_cons_eq_if_modifyHead, hcs] at h
    rw [hcs] at ih
    split at h
    · rcases List.mem_cons.1 h with rfl | h
      · exact List.not_mem_nil
      · exact ih h
    · rename_i hc
      rcases List.mem_cons.1 h with rfl | h
      · refine List.not_mem_cons_of_ne_of_not_mem ?_ (ih List.mem_cons_self)
        rintro rfl
        exact hc (beq_self_eq_true _)
      · exact ih (List.mem_cons_of_mem first h)

/-- There are as many further pieces as separators. -/
theorem splitOn_eq_singleton_iff (hcs : cs.splitOn sep = first :: pieces) :
    pieces = [] ↔ sep ∉ cs := by
  constructor
  · rintro rfl
    have hjoin : [sep].intercalate (cs.splitOn sep) = cs := List.intercalate_splitOn sep
    have hfirst : sep ∉ first := not_mem_of_mem_splitOn (by rw [hcs]; exact List.mem_cons_self)
    rw [hcs] at hjoin
    simp only [List.intercalate, List.intersperse_singleton, List.flatten_cons, List.flatten_nil,
      List.append_nil] at hjoin
    rwa [← hjoin]
  · intro h
    exact (List.cons.inj (hcs.symm.trans (List.splitOn_eq_singleton h))).2

/-- The last separator cuts a text in one way. -/
theorem append_sep_inj {front front' : List Char} (hcs : sep ∉ cs) (hds : sep ∉ ds)
    (h : front ++ sep :: cs = front' ++ sep :: ds) : front = front' ∧ cs = ds := by
  have hpieces := congrArg (List.splitOn sep) h
  rw [List.splitOn_append_cons_self, List.splitOn_append_cons_self,
    List.splitOn_eq_singleton hcs, List.splitOn_eq_singleton hds] at hpieces
  obtain rfl : cs = ds := List.singleton_inj.1 (List.append_inj_right' hpieces rfl)
  exact ⟨List.append_cancel_right h, rfl⟩

/-- What stands between two separators is one of the pieces. -/
theorem mem_splitOn_of_between (h : sep ∉ cs) (front back : List Char) :
    cs ∈ (front ++ sep :: (cs ++ sep :: back)).splitOn sep := by
  rw [List.splitOn_append_cons_self, List.splitOn_append_cons_self_of_not_mem h]
  exact List.mem_append_right _ List.mem_cons_self

end LogRelay.Text
