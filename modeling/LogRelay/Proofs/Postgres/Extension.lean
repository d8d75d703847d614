import LogRelay.Proofs.Postgres.Grammar
import Mathlib.Data.List.DropRight

/-!
What becomes of an entry when text is added to it. A marker is read within the first line and up to
the first gap after it, so text that follows an entry cannot move its marker to the left, and text
on further lines cannot give a marker to a text that has none.
-/

namespace LogRelay.Postgres

variable {text more header before message : List Char} {level : Level}

/-! ### Markers of a longer text -/

/-- A level name and its colon are one word. -/
theorem isInner_of_mem_name {c : Char} (h : c ∈ level.name.toList ++ [':']) :
    isInner c = true := by
  have hall : (level.name.toList ++ [':']).all isInner = true := by
    cases level <;> rfl
  exact List.all_eq_true.1 hall c h

theorem markerAt_iff : MarkerAt text before level message ↔
    ∃ c rest, text = before ++ (level.name.toList ++ [':', c]) ++ rest ∧ isGap c = true ∧
      rest.dropWhile isGap = message ∧ '\n' ∉ before ∧
      ∀ d, before.getLast? = some d → isGap d = true := by
  constructor
  · rintro ⟨⟨tail, rfl, hbegins⟩, hline, hword⟩
    obtain ⟨c, rest, rfl, hc, hmessage⟩ := beginsMarker_iff.1 hbegins
    exact ⟨c, rest, by simp, hc, hmessage, hline, hword⟩
  · rintro ⟨c, rest, rfl, hc, hmessage, hline, hword⟩
    refine ⟨⟨level.name.toList ++ ':' :: c :: rest, by simp, ?_⟩, hline, hword⟩
    exact beginsMarker_iff.2 ⟨c, rest, rfl, hc, hmessage⟩

/-- A marker stays where it is when text is added. -/
theorem MarkerAt.append (h : MarkerAt text before level message) (more : List Char) :
    MarkerAt (text ++ more) before level ((message ++ more).dropWhile isGap) := by
  obtain ⟨c, rest, rfl, hc, rfl, hline, hword⟩ := markerAt_iff.1 h
  refine markerAt_iff.2 ⟨c, rest ++ more, by simp, hc, ?_, hline, hword⟩
  rw [List.dropWhile_append, List.dropWhile_append, List.dropWhile_idempotent]

/-- A marker of a longer text is one of the text, or it is only completed by what is added. -/
theorem MarkerAt.of_append (h : MarkerAt (text ++ more) before level message) :
    (∃ message', MarkerAt text before level message') ∨
      ∃ c added, isGap c = true ∧ added ≠ [] ∧ added <+: more ∧
        text ++ added = before ++ (level.name.toList ++ [':', c]) := by
  obtain ⟨c, rest, htext, hc, -, hline, hword⟩ := markerAt_iff.1 h
  rcases List.append_eq_append_iff.1 htext with ⟨added, hmarker, hmore⟩ | ⟨tail, htext, -⟩
  · cases added with
    | nil =>
      rw [List.append_nil] at hmarker
      exact .inl ⟨[], markerAt_iff.2 ⟨c, [], by simp [hmarker], hc, rfl, hline, hword⟩⟩
    | cons d added => exact .inr ⟨c, d :: added, hc, nofun, ⟨rest, hmore.symm⟩, hmarker.symm⟩
  · exact .inl ⟨_, markerAt_iff.2 ⟨c, tail, htext, hc, rfl, hline, hword⟩⟩

/-- A marker that is only completed by what is added begins after every gap of the text: its name
and its colon hold none. -/
theorem length_le_of_completed {before' tail added : List Char} {c : Char}
    (hword : ∀ d, before.getLast? = some d → isGap d = true) (hadded : added ≠ [])
    (hcompleted : before ++ tail ++ added = before' ++ (level.name.toList ++ [':', c])) :
    before.length ≤ before'.length := by
  refine Nat.le_of_not_lt fun hlt => ?_
  obtain ⟨between, rfl, hname⟩ : ∃ between, before = before' ++ between ∧
      level.name.toList ++ [':', c] = between ++ (tail ++ added) := by
    rw [List.append_assoc] at hcompleted
    rcases List.append_eq_append_iff.1 hcompleted with ⟨between, hbefore, -⟩ | hbetween
    · rw [hbefore, List.length_append] at hlt
      omega
    · exact hbetween
  have hbetween : between ≠ [] := by
    rintro rfl
    simp at hlt
  obtain ⟨first, gap, rfl⟩ := List.eq_nil_or_concat between |>.resolve_left hbetween
  have hgap : isGap gap = true := hword gap (by simp)
  have hdropped : level.name.toList ++ [':'] = first ++ gap :: (tail ++ added).dropLast := by
    have hne : tail ++ added ≠ [] := List.append_ne_nil_of_right_ne_nil tail hadded
    have hlast := congrArg List.dropLast hname
    rw [List.dropLast_append_of_ne_nil hne, List.append_cons, List.dropLast_concat] at hlast
    simpa using hlast
  have hmem : gap ∈ level.name.toList ++ [':'] := by
    rw [hdropped]
    simp
  rw [(isInner_iff.1 (isInner_of_mem_name hmem)).1] at hgap
  cases hgap

/-- The leftmost marker stays the leftmost when text is added. -/
theorem LeftmostMarker.append (h : LeftmostMarker text before level message) (more : List Char) :
    LeftmostMarker (text ++ more) before level ((message ++ more).dropWhile isGap) := by
  refine ⟨h.marker.append more, fun before' level' message' hmarker => ?_⟩
  rcases hmarker.of_append with ⟨found, hfound⟩ | ⟨c, added, -, hadded, -, hcompleted⟩
  · exact h.leftmost _ _ _ hfound
  · obtain ⟨⟨tail, rfl, -⟩, -, hword⟩ := h.marker
    exact length_le_of_completed hword hadded hcompleted

theorem marker?_eq_none_iff :
    marker? text = none ↔ ∀ before level message, ¬ MarkerAt text before level message := by
  rw [← Option.not_isSome_iff_eq_none, isSome_marker?_iff]
  simp only [not_exists]

theorem marker?_append (h : marker? text = some (header, level, message)) (more : List Char) :
    marker? (text ++ more) = some (header, level, (message ++ more).dropWhile isGap) := by
  obtain ⟨before, hleft, hheader⟩ := marker?_eq_some_iff.1 h
  exact marker?_eq_some_iff.2 ⟨before, hleft.append more, hheader⟩

/-- No line feed completes a marker, and after one there is none to find. -/
theorem marker?_append_newline (h : marker? text = none) (more : List Char) :
    marker? (text ++ '\n' :: more) = none := by
  rw [marker?_eq_none_iff] at h ⊢
  intro before level message hmarker
  have hline : '\n' ∉ before := hmarker.firstLine
  rcases hmarker.of_append with ⟨found, hfound⟩ | ⟨c, added, hc, hadded, hprefix, hcompleted⟩
  · exact h _ _ _ hfound
  obtain ⟨d, added, rfl⟩ := List.exists_cons_of_ne_nil hadded
  obtain rfl : d = '\n' := (List.cons_prefix_cons.1 hprefix).1
  have hmem : '\n' ∈ before ++ ((level.name.toList ++ [':']) ++ [c]) := by
    rw [← List.append_cons, ← hcompleted]
    simp
  rw [List.mem_append, List.mem_append, List.mem_singleton] at hmem
  rcases hmem with hmem | hmem | rfl
  · exact hline hmem
  · exact (isInner_iff.1 (isInner_of_mem_name hmem)).2 rfl
  · exact isGap_ne_newline hc rfl

/-- The carriage return of a line end is no part of a marker. -/
theorem marker?_append_return (h : marker? text = none) : marker? (text ++ ['\r']) = none := by
  rw [marker?_eq_none_iff] at h ⊢
  intro before level message hmarker
  rcases hmarker.of_append with ⟨found, hfound⟩ | ⟨c, added, hc, hadded, hprefix, hcompleted⟩
  · exact h _ _ _ hfound
  obtain ⟨d, added, rfl⟩ := List.exists_cons_of_ne_nil hadded
  obtain ⟨rfl, hrest⟩ := List.cons_prefix_cons.1 hprefix
  obtain rfl := List.prefix_nil.1 hrest
  have hlast := congrArg List.getLast? hcompleted
  simp only [List.append_cons _ ':' [c], ← List.append_assoc, List.getLast?_concat] at hlast
  rw [← Option.some.inj hlast] at hc
  cases hc

/-! ### Entries of a longer text -/

/-- The entry with text added to its message. Gaps in front of a message are lost. -/
def Line.extend (line : Line) (more : String) : Line :=
  { line with
    content :=
      if line.content = "" then String.ofList (more.toList.dropWhile isGap)
      else line.content ++ more }

/-- The line end takes at most a carriage return off the text. -/
theorem exists_body (text : List Char) :
    ∃ body, body? [] (text ++ ['\n']) = some body ∧ (text = body ∨ text = body ++ ['\r']) := by
  by_cases hreturn : text.getLast? = some '\r'
  · obtain ⟨body, rfl⟩ := List.getLast?_eq_some_iff.1 hreturn
    have hbody : HasBody [] (body ++ ['\r', '\n']) body := .carriageReturn
    refine ⟨body, body?_eq_some_iff.2 ?_, .inr rfl⟩
    rwa [List.append_assoc]
  · exact ⟨text, body?_lineFeed hreturn, .inl rfl⟩

/-- A text is no entry exactly if it has no marker, whatever its line end is. -/
theorem parseLine_eq_none_iff {text : String} :
    parseLine "" (text ++ "\n") = none ↔ marker? text.toList = none := by
  obtain ⟨body, hbody, htext⟩ := exists_body text.toList
  have hparse : parseLine "" (text ++ "\n") = none ↔ marker? body = none := by
    cases hfound : marker? body <;> simp [parseLine, String.toList_append, hbody, hfound]
  rw [hparse]
  rcases htext with htext | htext <;> rw [htext]
  constructor
  · exact marker?_append_return
  · intro hnone
    cases hfound : marker? body with
    | none => rfl
    | some found => rw [marker?_append hfound] at hnone; cases hnone

/-- The message of an entry, with text added. -/
theorem ofList_dropWhile_append (hmessage : message.dropWhile isGap = message) (more : String) :
    String.ofList ((message ++ more.toList).dropWhile isGap) =
      if String.ofList message = "" then String.ofList (more.toList.dropWhile isGap)
      else String.ofList message ++ more := by
  rw [List.dropWhile_append, hmessage]
  cases message with
  | nil => rfl
  | cons c message =>
    have hne : String.ofList (c :: message) ≠ "" := by
      simp [← String.toList_inj]
    rw [if_neg hne, List.isEmpty_cons, if_neg Bool.false_ne_true, String.ofList_append,
      String.ofList_toList]

variable {text more : String} {line : Line}

theorem getLast?_append_ne_return (htext : text.toList.getLast? ≠ some '\r')
    (hmore : more.toList.getLast? ≠ some '\r') : (text ++ more).toList.getLast? ≠ some '\r' := by
  rw [String.toList_append, List.getLast?_append]
  cases hlast : more.toList.getLast? with
  | none => exact htext
  | some c => rwa [hlast] at hmore

/-- Added text lengthens the message and changes nothing else. -/
theorem parseLine_append (htext : text.toList.getLast? ≠ some '\r')
    (hmore : more.toList.getLast? ≠ some '\r') (h : parseLine "" (text ++ "\n") = some line) :
    parseLine "" (text ++ more ++ "\n") = some (line.extend more) := by
  obtain ⟨body, header, level, message, hbody, hmarker, rfl⟩ := parseLine_eq_some_iff.1 h
  rw [String.toList_append] at hbody
  obtain rfl := Option.some.inj (hbody.symm.trans (body?_lineFeed htext))
  have hmessage : message.dropWhile isGap = message := by
    obtain ⟨before, hleft, -⟩ := marker?_eq_some_iff.1 hmarker
    obtain ⟨c, rest, -, -, rfl, -⟩ := markerAt_iff.1 hleft.marker
    exact List.dropWhile_idempotent isGap rest
  have hbody' := body?_lineFeed (getLast?_append_ne_return htext hmore)
  have hmarker' := marker?_append hmarker more.toList
  rw [String.toList_append] at hbody'
  refine parseLine_eq_some_iff.2 ⟨_, header, level, _, ?_, hmarker', ?_⟩
  · rw [String.toList_append, String.toList_append]
    exact hbody'
  · exact congrArg (fun content => { Line.ofParts header level message with content := content })
      (ofList_dropWhile_append hmessage more)

/-- Further lines make no entry of a text that is none. -/
theorem parseLine_append_newline (h : parseLine "" (text ++ "\n") = none) (more : String) :
    parseLine "" (text ++ "\n" ++ more ++ "\n") = none := by
  rw [parseLine_eq_none_iff] at h ⊢
  have hlines : (text ++ "\n" ++ more).toList = text.toList ++ '\n' :: more.toList := by
    simp [String.toList_append]
  rw [hlines]
  exact marker?_append_newline h more.toList

/-- Nothing that follows the header of an entry changes it: text added to an entry only lengthens
the message, and a text that is no entry stays none whatever lines follow it. -/
theorem header_unchanged_by_added_text (text more : String) :
    (∀ line, text.toList.getLast? ≠ some '\r' → more.toList.getLast? ≠ some '\r' →
      parseLine "" (text ++ "\n") = some line →
      parseLine "" (text ++ more ++ "\n") = some (line.extend more)) ∧
    (parseLine "" (text ++ "\n") = none →
      parseLine "" (text ++ "\n" ++ more ++ "\n") = none) :=
  ⟨fun _ htext hmore h => parseLine_append htext hmore h, fun h => parseLine_append_newline h more⟩

/-- What is added makes a marker of `FATAL:` in the first text, but not the leftmost one; in the
second text the gap that `FATAL:` lacks comes a line too late. -/
theorem header_unchanged_by_second_marker :
    parseLine "" ("[7]: user=b LOG: \t" ++ " [8] FATAL: x db=c\nERROR:  y" ++ "\n") =
        some ⟨none, .log, some 7, none, some "b", "[8] FATAL: x db=c\nERROR:  y"⟩ ∧
      parseLine "" ("user=b FATAL:" ++ "\n" ++ " x\nLOG:  y" ++ "\n") = none := by
  have hentry : parseLine "" ("[7]: user=b LOG: \t" ++ "\n") =
      some ⟨none, .log, some 7, none, some "b", ""⟩ := by decide +kernel
  have hnone : parseLine "" ("user=b FATAL:" ++ "\n") = none := by decide +kernel
  exact ⟨(header_unchanged_by_added_text _ _).1 _ (by decide) (by decide) hentry,
    (header_unchanged_by_added_text _ _).2 hnone⟩

end LogRelay.Postgres
