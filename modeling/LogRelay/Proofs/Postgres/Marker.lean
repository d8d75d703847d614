import LogRelay.Postgres.Parser
import LogRelay.Proofs.Text

/-!
Where a log entry has its level markers, said without a search: a level name at the start of the text
or right after a gap, followed by a colon and at least one gap. The search finds the leftmost marker
of the first physical line (`marker?_eq_some_iff`).
-/

namespace LogRelay.Postgres

/-- The text begins with the name of the level, a colon and a run of gaps; the message follows. -/
def BeginsMarker (text : List Char) (level : Level) (message : List Char) : Prop :=
  ∃ tail gaps, text = level.name.toList ++ ':' :: tail ∧ gaps ≠ [] ∧
    Text.Span isGap tail gaps message

/-- A marker on the first physical line of the text. What stands before it ends with a gap unless it
is empty. -/
structure MarkerAt (text before : List Char) (level : Level) (message : List Char) : Prop where
  begins : ∃ rest, text = before ++ rest ∧ BeginsMarker rest level message
  firstLine : '\n' ∉ before
  ownWord : ∀ c, before.getLast? = some c → isGap c = true

/-- A marker that no other one stands before. -/
structure LeftmostMarker (text before : List Char) (level : Level) (message : List Char) :
    Prop where
  marker : MarkerAt text before level message
  leftmost : ∀ before' level' message', MarkerAt text before' level' message' →
    before.length ≤ before'.length

variable {text before header message : List Char} {level : Level}

/-! ### A marker at the start -/

theorem stripLead?_eq_some_iff {lead text rest : List Char} :
    stripLead? lead text = some rest ↔ text = lead ++ rest := by
  fun_induction stripLead? lead text with
  | case1 text => simp
  | case2 => simp
  | case3 lead b text ih => simp [ih]
  | case4 a lead b text hne => simp [Ne.symm hne]

theorem colon_notMem_name (level : Level) : ':' ∉ level.name.toList := by
  cases level <;> decide

/-- A name ends at the first colon. -/
theorem span_name (level : Level) (tail : List Char) :
    Text.Span (· ≠ ':') (level.name.toList ++ ':' :: tail) level.name.toList (':' :: tail) :=
  Text.span_ne (colon_notMem_name level) tail

theorem BeginsMarker.unique {level' : Level} {message' : List Char}
    (h : BeginsMarker text level message) (h' : BeginsMarker text level' message') :
    level = level' ∧ message = message' := by
  obtain ⟨tail, gaps, rfl, -, hgaps⟩ := h
  obtain ⟨tail', gaps', htext, -, hgaps'⟩ := h'
  have hname := (span_name level tail).takeWhile_eq
  have htail := (span_name level tail).dropWhile_eq
  rw [htext, (span_name level' tail').takeWhile_eq] at hname
  rw [htext, (span_name level' tail').dropWhile_eq] at htail
  obtain rfl := (List.cons.inj htail).2
  exact ⟨Level.name_injective (String.toList_inj.1 hname.symm),
    hgaps.dropWhile_eq.symm.trans hgaps'.dropWhile_eq⟩

/-- The colon of a marker is followed by a gap, and the message begins after the last of them. -/
theorem beginsMarker_iff : BeginsMarker text level message ↔
    ∃ c rest, text = level.name.toList ++ ':' :: c :: rest ∧ isGap c = true ∧
      rest.dropWhile isGap = message := by
  constructor
  · rintro ⟨tail, gaps, rfl, hne, hgaps⟩
    obtain ⟨c, more, rfl⟩ := List.exists_cons_of_ne_nil hne
    have hc := hgaps.inside c List.mem_cons_self
    have hdrop := hgaps.dropWhile_eq
    rw [hgaps.split, List.cons_append, List.dropWhile_cons_of_pos hc] at hdrop
    exact ⟨c, more ++ message, by rw [hgaps.split]; rfl, hc, hdrop⟩
  · rintro ⟨c, rest, rfl, hc, rfl⟩
    have hspan := Text.span_takeWhile isGap (c :: rest)
    rw [List.takeWhile_cons_of_pos hc, List.dropWhile_cons_of_pos hc] at hspan
    exact ⟨_, _, rfl, List.cons_ne_nil _ _, hspan⟩

theorem markerHere?_eq_some_iff :
    markerHere? text = some (level, message) ↔ BeginsMarker text level message := by
  have sound : ∀ {l m}, markerHere? text = some (l, m) → BeginsMarker text l m := by
    intro l m h
    obtain ⟨found, -, h⟩ := List.exists_of_findSome?_eq_some h
    split at h
    · rename_i c rest hstrip
      split at h
      · rename_i hc
        obtain ⟨rfl, rfl⟩ := Prod.mk.inj (Option.some.inj h)
        refine beginsMarker_iff.2 ⟨c, rest, ?_, hc, rfl⟩
        rw [stripLead?_eq_some_iff.1 hstrip, List.append_assoc]
        rfl
      · cases h
    · cases h
  refine ⟨sound, fun h => ?_⟩
  have hsome : (markerHere? text).isSome = true := by
    obtain ⟨c, rest, htext, hc, hmessage⟩ := beginsMarker_iff.1 h
    have hstrip : stripLead? (level.name.toList ++ [':']) text = some (c :: rest) := by
      rw [stripLead?_eq_some_iff, htext, List.append_assoc]
      rfl
    refine List.findSome?_isSome_iff.2 ⟨level, Level.mem_all level, ?_⟩
    simp [hstrip, hc]
  obtain ⟨⟨l, m⟩, hfound⟩ := Option.isSome_iff_exists.1 hsome
  obtain ⟨rfl, rfl⟩ := h.unique (sound hfound)
  exact hfound

/-! ### The leftmost marker -/

theorem isGap_ne_newline {c : Char} (h : isGap c = true) : c ≠ '\n' := by
  rintro rfl
  cases h

/-- A character that does not end a word. -/
def isInner (c : Char) : Bool := !isGap c && c != '\n'

theorem isInner_iff {c : Char} : isInner c = true ↔ isGap c = false ∧ c ≠ '\n' := by
  simp [isInner]

theorem markerAt_nil : MarkerAt text [] level message ↔ BeginsMarker text level message := by
  constructor
  · rintro ⟨⟨rest, rfl, h⟩, -, -⟩
    exact h
  · exact fun h => ⟨⟨text, rfl, h⟩, List.not_mem_nil, nofun⟩

theorem not_markerAt_nil (h : markerHere? text = none) : ¬ MarkerAt text [] level message := by
  intro hmarker
  rw [markerHere?_eq_some_iff.2 (markerAt_nil.1 hmarker)] at h
  cases h

theorem markerAt_cons {c d : Char} : MarkerAt (c :: text) (d :: before) level message ↔
    d = c ∧ c ≠ '\n' ∧ (before = [] → isGap c = true) ∧ MarkerAt text before level message := by
  constructor
  · rintro ⟨⟨rest, htext, hbegins⟩, hline, hword⟩
    obtain ⟨rfl, rfl⟩ := List.cons.inj htext
    rw [List.mem_cons, not_or] at hline
    obtain ⟨hd, hline⟩ := hline
    refine ⟨rfl, Ne.symm hd, ?_, ⟨rest, rfl, hbegins⟩, hline, fun e he => hword e ?_⟩
    · rintro rfl
      exact hword c rfl
    · simp [List.getLast?_cons, he]
  · rintro ⟨rfl, hd, hgap, ⟨rest, rfl, hbegins⟩, hline, hword⟩
    have hline' : '\n' ∉ d :: before := by
      rw [List.mem_cons, not_or]
      exact ⟨Ne.symm hd, hline⟩
    refine ⟨⟨rest, rfl, hbegins⟩, hline', fun e he => ?_⟩
    cases before with
    | nil =>
      obtain rfl := Option.some.inj he
      exact hgap rfl
    | cons b before => exact hword e (by simpa [List.getLast?_cons] using he)

theorem not_markerAt_nil_cons {d : Char} : ¬ MarkerAt [] (d :: before) level message := by
  rintro ⟨⟨rest, htext, -⟩, -, -⟩
  cases htext

/-- No two markers have the same text before them. -/
theorem LeftmostMarker.unique {before' : List Char} {level' : Level} {message' : List Char}
    (h : LeftmostMarker text before level message)
    (h' : LeftmostMarker text before' level' message') :
    before = before' ∧ level = level' ∧ message = message' := by
  have hlength : before.length = before'.length :=
    Nat.le_antisymm (h.leftmost _ _ _ h'.marker) (h'.leftmost _ _ _ h.marker)
  obtain ⟨rest, htext, hbegins⟩ := h.marker.begins
  obtain ⟨rest', htext', hbegins'⟩ := h'.marker.begins
  obtain ⟨rfl, rfl⟩ := List.append_inj (htext.symm.trans htext') hlength
  exact ⟨rfl, hbegins.unique hbegins'⟩

/-- The search after gaps passes over no marker but one at the very start. -/
theorem markerAfterGap?_eq_none (h : markerAfterGap? text = none)
    (hmarker : MarkerAt text before level message) : before = [] := by
  induction text generalizing before with
  | nil =>
    cases before with
    | nil => rfl
    | cons d before => exact absurd hmarker not_markerAt_nil_cons
  | cons c text ih =>
    cases before with
    | nil => rfl
    | cons d before =>
      obtain ⟨-, hc, hgap, hmarker⟩ := markerAt_cons.1 hmarker
      rw [markerAfterGap?, if_neg hc] at h
      split at h
      · cases h
      · rename_i hhere
        obtain rfl := ih (Option.map_eq_none_iff.1 h) hmarker
        rw [if_pos (hgap rfl)] at hhere
        exact absurd hmarker (not_markerAt_nil hhere)

theorem markerAfterGap?_eq_some (h : markerAfterGap? text = some (header, level, message)) :
    (∃ c, isGap c = true ∧ MarkerAt text (header ++ [c]) level message) ∧
      ∀ before' level' message', MarkerAt text before' level' message' → before' ≠ [] →
        header.length + 1 ≤ before'.length := by
  induction text generalizing header with
  | nil => cases h
  | cons c text ih =>
    rw [markerAfterGap?] at h
    split at h
    · cases h
    · rename_i hc
      split at h
      · -- a marker follows the gap `c`, and only one at the very start could stand further left
        rename_i found hhere
        obtain ⟨rfl, rfl⟩ := Prod.mk.inj (Option.some.inj h)
        split at hhere
        · rename_i hgap
          have hbegins := markerHere?_eq_some_iff.1 hhere
          refine ⟨⟨c, hgap, markerAt_cons.2 ⟨rfl, hc, fun _ => hgap, markerAt_nil.2 hbegins⟩⟩, ?_⟩
          exact fun before' _ _ _ hne => List.length_pos_iff.2 hne
        · cases hhere
      · rename_i hhere
        obtain ⟨⟨header, level, message⟩, hfound, heq⟩ := Option.map_eq_some_iff.1 h
        cases heq
        obtain ⟨⟨g, hgap, hmarker⟩, hleft⟩ := ih hfound
        refine ⟨⟨g, hgap, markerAt_cons.2 ⟨rfl, hc, by simp, hmarker⟩⟩, ?_⟩
        intro before' level' message' hmarker' hne
        obtain ⟨d, before', rfl⟩ := List.exists_cons_of_ne_nil hne
        obtain ⟨-, -, hgap', hmarker'⟩ := markerAt_cons.1 hmarker'
        refine Nat.succ_le_succ (hleft _ _ _ hmarker' ?_)
        rintro rfl
        rw [if_pos (hgap' rfl)] at hhere
        exact not_markerAt_nil hhere hmarker'

theorem marker?_eq_none (h : marker? text = none) : ¬ MarkerAt text before level message := by
  rw [marker?] at h
  split at h
  · cases h
  · rename_i hhere
    intro hmarker
    obtain rfl := markerAfterGap?_eq_none h hmarker
    exact not_markerAt_nil hhere hmarker

theorem marker?_eq_some (h : marker? text = some (header, level, message)) :
    ∃ before, LeftmostMarker text before level message ∧ before.dropLast = header := by
  rw [marker?] at h
  split at h
  · rename_i found hhere
    cases h
    exact ⟨[], ⟨markerAt_nil.2 (markerHere?_eq_some_iff.1 hhere), fun _ _ _ _ => Nat.zero_le _⟩, rfl⟩
  · rename_i hhere
    obtain ⟨⟨c, -, hmarker⟩, hleft⟩ := markerAfterGap?_eq_some h
    refine ⟨header ++ [c], ⟨hmarker, fun before' level' message' hmarker' => ?_⟩,
      List.dropLast_concat⟩
    rw [List.length_append]
    refine hleft _ _ _ hmarker' ?_
    rintro rfl
    exact not_markerAt_nil hhere hmarker'

/-- The header is what stands before the leftmost marker, without the gap that separates them. -/
theorem marker?_eq_some_iff : marker? text = some (header, level, message) ↔
    ∃ before, LeftmostMarker text before level message ∧ before.dropLast = header := by
  refine ⟨marker?_eq_some, ?_⟩
  rintro ⟨before, hleft, rfl⟩
  cases hfound : marker? text with
  | none => exact absurd hleft.marker (marker?_eq_none hfound)
  | some found =>
    obtain ⟨before', hleft', hheader⟩ := marker?_eq_some hfound
    obtain ⟨rfl, rfl, rfl⟩ := hleft.unique hleft'
    rw [hheader]

theorem isSome_marker?_iff :
    (marker? text).isSome = true ↔ ∃ before level message, MarkerAt text before level message := by
  constructor
  · intro h
    obtain ⟨⟨header, level, message⟩, hfound⟩ := Option.isSome_iff_exists.1 h
    obtain ⟨before, hleft, -⟩ := marker?_eq_some hfound
    exact ⟨before, level, message, hleft.marker⟩
  · rintro ⟨before, level, message, hmarker⟩
    cases hfound : marker? text with
    | none => exact absurd hmarker (marker?_eq_none hfound)
    | some found => rfl

end LogRelay.Postgres
