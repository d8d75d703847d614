import LogRelay.Proofs.Json.Records
import LogRelay.Proofs.Json.Soundness

/-!
Nothing but JSON is read: where a reader of texts, of maps of texts or of records accepts, a value
of its kind stands, with blanks before it and what is left after it.
-/

namespace LogRelay.Json

variable {α β σ : Type} {P Q : List UInt8 → Prop} {bytes rest left key : List UInt8} {acc result : σ}
  {fuel position : Nat} {first : Bool} {read : Reader α} {member : String → σ → Reader σ}

/-- The text of a record: an object or a list. -/
def IsRecord (v : List UInt8) : Prop := IsObject v ∨ IsList v

theorem IsRecord.isValue {v : List UInt8} (h : IsRecord v) : IsValue v :=
  h.elim IsObject.isValue IsList.isValue

/-- Where the reader accepts, a text of that kind stands. -/
structure AcceptsOnly (P : List UInt8 → Prop) (read : Reader α) : Prop where
  startsWith : ∀ {bytes x left}, read bytes = .ok (x, left) → StartsWith P bytes left

theorem AcceptsOnly.mono (h : AcceptsOnly P read) (hPQ : ∀ {v}, P v → Q v) : AcceptsOnly Q read where
  startsWith hread := (h.startsWith hread).mono hPQ

theorem AcceptsOnly.map (h : AcceptsOnly P read) (f : α → β) :
    AcceptsOnly P fun bytes => (read bytes).map fun (x, left) => (f x, left) where
  startsWith hread := by
    obtain ⟨⟨x, left⟩, hx, heq⟩ := map_eq_ok_iff.1 hread
    obtain ⟨rfl, rfl⟩ := Prod.mk.inj heq
    exact h.startsWith hx

theorem acceptsOnly_readText : AcceptsOnly IsValue readText := by
  refine ⟨fun {bytes s left} h => ?_⟩
  rw [readText] at h
  cases hfirst : skipBlanks bytes with
  | nil => simp [hfirst] at h
  | cons b rest =>
    obtain ⟨gap, hgap, hbytes⟩ := exists_blanks hfirst
    refine .after_blanks hbytes hgap ?_
    simp only [hfirst] at h
    split at h
    · rename_i hquote
      subst hquote
      obtain ⟨body, rfl, hbody⟩ := spells_of_readLiteral h
      exact ⟨_, .text hbody.isLiteral, by simp⟩
    · cases h

/-! ### Objects -/

theorem exists_gap_of_readColon (h : readColon bytes = .ok left) :
    ∃ gap, IsBlanks gap ∧ bytes = gap ++ byte ':' :: left := by
  rw [readColon] at h
  cases hfirst : skipBlanks bytes with
  | nil => simp [hfirst] at h
  | cons b rest =>
    obtain ⟨gap, hgap, rfl⟩ := exists_blanks hfirst
    simp only [hfirst] at h
    split at h
    · rename_i hcolon
      subst hcolon
      cases h
      exact ⟨gap, hgap, rfl⟩
    · cases h

/-- What is done with a member comes after its colon, and accepts only values. -/
def AcceptsAfterColon (member : String → σ → Reader σ) : Prop :=
  ∀ name acc bytes next left, member name acc bytes = .ok (next, left) →
    ∃ after, readColon bytes = .ok after ∧ StartsWith IsValue after left

/-- What stands before the next key of an object, if there is one. -/
inductive NextKey (bytes : List UInt8) : Bool → Option (List UInt8) → Prop
  | done {first : Bool} {rest : List UInt8} (h : skipBlanks bytes = byte '\x7d' :: rest) :
      NextKey bytes first none
  | first {key : List UInt8} (h : skipBlanks bytes = byte '"' :: key) : NextKey bytes true (some key)
  | later {rest key : List UInt8} (h : skipBlanks bytes = byte ',' :: rest)
      (hkey : skipBlanks rest = byte '"' :: key) : NextKey bytes false (some key)

theorem nextKey_of_nextKey? {next : Option (List UInt8)} (h : nextKey? first bytes = .ok next) :
    NextKey bytes first next := by
  rw [nextKey?] at h
  cases hfirst : skipBlanks bytes with
  | nil => simp [hfirst] at h
  | cons b rest =>
    simp only [hfirst] at h
    split at h
    · rename_i hbrace
      cases h
      exact .done (hbrace ▸ hfirst)
    split at h
    · rename_i hquote
      subst hquote
      split at h
      · rename_i hquote
        cases h
        exact .first (hquote ▸ hfirst)
      · cases h
    split at h
    · rename_i hlater hcomma
      obtain rfl : first = false := by simpa using hlater
      subst hcomma
      cases hnext : skipBlanks rest with
      | nil => simp [hnext] at h
      | cons c after =>
        simp only [hnext] at h
        split at h
        · rename_i hquote
          cases h
          exact .later hfirst (hquote ▸ hnext)
        · split at h <;> cases h
    · cases h

/-- A member, whose opening quote is already read, and the others after it. -/
theorem hasParts_of_member (hm : AcceptsAfterColon member) {name : String} {next : σ}
    {after : List UInt8} (hquote : skipBlanks bytes = byte '"' :: key)
    (hkey : readLiteral key = .ok (name, rest)) (hmember : member name acc rest = .ok (next, after))
    (hmore : HasMore IsMember (byte '\x7d') after left) :
    HasParts IsMember (byte '\x7d') bytes left := by
  obtain ⟨before, hbefore, rfl⟩ := exists_blanks hquote
  obtain ⟨spelled, rfl, hspelled⟩ := spells_of_readLiteral hkey
  obtain ⟨value, hcolon, hvalue⟩ := hm _ _ _ _ _ hmember
  obtain ⟨gap, hgap, rfl⟩ := exists_gap_of_readColon hcolon
  exact HasKey.hasParts_member ⟨hbefore, hspelled.isLiteral, hgap, rfl⟩ hvalue hmore

/-- Reading members stops at the end, or goes on after one of them. -/
theorem readMembers_succ_eq_ok
    (h : readMembers member (fuel + 1) first acc bytes = .ok (result, left)) :
    (nextKey? first bytes = .ok none ∧ closeObject bytes = .ok left) ∨
      ∃ key name rest next after, nextKey? first bytes = .ok (some key) ∧
        readLiteral key = .ok (name, rest) ∧ member name acc rest = .ok (next, after) ∧
        readMembers member fuel false next after = .ok (result, left) := by
  rw [readMembers] at h
  cases hnext : nextKey? first bytes with
  | error e => simp [hnext] at h
  | ok key? =>
    simp only [hnext] at h
    cases key? with
    | none =>
      obtain ⟨after, hclose, heq⟩ := map_eq_ok_iff.1 h
      obtain ⟨rfl, rfl⟩ := Prod.mk.inj heq
      exact .inl ⟨rfl, hclose⟩
    | some key =>
      dsimp only at h
      cases hkey : readLiteral key with
      | error e => simp [hkey] at h
      | ok found =>
        obtain ⟨name, rest⟩ := found
        simp only [hkey] at h
        cases hmember : member name acc rest with
        | error e => simp [hmember] at h
        | ok found =>
          obtain ⟨next, after⟩ := found
          simp only [hmember] at h
          exact .inr ⟨key, name, rest, next, after, rfl, hkey, hmember, h⟩

theorem exists_gap_of_closeObject (hnext : nextKey? first bytes = .ok none)
    (h : closeObject bytes = .ok left) : ∃ gap, IsBlanks gap ∧ bytes = gap ++ byte '\x7d' :: left := by
  cases nextKey_of_nextKey? hnext with
  | done hfirst =>
    obtain ⟨gap, hgap, rfl⟩ := exists_blanks hfirst
    rw [closeObject, hfirst] at h
    cases h
    exact ⟨gap, hgap, rfl⟩

theorem hasMore_of_readMembers (hm : AcceptsAfterColon member)
    (h : readMembers member fuel false acc bytes = .ok (result, left)) :
    HasMore IsMember (byte '\x7d') bytes left := by
  induction fuel generalizing acc bytes with
  | zero => cases h
  | succ fuel ih =>
    obtain ⟨hnext, hclose⟩ | ⟨key, name, rest, next, after, hnext, hkey, hmember, hmore⟩ :=
      readMembers_succ_eq_ok h
    · obtain ⟨gap, hgap, rfl⟩ := exists_gap_of_closeObject hnext hclose
      exact .closed hgap left
    · cases nextKey_of_nextKey? hnext with
      | later hcomma hquote =>
        obtain ⟨gap, hgap, rfl⟩ := exists_blanks hcomma
        exact (hasParts_of_member hm hquote hkey hmember (ih hmore)).after_comma hgap

theorem exists_isObject_of_readMembers (hm : AcceptsAfterColon member)
    (h : readMembers member fuel true acc bytes = .ok (result, left)) :
    ∃ v, IsObject v ∧ byte '\x7b' :: bytes = v ++ left := by
  cases fuel with
  | zero => cases h
  | succ fuel =>
    obtain ⟨hnext, hclose⟩ | ⟨key, name, rest, next, after, hnext, hkey, hmember, hmore⟩ :=
      readMembers_succ_eq_ok h
    · obtain ⟨gap, hgap, rfl⟩ := exists_gap_of_closeObject hnext hclose
      obtain ⟨v, hv, heq⟩ := isEnclosed_empty hgap left
      exact ⟨v, hv.isObject, heq⟩
    · cases nextKey_of_nextKey? hnext with
      | first hquote =>
        have hparts := hasParts_of_member hm hquote hkey hmember (hasMore_of_readMembers hm hmore)
        obtain ⟨v, hv, heq⟩ := hparts.isEnclosed
        exact ⟨v, hv.isObject, heq⟩

theorem acceptsAfterColon_putText : AcceptsAfterColon putText := by
  intro name acc bytes next left h
  rw [putText] at h
  cases hcolon : readColon bytes with
  | error e => simp [hcolon] at h
  | ok after =>
    simp only [hcolon] at h
    exact ⟨after, rfl, (acceptsOnly_readText.map (withText acc name)).startsWith h⟩

theorem acceptsOnly_readTextMap : AcceptsOnly IsObject readTextMap := by
  refine ⟨fun {bytes texts left} h => ?_⟩
  rw [readTextMap] at h
  cases hfirst : skipBlanks bytes with
  | nil => simp [hfirst] at h
  | cons b rest =>
    obtain ⟨gap, hgap, hbytes⟩ := exists_blanks hfirst
    refine .after_blanks hbytes hgap ?_
    simp only [hfirst] at h
    split at h
    · rename_i hbrace
      subst hbrace
      exact exists_isObject_of_readMembers acceptsAfterColon_putText h
    · cases h

/-! ### Lists -/

/-- What stands before the next element of a list, if there is one. -/
inductive NextElement (bytes : List UInt8) : Bool → Option (List UInt8) → Prop
  | done {first : Bool} {rest : List UInt8} (h : skipBlanks bytes = byte ']' :: rest) :
      NextElement bytes first none
  | first {more : List UInt8} (h : skipBlanks bytes = more) : NextElement bytes true (some more)
  | later {rest more : List UInt8} (h : skipBlanks bytes = byte ',' :: rest)
      (hmore : skipBlanks rest = more) : NextElement bytes false (some more)

theorem nextElement_of_nextElement? {next : Option (List UInt8)}
    (h : nextElement? first bytes = .ok next) : NextElement bytes first next := by
  rw [nextElement?] at h
  cases hfirst : skipBlanks bytes with
  | nil => simp [hfirst] at h
  | cons b rest =>
    simp only [hfirst] at h
    split at h
    · rename_i hbracket
      cases h
      exact .done (hbracket ▸ hfirst)
    split at h
    · rename_i hquote
      subst hquote
      cases h
      exact .first hfirst
    split at h
    · rename_i hlater hcomma
      obtain rfl : first = false := by simpa using hlater
      subst hcomma
      cases hnext : skipBlanks rest with
      | nil => simp [hnext] at h
      | cons c after =>
        simp only [hnext] at h
        split at h
        · cases h
        · cases h
          exact .later hfirst hnext
    · cases h

/-- An element and the others after it. -/
theorem hasParts_of_element {next : σ} {element : Reader σ} {more after : List UInt8}
    (helement : AcceptsOnly IsValue element) (hbytes : skipBlanks bytes = more)
    (h : element more = .ok (next, after)) (hmore : HasMore IsItem (byte ']') after left) :
    HasParts IsItem (byte ']') bytes left := by
  obtain ⟨gap, hgap, rfl⟩ := exists_blanks hbytes
  exact ((helement.startsWith h).blanks_append hgap).hasParts_item hmore

namespace Schema

variable {schema : Schema σ} {fields : List (Field σ)}

/-- Each field accepts only values. -/
def AcceptsFields (schema : Schema σ) : Prop :=
  ∀ f ∈ schema.fields, ∀ acc, AcceptsOnly IsValue (f.read acc)

/-- At the end of a list no field is read. -/
theorem exists_gap_of_readPositions (hnext : nextElement? first bytes = .ok none)
    (h : schema.readPositions fields position acc bytes = .ok (result, left)) :
    ∃ gap, IsBlanks gap ∧ bytes = gap ++ byte ']' :: left := by
  cases nextElement_of_nextElement? hnext with
  | done hbracket =>
    obtain ⟨gap, hgap, rfl⟩ := exists_blanks hbracket
    obtain ⟨-, rfl⟩ := (readPositions_end hgap).1 h
    exact ⟨gap, hgap, rfl⟩

/-- Reading elements stops at the end, or goes on after one of them. -/
theorem readPositions_eq_ok
    (h : schema.readPositions fields position acc bytes = .ok (result, left)) :
    (∃ gap, IsBlanks gap ∧ bytes = gap ++ byte ']' :: left) ∨
      ∃ f ∈ fields, ∃ more next after, nextElement? (position == 0) bytes = .ok (some more) ∧
        f.read acc more = .ok (next, after) ∧
        schema.readPositions fields.tail (position + 1) next after = .ok (result, left) := by
  cases fields with
  | nil =>
    obtain ⟨after, hclose, heq⟩ := map_eq_ok_iff.1 h
    obtain ⟨rfl, rfl⟩ := Prod.mk.inj heq
    exact .inl (exists_blanks (closeList_eq_ok_iff.1 hclose))
  | cons f fields =>
    cases hnext : nextElement? (position == 0) bytes with
    | error e => simp [readPositions, hnext] at h
    | ok more? =>
      cases more? with
      | none => exact .inl (exists_gap_of_readPositions hnext h)
      | some more =>
        rw [readPositions, hnext] at h
        cases hread : f.read acc more with
        | error e => simp [hread] at h
        | ok found =>
          obtain ⟨next, after⟩ := found
          simp only [hread] at h
          exact .inr ⟨f, List.mem_cons_self, more, next, after, rfl, hread, h⟩

theorem hasMore_of_readPositions (hf : ∀ f ∈ fields, ∀ acc, AcceptsOnly IsValue (f.read acc))
    (h : schema.readPositions fields (position + 1) acc bytes = .ok (result, left)) :
    HasMore IsItem (byte ']') bytes left := by
  induction fields generalizing position acc bytes with
  | nil =>
    obtain ⟨gap, hgap, rfl⟩ | ⟨_, hmem, -⟩ := readPositions_eq_ok h
    · exact .closed hgap left
    · cases hmem
  | cons g fields ih =>
    obtain ⟨gap, hgap, rfl⟩ | ⟨f, hmem, more, next, after, hnext, hread, hmore⟩ := readPositions_eq_ok h
    · exact .closed hgap left
    · cases nextElement_of_nextElement? hnext with
      | later hcomma hfirst =>
        obtain ⟨gap, hgap, rfl⟩ := exists_blanks hcomma
        have hrest := ih (fun k hk => hf k (List.mem_cons_of_mem g hk)) hmore
        exact (hasParts_of_element (hf f hmem acc) hfirst hread hrest).after_comma hgap

theorem exists_isList_of_readPositions (hf : ∀ f ∈ fields, ∀ acc, AcceptsOnly IsValue (f.read acc))
    (h : schema.readPositions fields 0 acc bytes = .ok (result, left)) :
    ∃ v, IsList v ∧ byte '[' :: bytes = v ++ left := by
  obtain ⟨gap, hgap, rfl⟩ | ⟨f, hmem, more, next, after, hnext, hread, hmore⟩ := readPositions_eq_ok h
  · obtain ⟨v, hv, heq⟩ := isEnclosed_empty hgap left
    exact ⟨v, hv.isList, heq⟩
  · cases nextElement_of_nextElement? hnext with
    | first hfirst =>
      have hrest := hasMore_of_readPositions (fun k hk => hf k (List.mem_of_mem_tail hk)) hmore
      obtain ⟨v, hv, heq⟩ := (hasParts_of_element (hf f hmem acc) hfirst hread hrest).isEnclosed
      exact ⟨v, hv.isList, heq⟩

/-! ### Records -/

theorem acceptsAfterColon_readMember (hs : schema.AcceptsFields) :
    AcceptsAfterColon schema.readMember := by
  intro name acc bytes next left h
  rw [readMember] at h
  cases hfield : schema.fields.find? (·.key == name) with
  | none =>
    cases hcolon : readColon bytes with
    | error e => simp [hfield, hcolon] at h
    | ok after =>
      simp only [hfield, hcolon] at h
      obtain ⟨rest, hskip, heq⟩ := map_eq_ok_iff.1 h
      obtain ⟨rfl, rfl⟩ := Prod.mk.inj heq
      exact ⟨after, rfl, startsWith_of_skipValue hskip⟩
  | some f =>
    cases hset : f.isSet acc with
    | true => simp [hfield, hset] at h
    | false =>
      cases hcolon : readColon bytes with
      | error e => simp [hfield, hset, hcolon] at h
      | ok after =>
        simp only [hfield, hset, hcolon, Bool.false_eq_true, if_false] at h
        exact ⟨after, rfl, (hs f (List.mem_of_find?_eq_some hfield) acc).startsWith h⟩

theorem acceptsOnly_read (hs : schema.AcceptsFields) : AcceptsOnly IsRecord schema.read := by
  refine ⟨fun {bytes result left} h => ?_⟩
  cases hfirst : skipBlanks bytes with
  | nil => simp [read, hfirst] at h
  | cons b rest =>
    obtain ⟨gap, hgap, rfl⟩ := exists_blanks hfirst
    refine .after_blanks rfl hgap ?_
    rw [read_skipBlanks hgap] at h
    by_cases hbracket : b = byte '['
    · subst hbracket
      obtain ⟨v, hv, heq⟩ := exists_isList_of_readPositions hs h
      exact ⟨v, .inr hv, heq⟩
    · by_cases hbrace : b = byte '\x7b'
      · subst hbrace
        obtain ⟨v, hv, heq⟩ := exists_isObject_of_readMembers (acceptsAfterColon_readMember hs)
          (read_brace_eq_ok_iff.1 h).1
        exact ⟨v, .inl hv, heq⟩
      · have hstop : skipBlanks (b :: rest) = b :: rest := by
          rw [← skipBlanks_append hgap]
          exact hfirst
        have hblank : isBlank b = false := by
          simpa using List.dropWhile_eq_self_iff.1 hstop (Nat.zero_lt_succ _)
        rw [read_eq_error hblank hbracket hbrace] at h
        cases h

end Schema

theorem exists_of_readWhole {x : α} (hread : AcceptsOnly P read) (h : readWhole read bytes = .ok x) :
    ∃ lead v trail, IsBlanks lead ∧ P v ∧ IsBlanks trail ∧ bytes = lead ++ (v ++ trail) := by
  rw [readWhole] at h
  cases hok : read bytes with
  | error e => simp [hok] at h
  | ok found =>
    obtain ⟨y, rest⟩ := found
    simp only [hok] at h
    cases hrest : skipBlanks rest with
    | nil =>
      obtain ⟨hlead, hv, rfl⟩ := hread.startsWith hok
      exact ⟨_, _, _, hlead, hv, List.dropWhile_eq_nil_iff.1 hrest, rfl⟩
    | cons b more => simp [hrest] at h

end LogRelay.Json
