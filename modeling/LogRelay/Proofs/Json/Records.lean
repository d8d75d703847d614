import LogRelay.Proofs.Json.Reading

/-!
Records and maps of texts read values as a whole: from an object exactly what its members come to,
from a list exactly what its elements come to, and from anything else nothing.
-/

namespace LogRelay.Json

variable {σ : Type} {v gap bytes rest left : List UInt8} {b : UInt8} {first : Bool}

/-! ### Elements of a list -/

/-- Reading the elements one after the other into the fields takes `acc` to `result`. -/
inductive Fills : List (Field σ) → σ → List Item → σ → Prop
  | done (acc : σ) : Fills [] acc [] acc
  | absent {field : Field σ} {fields : List (Field σ)} {acc result : σ}
      (hoptional : field.optional = true) (tail : Fills fields acc [] result) :
      Fills (field :: fields) acc [] result
  | present {field : Field σ} {fields : List (Field σ)} {acc next result : σ} {i : Item}
      {items : List Item} (head : Gives (field.read acc) i.value next)
      (tail : Fills fields next items result) : Fills (field :: fields) acc (i :: items) result

theorem fills_cons_iff {field : Field σ} {fields : List (Field σ)} {acc result : σ} {i : Item}
    {items : List Item} : Fills (field :: fields) acc (i :: items) result ↔
      ∃ next, Gives (field.read acc) i.value next ∧ Fills fields next items result := by
  constructor
  · rintro (_ | _ | ⟨head, tail⟩)
    exact ⟨_, head, tail⟩
  · rintro ⟨next, head, tail⟩
    exact .present head tail

theorem closeList_eq_ok_iff : closeList bytes = .ok left ↔ skipBlanks bytes = byte ']' :: left := by
  rw [closeList]
  cases skipBlanks bytes with
  | nil => simp
  | cons b rest =>
    by_cases hb : b = byte ']'
    · simp [hb]
    · by_cases hcomma : b = byte ','
      · have hne : byte ',' ≠ byte ']' := by decide
        cases hrest : skipBlanks rest with
        | nil => simp [hcomma, hne, hrest]
        | cons c after => by_cases hc : c = byte ']' <;> simp [hcomma, hne, hrest, hc]
      · simp [hb, hcomma]

theorem nextElement?_text {i : Item} (hi : i.IsPadded) (hv : IsValue i.value) (rest : List UInt8) :
    nextElement? true (i.text ++ rest) = .ok (some (i.value ++ (i.after ++ rest))) := by
  obtain ⟨b, more, hvalue, hfirst, hb⟩ := hi.skipBlanks_text hv rest
  rw [nextElement?, hfirst, hvalue]
  simp [hb]

theorem nextElement?_gap_comma {i : Item} (hgap : IsBlanks gap) (hi : i.IsPadded)
    (hv : IsValue i.value) (rest : List UInt8) :
    nextElement? false (gap ++ byte ',' :: (i.text ++ rest)) =
      .ok (some (i.value ++ (i.after ++ rest))) := by
  obtain ⟨b, more, hvalue, hfirst, hb⟩ := hi.skipBlanks_text hv rest
  rw [nextElement?, skipBlanks_gap hgap (by decide)]
  dsimp only
  rw [if_neg (by decide), if_neg (by decide), if_pos rfl, hfirst, hvalue]
  simp [hb]

theorem nextElement?_gap_end (hgap : IsBlanks gap) (rest : List UInt8) :
    nextElement? first (gap ++ byte ']' :: rest) = .ok none := by
  rw [nextElement?, skipBlanks_gap hgap (by decide)]
  rfl

namespace Schema

variable {schema : Schema σ} {fields : List (Field σ)} {field : Field σ} {acc next result : σ}
  {items : List Item} {i : Item} {members : List Member} {name : String} {position : Nat}

theorem readPositions_element {i : Item} (hread : ReadsValues (field.read acc)) (hi : i.IsPadded)
    (hv : IsValue i.value) (hends : Ends rest) (hfirst : (position == 0) = first)
    (hnext : nextElement? first bytes = .ok (some (i.value ++ (i.after ++ rest)))) :
    schema.readPositions (field :: fields) position acc bytes = .ok (result, left) ↔
      ∃ next, Gives (field.read acc) i.value next ∧
        schema.readPositions fields (position + 1) next (i.after ++ rest) = .ok (result, left) := by
  have hafter := ends_blanks hi.after hends
  rw [readPositions, hfirst, hnext]
  dsimp only
  cases hfield : field.read acc (i.value ++ (i.after ++ rest)) with
  | error e =>
    simp only [reduceCtorEq, false_iff]
    rintro ⟨next, hgives, -⟩
    rw [hgives _ hafter] at hfield
    cases hfield
  | ok found =>
    obtain ⟨next, after⟩ := found
    have hgives := hread.gives hv hafter hfield
    obtain ⟨-, rfl⟩ := hgives.eq hafter hfield
    dsimp only
    constructor
    · exact fun h => ⟨next, hgives, h⟩
    · rintro ⟨next', hgives', h⟩
      obtain rfl := hgives.unique hgives'
      exact h

theorem readPositions_end (hgap : IsBlanks gap) :
    schema.readPositions fields position acc (gap ++ byte ']' :: rest) = .ok (result, left) ↔
      Fills fields acc [] result ∧ left = rest := by
  induction fields generalizing position with
  | nil =>
    rw [readPositions, closeList_eq_ok_iff.2 (skipBlanks_gap hgap (by decide) rest)]
    constructor
    · intro h
      obtain ⟨rfl, rfl⟩ := Prod.mk.inj (Except.ok.inj h)
      exact ⟨.done acc, rfl⟩
    · rintro ⟨hfills, rfl⟩
      cases hfills
      rfl
  | cons field fields ih =>
    rw [readPositions, nextElement?_gap_end hgap]
    dsimp only
    cases hoptional : field.optional with
    | false =>
      simp only [Bool.false_eq_true, if_false, reduceCtorEq, false_iff]
      rintro ⟨hfills, -⟩
      cases hfills with
      | absent hother =>
        rw [hoptional] at hother
        cases hother
    | true =>
      rw [if_pos rfl, ih]
      constructor
      · exact fun h => ⟨.absent hoptional h.1, h.2⟩
      · rintro ⟨hfills, rfl⟩
        cases hfills with
        | absent _ tail => exact ⟨tail, rfl⟩

theorem readPositions_more (hread : ∀ f ∈ fields, ∀ acc, ReadsValues (f.read acc))
    (hpadded : ∀ i ∈ items, i.IsPadded) (hvalues : ∀ i ∈ items, IsValue i.value)
    (hgap : IsBlanks gap) :
    schema.readPositions fields (position + 1) acc
        (gap ++ (moreParts (items.map Item.text) ++ byte ']' :: rest)) = .ok (result, left) ↔
      Fills fields acc items result ∧ left = rest := by
  induction items generalizing gap fields acc position with
  | nil => exact readPositions_end hgap
  | cons i items ih =>
    have hi := hpadded i List.mem_cons_self
    have hv := hvalues i List.mem_cons_self
    rw [List.map_cons, moreParts_cons, List.cons_append, List.append_assoc]
    cases fields with
    | nil =>
      have hclose : ∀ after, closeList (gap ++ byte ',' :: (i.text ++
          (moreParts (items.map Item.text) ++ byte ']' :: rest))) ≠ .ok after := by
        intro after h
        rw [closeList_eq_ok_iff, skipBlanks_gap hgap (by decide)] at h
        exact absurd (List.cons.inj h).1 (by decide)
      rw [readPositions]
      constructor
      · intro h
        obtain ⟨after, hok, -⟩ := map_eq_ok_iff.1 h
        exact absurd hok (hclose after)
      · rintro ⟨hfills, -⟩
        cases hfills
    | cons field fields =>
      have hlater : (position + 1 == 0) = false := rfl
      rw [readPositions_element (hread field List.mem_cons_self acc) hi hv
        (ends_moreParts _ not_continues_bracket rest) hlater (nextElement?_gap_comma hgap hi hv _),
        fills_cons_iff]
      simp only [ih (fun f hf => hread f (List.mem_cons_of_mem field hf))
        (fun j hj => hpadded j (List.mem_cons_of_mem i hj))
        (fun j hj => hvalues j (List.mem_cons_of_mem i hj)) hi.after]
      tauto

/-- A list is read exactly as its elements are. -/
theorem readPositions_eq_ok_iff (hread : ∀ f ∈ fields, ∀ acc, ReadsValues (f.read acc))
    (h : IsListOf items (byte '[' :: bytes)) :
    schema.readPositions fields 0 acc (bytes ++ rest) = .ok (result, left) ↔
      Fills fields acc items result ∧ left = rest := by
  cases items with
  | nil =>
    obtain ⟨gap, hgap, heq⟩ := h.text.exists_gap
    obtain rfl := (List.cons.inj heq).2
    rw [List.append_assoc, List.singleton_append]
    exact readPositions_end hgap
  | cons i items =>
    obtain rfl := (List.cons.inj h.text.eq_of_cons).2
    have hi := h.padded i List.mem_cons_self
    have hv := h.values i List.mem_cons_self
    rw [List.append_assoc, List.append_assoc, List.singleton_append]
    cases fields with
    | nil =>
      obtain ⟨b, more, -, hfirst, hb⟩ := hi.skipBlanks_text hv
        (moreParts (items.map Item.text) ++ byte ']' :: rest)
      rw [readPositions]
      constructor
      · intro h
        obtain ⟨after, hok, -⟩ := map_eq_ok_iff.1 h
        rw [closeList_eq_ok_iff, hfirst] at hok
        exact absurd (List.cons.inj hok).1 hb
      · rintro ⟨hfills, -⟩
        cases hfills
    | cons field fields =>
      have hfirst : (0 == 0) = true := rfl
      rw [readPositions_element (hread field List.mem_cons_self acc) hi hv
        (ends_moreParts _ not_continues_bracket rest) hfirst (nextElement?_text hi hv _),
        fills_cons_iff]
      simp only [readPositions_more (fun f hf => hread f (List.mem_cons_of_mem field hf))
        (fun j hj => h.padded j (List.mem_cons_of_mem i hj))
        (fun j hj => h.values j (List.mem_cons_of_mem i hj)) hi.after]
      tauto

/-! ### Records -/

/-- What is done with the value of a member: a known one is read into its field, once, and any other
is passed over. -/
def memberValue (schema : Schema σ) (name : String) (acc : σ) : Reader σ :=
  match schema.fields.find? (·.key == name) with
  | some field => if field.isSet acc then fun _ => .error (.duplicateField name) else field.read acc
  | none => fun bytes => (skipValue bytes).map (acc, ·)

/-- Each field reads a value. -/
def ReadsFields (schema : Schema σ) : Prop := ∀ f ∈ schema.fields, ∀ acc, ReadsValues (f.read acc)

theorem readsAfterColon_readMember (hs : schema.ReadsFields) :
    ReadsAfterColon schema.readMember schema.memberValue where
  colon hgap name acc bytes := by
    rw [readMember, memberValue, readColon_gap hgap]
    cases schema.fields.find? (·.key == name) with
    | none => rfl
    | some field => cases hset : field.isSet acc <;> simp [hset]
  values name acc := by
    rw [memberValue]
    cases hfield : schema.fields.find? (·.key == name) with
    | none => exact readsValues_skipValue acc
    | some field =>
      dsimp only
      split
      · refine ⟨fun _ _ _ => rfl, fun _ _ h => ?_⟩
        cases h
      · exact hs field (List.mem_of_find?_eq_some hfield) acc

theorem read_skipBlanks (hgap : IsBlanks gap) (bytes : List UInt8) :
    schema.read (gap ++ bytes) = schema.read bytes := by
  rw [read, read, skipBlanks_append hgap]

theorem read_bracket (schema : Schema σ) (bytes : List UInt8) :
    schema.read (byte '[' :: bytes) = schema.readPositions schema.fields 0 schema.start bytes :=
  rfl

theorem read_brace_eq_ok_iff : schema.read (byte '\x7b' :: bytes) = .ok (result, left) ↔
    readMembers schema.readMember (bytes.length + 1) true schema.start bytes = .ok (result, left) ∧
      schema.missing? result = none := by
  rw [read, skipBlanks_cons (by decide)]
  dsimp only
  rw [if_neg (by decide), if_pos rfl]
  cases readMembers schema.readMember (bytes.length + 1) true schema.start bytes with
  | error e => simp
  | ok found =>
    obtain ⟨acc, after⟩ := found
    cases hmissing : schema.missing? acc with
    | none =>
      simp only [hmissing, Except.ok.injEq, Prod.mk.injEq]
      constructor
      · rintro ⟨rfl, rfl⟩
        exact ⟨⟨rfl, rfl⟩, hmissing⟩
      · exact And.left
    | some key =>
      simp only [hmissing, Except.ok.injEq, Prod.mk.injEq, reduceCtorEq, false_iff]
      rintro ⟨⟨rfl, -⟩, hnone⟩
      rw [hmissing] at hnone
      cases hnone

theorem read_object_iff (hs : schema.ReadsFields) (h : IsObjectOf members v) :
    schema.read (v ++ rest) = .ok (result, left) ↔
      (Passes schema.memberValue schema.start members result ∧ schema.missing? result = none) ∧
        left = rest := by
  obtain ⟨bytes, rfl⟩ := h.text.exists_cons
  rw [List.cons_append, read_brace_eq_ok_iff,
    readMembers_eq_ok_iff (readsAfterColon_readMember hs) h]
  tauto

theorem read_list_iff (hs : schema.ReadsFields) (h : IsListOf items v) :
    schema.read (v ++ rest) = .ok (result, left) ↔
      Fills schema.fields schema.start items result ∧ left = rest := by
  obtain ⟨bytes, rfl⟩ := h.text.exists_cons
  rw [List.cons_append, read_bracket, readPositions_eq_ok_iff hs h]

theorem gives_read_object_iff (hs : schema.ReadsFields) (h : IsObjectOf members v) :
    Gives schema.read v result ↔
      Passes schema.memberValue schema.start members result ∧ schema.missing? result = none :=
  gives_iff fun _ _ _ => read_object_iff hs h

theorem gives_read_list_iff (hs : schema.ReadsFields) (h : IsListOf items v) :
    Gives schema.read v result ↔ Fills schema.fields schema.start items result :=
  gives_iff fun _ _ _ => read_list_iff hs h

theorem read_eq_error (hblank : isBlank b = false) (hbracket : b ≠ byte '[') (hbrace : b ≠ byte '\x7b')
    (bytes : List UInt8) : schema.read (b :: bytes) = .error (mismatch schema.title (b :: bytes)) := by
  rw [read, skipBlanks_cons hblank]
  dsimp only
  rw [if_neg hbracket, if_neg hbrace]

theorem readsValues_read (hs : schema.ReadsFields) : ReadsValues schema.read where
  blanks hgap _ _ := read_skipBlanks hgap _
  gives hv hends h := by
    cases hv.hasShape with
    | text _ heq =>
      subst heq
      rw [List.cons_append, read_eq_error (by decide) (by decide) (by decide)] at h
      cases h
    | list hlist => exact (gives_read_list_iff hs hlist).2 ((read_list_iff hs hlist).1 h).1
    | object hobject => exact (gives_read_object_iff hs hobject).2 ((read_object_iff hs hobject).1 h).1
    | scalar heq hblank _ hbracket hbrace =>
      subst heq
      rw [List.cons_append, read_eq_error hblank hbracket hbrace] at h
      cases h

end Schema

/-! ### Maps of texts -/

/-- The map with a text under that name, in place of any before. -/
def withText (texts : List (String × String)) (name s : String) : List (String × String) :=
  texts.filter (·.1 != name) ++ [(name, s)]

/-- What is done with the value of a member of a map of texts. -/
def textValue (name : String) (acc : List (String × String)) : Reader (List (String × String)) :=
  fun bytes => (readText bytes).map fun (s, left) => (withText acc name s, left)

variable {members : List Member} {texts acc next : List (String × String)} {name : String}

theorem gives_textValue_iff (hv : IsValue v) :
    Gives (textValue name acc) v next ↔ ∃ s, Gives readText v s ∧ withText acc name s = next := by
  constructor
  · exact readsValues_readText.exists_of_map (withText acc name) hv
  · rintro ⟨s, hs, rfl⟩
    exact hs.map (withText acc name)

theorem readsAfterColon_putText : ReadsAfterColon putText textValue where
  colon hgap name acc bytes := by
    rw [putText, readColon_gap hgap]
    rfl
  values name acc := readsValues_readText.map (withText acc name)

theorem readTextMap_object_iff (h : IsObjectOf members v) :
    readTextMap (v ++ rest) = .ok (texts, left) ↔ Passes textValue [] members texts ∧ left = rest := by
  obtain ⟨bytes, rfl⟩ := h.text.exists_cons
  have hmap : readTextMap (byte '\x7b' :: (bytes ++ rest)) =
      readMembers putText ((bytes ++ rest).length + 1) true [] (bytes ++ rest) := rfl
  rw [List.cons_append, hmap, readMembers_eq_ok_iff readsAfterColon_putText h]

theorem gives_readTextMap_iff (h : IsObjectOf members v) :
    Gives readTextMap v texts ↔ Passes textValue [] members texts :=
  gives_iff fun _ _ _ => readTextMap_object_iff h

theorem readTextMap_eq_error (hblank : isBlank b = false) (hbrace : b ≠ byte '\x7b')
    (bytes : List UInt8) : readTextMap (b :: bytes) = .error (mismatch "a map" (b :: bytes)) := by
  rw [readTextMap, skipBlanks_cons hblank]
  exact if_neg hbrace

theorem readsValues_readTextMap : ReadsValues readTextMap where
  blanks hgap _ _ := by rw [readTextMap, readTextMap, skipBlanks_append hgap]
  gives hv hends h := by
    cases hv.hasShape with
    | text _ heq =>
      subst heq
      rw [List.cons_append, readTextMap_eq_error (by decide) (by decide)] at h
      cases h
    | list hlist =>
      obtain ⟨more, rfl⟩ := hlist.text.exists_cons
      rw [List.cons_append, readTextMap_eq_error (by decide) (by decide)] at h
      cases h
    | object hobject =>
      exact (gives_readTextMap_iff hobject).2 ((readTextMap_object_iff hobject).1 h).1
    | scalar heq hblank _ _ hbrace =>
      subst heq
      rw [List.cons_append, readTextMap_eq_error hblank hbrace] at h
      cases h

end LogRelay.Json
