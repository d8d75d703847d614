import LogRelay.Proofs.Json.Spelling

/-!
Written lists of objects are read element by element, and written texts can be passed over.
-/

namespace LogRelay.Json

open Value (write writeItems)

/-! ### Lists of objects -/

section Elements

variable {α β : Type} {element : Reader β} {members : α → List (String × Value)} {result : α → β}
  {as : List α}

/-- The elements of a list of objects. -/
def objects (members : α → List (String × Value)) (as : List α) : List Value :=
  as.map fun a => .object (members a)

/-- Taking one element to the end of those before it. -/
def putElement (element : Reader β) (acc : List β) : Reader (List β) := fun bytes =>
  (element bytes).map fun (x, left) => (acc ++ [x], left)

theorem utf8_item (ms : List (String × Value)) (more : List Char) (rest : List UInt8) :
    utf8 ((Value.object ms).write ++ more) ++ rest =
      utf8 (Value.object ms).write ++ (utf8 more ++ rest) := by
  rw [utf8_append, List.append_assoc]

theorem nextElement?_first (ms : List (String × Value)) (rest : List UInt8) :
    nextElement? true (utf8 (Value.object ms).write ++ rest) =
      .ok (some (utf8 (Value.object ms).write ++ rest)) := by
  rw [utf8_object, nextElement?, skipBlanks_cons (by decide)]
  rfl

theorem nextElement?_comma (ms : List (String × Value)) (rest : List UInt8) :
    nextElement? false (byte ',' :: (utf8 (Value.object ms).write ++ rest)) =
      .ok (some (utf8 (Value.object ms).write ++ rest)) := by
  rw [utf8_object, nextElement?, skipBlanks_cons (by decide)]
  dsimp only
  rw [if_neg (by decide), if_neg (by decide), if_pos rfl, skipBlanks_cons (by decide)]
  rfl

/-- One element, which the reader is at. -/
theorem readElements_element {fuel : Nat} {first : Bool} {acc : List β} {a : α}
    {bytes rest : List UInt8}
    (hnext : nextElement? first bytes = .ok (some (utf8 (Value.object (members a)).write ++ rest)))
    (h : element (utf8 (Value.object (members a)).write ++ rest) = .ok (result a, rest)) :
    readElements (putElement element) (fuel + 1) first acc bytes =
      readElements (putElement element) fuel false (acc ++ [result a]) rest := by
  rw [readElements, hnext]
  dsimp only
  rw [putElement, h]
  rfl

theorem readElements_writeItems {fuel : Nat} {acc : List β}
    (h : ∀ a ∈ as, ∀ rest, element (utf8 (Value.object (members a)).write ++ rest) =
      .ok (result a, rest))
    (hfuel : as.length < fuel) (rest : List UInt8) :
    readElements (putElement element) fuel false acc
        (utf8 (writeItems (objects members as)) ++ byte ']' :: rest) =
      .ok (acc ++ as.map result, rest) := by
  induction as generalizing fuel acc with
  | nil =>
    obtain ⟨fuel, rfl⟩ := Nat.exists_eq_succ_of_ne_zero (Nat.ne_of_gt hfuel)
    rw [List.map_nil, List.append_nil]
    rfl
  | cons a as ih =>
    obtain ⟨fuel, rfl⟩ := Nat.exists_eq_succ_of_ne_zero (Nat.ne_of_gt (Nat.zero_lt_of_lt hfuel))
    have hcomma : utf8 (writeItems (objects members (a :: as))) ++ byte ']' :: rest =
        byte ',' :: (utf8 (Value.object (members a)).write ++
          (utf8 (writeItems (objects members as)) ++ byte ']' :: rest)) := by
      rw [objects, List.map_cons, writeItems, utf8_cons_of_ascii (by decide), List.cons_append,
        utf8_item, objects]
    rw [hcomma, readElements_element (nextElement?_comma _ _) (h a List.mem_cons_self _),
      ih (fun a ha => h a (List.mem_cons_of_mem _ ha)) (Nat.lt_of_succ_lt_succ hfuel),
      List.append_assoc, List.map_cons, List.singleton_append]

/-- The characters of a list after its opening bracket. -/
def listTail : List Value → List Char
  | [] => [']']
  | x :: xs => x.write ++ (writeItems xs ++ [']'])

theorem write_list (items : List Value) : (Value.list items).write = '[' :: listTail items := by
  cases items with
  | nil => rw [write, listTail]
  | cons x xs => simp only [write, listTail, List.append_assoc]

theorem length_le_writeItems (items : List Value) : items.length ≤ (writeItems items).length := by
  induction items with
  | nil => exact Nat.zero_le _
  | cons x xs ih =>
    rw [writeItems, List.length_cons, List.length_cons, List.length_append]
    omega

theorem length_le_listTail (items : List Value) : items.length ≤ (listTail items).length := by
  cases items with
  | nil => exact Nat.zero_le _
  | cons x xs =>
    have htail := length_le_writeItems xs
    simp only [listTail, List.length_append, List.length_cons, List.length_nil]
    omega

theorem readElements_listTail {fuel : Nat}
    (h : ∀ a ∈ as, ∀ rest, element (utf8 (Value.object (members a)).write ++ rest) =
      .ok (result a, rest))
    (hfuel : as.length < fuel) (rest : List UInt8) :
    readElements (putElement element) fuel true [] (utf8 (listTail (objects members as)) ++ rest) =
      .ok (as.map result, rest) := by
  obtain ⟨fuel, rfl⟩ := Nat.exists_eq_succ_of_ne_zero (Nat.ne_of_gt (Nat.zero_lt_of_lt hfuel))
  cases as with
  | nil => rfl
  | cons a as =>
    have hfirst : utf8 (listTail (objects members (a :: as))) ++ rest =
        utf8 (Value.object (members a)).write ++
          (utf8 (writeItems (objects members as)) ++ byte ']' :: rest) := by
      rw [objects, List.map_cons, listTail, utf8_item, utf8_append, List.append_assoc, objects]
      rfl
    rw [hfirst, readElements_element (nextElement?_first _ _) (h a List.mem_cons_self _),
      readElements_writeItems (fun a ha => h a (List.mem_cons_of_mem _ ha))
        (Nat.lt_of_succ_lt_succ hfuel), List.map_cons]
    rfl

/-- A list of objects is read in its order. -/
theorem readList_objects (h : ∀ a ∈ as, ∀ rest,
      element (utf8 (Value.object (members a)).write ++ rest) = .ok (result a, rest))
    (rest : List UInt8) :
    readList element (utf8 (Value.list (objects members as)).write ++ rest) =
      .ok (as.map result, rest) := by
  have hfuel : as.length < (utf8 (listTail (objects members as)) ++ rest).length + 1 := by
    have htail := length_le_listTail (objects members as)
    have hbytes := length_le_utf8 (listTail (objects members as))
    have hlength : (objects members as).length = as.length := List.length_map _
    rw [List.length_append]
    omega
  rw [write_list, utf8_cons_of_ascii (by decide), List.cons_append, readList,
    skipBlanks_cons (by decide)]
  dsimp only
  rw [if_pos rfl]
  exact readElements_listTail h hfuel rest

end Elements

/-! ### Passing over texts -/

theorem skipValue_text (s : String) (rest : List UInt8) :
    skipValue (utf8 (Value.text s).write ++ rest) = .ok rest := by
  rw [write, utf8_writeText, List.cons_append, List.append_assoc]
  exact (spells_escaped s).isLiteral.skipLiteral_append rest

/-- A member that no field is for is passed over if it is a text. -/
theorem readMember_unknown {σ : Type} {schema : Schema σ} {key : String} {acc : σ}
    (hfield : schema.fields.find? (·.key == key) = none) (s : String) (rest : List UInt8) :
    schema.readMember key acc (byte ':' :: (utf8 (Value.text s).write ++ rest)) = .ok (acc, rest) := by
  rw [Schema.readMember, hfield]
  dsimp only
  rw [readColon_colon]
  dsimp only
  rw [skipValue_text]
  rfl

/-- Texts under names that no field is for change nothing. -/
theorem readsMembers_unknown {σ : Type} {schema : Schema σ} {acc : σ}
    {texts : List (String × String)}
    (h : ∀ key ∈ texts.map Prod.fst, schema.fields.find? (·.key == key) = none) :
    ReadsMembers schema.readMember acc (textMembers texts) acc := by
  induction texts with
  | nil => exact .nil acc
  | cons entry texts ih =>
    refine .cons (readMember_unknown (h _ List.mem_cons_self) entry.2) (ih fun key hkey => ?_)
    exact h key (List.mem_cons_of_mem _ hkey)

end LogRelay.Json
