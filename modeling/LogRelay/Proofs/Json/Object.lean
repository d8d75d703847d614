import LogRelay.Proofs.Json.Literal

/-!
Written objects are read member by member. What a reader makes of a whole object follows from what it
makes of each member (`ReadsMembers`), for maps of texts and for records of known fields.
-/

namespace LogRelay.Json

open Value (write writeMembers)

variable {σ : Type}

/-- Reading the members one after the other takes `acc` to `result`, whatever follows them. -/
inductive ReadsMembers (member : String → σ → Reader σ) : σ → List (String × Value) → σ → Prop
  | nil (acc : σ) : ReadsMembers member acc [] acc
  | cons {acc next result : σ} {key : String} {value : Value} {members : List (String × Value)}
      (head : ∀ rest, member key acc (byte ':' :: (utf8 value.write ++ rest)) = .ok (next, rest))
      (more : ReadsMembers member next members result) :
      ReadsMembers member acc ((key, value) :: members) result

theorem ReadsMembers.append {member : String → σ → Reader σ} {acc mid result : σ}
    {first more : List (String × Value)} (hfirst : ReadsMembers member acc first mid)
    (hmore : ReadsMembers member mid more result) :
    ReadsMembers member acc (first ++ more) result := by
  induction hfirst with
  | nil => exact hmore
  | cons head _ ih => exact .cons head (ih hmore)

/-! ### Members -/

theorem skipBlanks_cons {b : UInt8} (h : isBlank b = false) (bytes : List UInt8) :
    skipBlanks (b :: bytes) = b :: bytes := by
  rw [skipBlanks, List.dropWhile_cons_of_neg (by simp [h])]

theorem readColon_colon (bytes : List UInt8) : readColon (byte ':' :: bytes) = .ok bytes := rfl

theorem nextKey?_first (bytes : List UInt8) :
    nextKey? true (byte '"' :: bytes) = .ok (some bytes) := rfl

theorem nextKey?_comma (bytes : List UInt8) :
    nextKey? false (byte ',' :: byte '"' :: bytes) = .ok (some bytes) := rfl

variable {member : String → σ → Reader σ} {acc result : σ} {members : List (String × Value)}

/-- One member, after its opening quote. -/
theorem readMembers_member {fuel : Nat} {first : Bool} {key : String} {value : Value} {next : σ}
    {bytes rest : List UInt8}
    (hkey : nextKey? first bytes = .ok (some (utf8 (key.toList.flatMap escapeChar) ++
      byte '"' :: byte ':' :: (utf8 value.write ++ rest))))
    (hvalue : member key acc (byte ':' :: (utf8 value.write ++ rest)) = .ok (next, rest)) :
    readMembers member (fuel + 1) first acc bytes = readMembers member fuel false next rest := by
  rw [readMembers, hkey]
  dsimp only
  rw [readLiteral_escaped]
  dsimp only
  rw [hvalue]

theorem utf8_member (key : String) (value : Value) (more : List Char) :
    utf8 (writeText key ++ ':' :: value.write ++ more) =
      byte '"' :: (utf8 (key.toList.flatMap escapeChar) ++
        byte '"' :: byte ':' :: (utf8 value.write ++ utf8 more)) := by
  rw [List.append_assoc, List.cons_append, utf8_append, utf8_writeText,
    utf8_cons_of_ascii (by decide), utf8_append, List.cons_append, List.append_assoc]
  rfl

theorem utf8_writeMembers_cons (key : String) (value : Value) (members : List (String × Value))
    (rest : List UInt8) :
    utf8 (writeMembers ((key, value) :: members)) ++ byte '\x7d' :: rest =
      byte ',' :: byte '"' :: (utf8 (key.toList.flatMap escapeChar) ++ byte '"' :: byte ':' ::
        (utf8 value.write ++ (utf8 (writeMembers members) ++ byte '\x7d' :: rest))) := by
  rw [writeMembers, utf8_cons_of_ascii (by decide), utf8_member]
  simp only [List.cons_append, List.append_assoc]

theorem readMembers_writeMembers {fuel : Nat} (h : ReadsMembers member acc members result)
    (hfuel : members.length < fuel) (rest : List UInt8) :
    readMembers member fuel false acc (utf8 (writeMembers members) ++ byte '\x7d' :: rest) =
      .ok (result, rest) := by
  induction h generalizing fuel with
  | nil acc =>
    obtain ⟨fuel, rfl⟩ := Nat.exists_eq_succ_of_ne_zero (Nat.ne_of_gt hfuel)
    rfl
  | @cons acc next result key value members head more ih =>
    obtain ⟨fuel, rfl⟩ := Nat.exists_eq_succ_of_ne_zero (Nat.ne_of_gt (Nat.zero_lt_of_lt hfuel))
    rw [utf8_writeMembers_cons, readMembers_member (nextKey?_comma _) (head _)]
    exact ih (Nat.lt_of_succ_lt_succ hfuel)

/-! ### Objects -/

/-- The characters of an object after its opening brace. -/
def objectTail : List (String × Value) → List Char
  | [] => ['\x7d']
  | (key, value) :: members =>
    writeText key ++ ':' :: value.write ++ (writeMembers members ++ ['\x7d'])

theorem utf8_objectTail_cons (key : String) (value : Value) (members : List (String × Value))
    (rest : List UInt8) :
    utf8 (objectTail ((key, value) :: members)) ++ rest =
      byte '"' :: (utf8 (key.toList.flatMap escapeChar) ++ byte '"' :: byte ':' ::
        (utf8 value.write ++ (utf8 (writeMembers members) ++ byte '\x7d' :: rest))) := by
  rw [objectTail, utf8_member]
  simp only [utf8_append, List.cons_append, List.append_assoc]
  rfl

theorem write_object (members : List (String × Value)) :
    (Value.object members).write = '\x7b' :: objectTail members := by
  cases members with
  | nil => rw [write, objectTail]
  | cons m members => simp only [write, objectTail, List.append_assoc, List.cons_append]

theorem length_le_writeMembers (members : List (String × Value)) :
    members.length ≤ (writeMembers members).length := by
  induction members with
  | nil => exact Nat.zero_le _
  | cons m members ih =>
    rw [writeMembers, List.length_cons, List.length_cons, List.length_append]
    omega

theorem length_le_objectTail (members : List (String × Value)) :
    members.length ≤ (objectTail members).length := by
  cases members with
  | nil => exact Nat.zero_le _
  | cons m members =>
    have htail := length_le_writeMembers members
    simp only [objectTail, List.length_append, List.length_cons]
    omega

/-- The fuel for an object is its length. -/
theorem length_lt_objectTail (members : List (String × Value)) (rest : List UInt8) :
    members.length < (utf8 (objectTail members) ++ rest).length + 1 := by
  have htail := length_le_objectTail members
  have hbytes := length_le_utf8 (objectTail members)
  rw [List.length_append]
  omega

theorem readMembers_objectTail {fuel : Nat} (h : ReadsMembers member acc members result)
    (hfuel : members.length < fuel) (rest : List UInt8) :
    readMembers member fuel true acc (utf8 (objectTail members) ++ rest) = .ok (result, rest) := by
  obtain ⟨fuel, rfl⟩ := Nat.exists_eq_succ_of_ne_zero (Nat.ne_of_gt (Nat.zero_lt_of_lt hfuel))
  cases h with
  | nil acc => rfl
  | @cons _ next _ key value members head more =>
    rw [utf8_objectTail_cons, readMembers_member (nextKey?_first _) (head _)]
    exact readMembers_writeMembers more (Nat.lt_of_succ_lt_succ hfuel) rest

theorem readMembers_object (h : ReadsMembers member acc members result) (rest : List UInt8) :
    readMembers member ((utf8 (objectTail members) ++ rest).length + 1) true acc
      (utf8 (objectTail members) ++ rest) = .ok (result, rest) :=
  readMembers_objectTail h (length_lt_objectTail members rest) rest

theorem utf8_object (members : List (String × Value)) (rest : List UInt8) :
    utf8 (Value.object members).write ++ rest =
      byte '\x7b' :: (utf8 (objectTail members) ++ rest) := by
  rw [write_object, utf8_cons_of_ascii (by decide), List.cons_append]

/-! ### Maps of texts -/

/-- The members of an object that holds texts under their names. -/
def textMembers (texts : List (String × String)) : List (String × Value) :=
  texts.map fun (key, s) => (key, .text s)

/-- Taking one member into a map of texts. -/
def putText (key : String) (acc : List (String × String)) : Reader (List (String × String)) :=
  fun bytes =>
    match readColon bytes with
    | .error e => .error e
    | .ok after => (readText after).map fun (value, left) =>
        (acc.filter (·.1 != key) ++ [(key, value)], left)

theorem readText_text (s : String) (rest : List UInt8) :
    readText (utf8 (Value.text s).write ++ rest) = .ok (s, rest) := by
  rw [write]
  exact readText_writeText s rest

theorem putText_new {key s : String} {acc : List (String × String)}
    (hnew : key ∉ acc.map Prod.fst) (rest : List UInt8) :
    putText key acc (byte ':' :: (utf8 (Value.text s).write ++ rest)) =
      .ok (acc ++ [(key, s)], rest) := by
  have hkept : acc.filter (·.1 != key) = acc := by
    refine List.filter_eq_self.2 fun entry hmem => ?_
    have hne : entry.1 ≠ key := fun heq => hnew (List.mem_map.2 ⟨entry, hmem, heq⟩)
    simpa using hne
  rw [putText, readColon_colon]
  dsimp only
  rw [readText_text, hkept]
  rfl

theorem readsMembers_texts {texts acc : List (String × String)}
    (hkeys : ((acc ++ texts).map Prod.fst).Nodup) :
    ReadsMembers putText acc (textMembers texts) (acc ++ texts) := by
  induction texts generalizing acc with
  | nil =>
    rw [List.append_nil]
    exact .nil acc
  | cons entry texts ih =>
    obtain ⟨key, s⟩ := entry
    have hsplit : acc ++ (key, s) :: texts = acc ++ [(key, s)] ++ texts := List.append_cons _ _ _
    have hnew : key ∉ acc.map Prod.fst := by
      rw [List.map_append, List.nodup_append] at hkeys
      exact fun hmem => hkeys.2.2 key hmem key List.mem_cons_self rfl
    rw [hsplit] at hkeys ⊢
    exact .cons (putText_new hnew) (ih hkeys)

theorem readTextMap_texts {texts : List (String × String)} (hkeys : (texts.map Prod.fst).Nodup)
    (rest : List UInt8) :
    readTextMap (utf8 (Value.object (textMembers texts)).write ++ rest) = .ok (texts, rest) := by
  have hreads : ReadsMembers putText [] (textMembers texts) ([] ++ texts) := readsMembers_texts hkeys
  rw [utf8_object]
  exact readMembers_object hreads rest

/-! ### Records of known fields -/

variable {schema : Schema σ}

theorem readMember_known {field : Field σ} {key : String} {value : Value} {next : σ}
    {rest : List UInt8} (hfield : schema.fields.find? (·.key == key) = some field)
    (hset : field.isSet acc = false)
    (hread : field.read acc (utf8 value.write ++ rest) = .ok (next, rest)) :
    schema.readMember key acc (byte ':' :: (utf8 value.write ++ rest)) = .ok (next, rest) := by
  rw [Schema.readMember, hfield]
  dsimp only
  rw [hset, readColon_colon]
  exact hread

theorem read_object (h : ReadsMembers schema.readMember schema.start members result)
    (hmissing : schema.missing? result = none) (rest : List UInt8) :
    schema.read (utf8 (Value.object members).write ++ rest) = .ok (result, rest) := by
  rw [utf8_object, Schema.read, skipBlanks_cons (by decide)]
  dsimp only
  rw [if_neg (by decide), if_pos rfl, readMembers_object h]
  dsimp only
  rw [hmissing]

end LogRelay.Json
