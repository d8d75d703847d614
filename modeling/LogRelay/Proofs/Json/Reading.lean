import LogRelay.Proofs.Json.Spelling

/-!
What a reader makes of a value does not depend on what follows it (`ReadsValues`). Of an object the
reader sees one member after the other (`Passes`), of a list one element after the other (`Fills`);
where in the text they stand and what blanks are between them is lost.
-/

namespace LogRelay.Json

variable {α β σ : Type} {read : Reader α} {v gap bytes rest left more : List UInt8} {x : α} {b : UInt8}

/-- The value is read as `x`, whatever follows it. -/
def Gives (read : Reader α) (v : List UInt8) (x : α) : Prop :=
  ∀ rest, Ends rest → read (v ++ rest) = .ok (x, rest)

/-- Blanks before a value are passed over, and a value that is read at one place is read everywhere. -/
structure ReadsValues (read : Reader α) : Prop where
  blanks : ∀ {gap v rest}, IsBlanks gap → IsValue v → Ends rest →
    read (gap ++ (v ++ rest)) = read (v ++ rest)
  gives : ∀ {v rest x left}, IsValue v → Ends rest → read (v ++ rest) = .ok (x, left) →
    Gives read v x

theorem Gives.eq {y : α} (h : Gives read v x) (hends : Ends rest)
    (hread : read (v ++ rest) = .ok (y, left)) : x = y ∧ rest = left := by
  rw [h rest hends] at hread
  exact Prod.mk.inj (Except.ok.inj hread)

theorem Gives.unique {y : α} (h : Gives read v x) (h' : Gives read v y) : x = y :=
  (h.eq ends_nil (h' [] ends_nil)).1

theorem Gives.map (h : Gives read v x) (f : α → β) :
    Gives (fun bytes => (read bytes).map fun (x, left) => (f x, left)) v (f x) := by
  intro rest hends
  dsimp only
  rw [h rest hends]
  rfl

theorem ReadsValues.map (h : ReadsValues read) (f : α → β) :
    ReadsValues fun bytes => (read bytes).map fun (x, left) => (f x, left) where
  blanks hgap hv hends := by
    dsimp only
    rw [h.blanks hgap hv hends]
  gives hv hends hread := by
    obtain ⟨⟨x, left⟩, hx, heq⟩ := map_eq_ok_iff.1 hread
    obtain ⟨rfl, rfl⟩ := Prod.mk.inj heq
    exact (h.gives hv hends hx).map f

theorem ReadsValues.exists_of_map (h : ReadsValues read) (f : α → β) {y : β} (hv : IsValue v)
    (hgives : Gives (fun bytes => (read bytes).map fun (x, left) => (f x, left)) v y) :
    ∃ x, Gives read v x ∧ f x = y := by
  obtain ⟨⟨x, left⟩, hx, heq⟩ := map_eq_ok_iff.1 (hgives [] ends_nil)
  exact ⟨x, h.gives hv ends_nil hx, (Prod.mk.inj heq).1⟩

theorem ReadsValues.read_item (h : ReadsValues read) {i : Item} (hi : i.IsPadded)
    (hv : IsValue i.value) (hends : Ends rest) :
    read (i.text ++ rest) = read (i.value ++ (i.after ++ rest)) := by
  rw [Item.text, List.append_assoc, List.append_assoc, h.blanks hi.before hv]
  exact ends_blanks hi.after hends

/-- A reader whose successes on the value all say the same. -/
theorem gives_iff {P : α → Prop}
    (h : ∀ rest x left, read (v ++ rest) = .ok (x, left) ↔ P x ∧ left = rest) :
    Gives read v x ↔ P x := by
  constructor
  · intro hgives
    exact ((h [] x []).1 (hgives [] ends_nil)).1
  · intro hx rest _
    exact (h rest x rest).2 ⟨hx, rfl⟩

/-! ### Texts and values nobody asks for -/

/-- The four shapes of a value that readers tell apart. -/
inductive HasShape (v : List UInt8) : Prop
  | text {body : List UInt8} (h : IsLiteral body) (heq : v = byte '"' :: (body ++ [byte '"']))
  | list {items : List Item} (h : IsListOf items v)
  | object {members : List Member} (h : IsObjectOf members v)
  | scalar {b : UInt8} {more : List UInt8} (heq : v = b :: more) (hblank : isBlank b = false)
      (hquote : b ≠ byte '"') (hbracket : b ≠ byte '[') (hbrace : b ≠ byte '\x7b')

theorem IsValue.hasShape (h : IsValue v) : HasShape v := by
  cases h with
  | null | yes | no => exact .scalar rfl (by decide) (by decide) (by decide) (by decide)
  | number h =>
    cases h with
    | positive h =>
      obtain ⟨d, more, rfl, hd⟩ := h.exists_cons
      exact .scalar rfl (isBlank_of_isDigit hd) (isDigit_of_ne hd (by decide))
        (isDigit_of_ne hd (by decide)) (isDigit_of_ne hd (by decide))
    | negative => exact .scalar rfl (by decide) (by decide) (by decide) (by decide)
  | text h => exact .text h rfl
  | list text padded values => exact .list ⟨text, padded, values⟩
  | object text framed values => exact .object ⟨text, framed, values⟩

theorem readText_eq_error (hblank : isBlank b = false) (hquote : b ≠ byte '"')
    (bytes : List UInt8) : readText (b :: bytes) = .error (mismatch "a string" (b :: bytes)) := by
  rw [readText, skipBlanks_cons hblank]
  exact if_neg hquote

theorem gives_readText {body : List UInt8} {s : String} (h : Spells body (utf8 s.toList)) :
    Gives readText (byte '"' :: (body ++ [byte '"'])) s := by
  intro rest _
  rw [List.cons_append, List.append_assoc]
  exact readLiteral_append h rest

theorem readsValues_readText : ReadsValues readText where
  blanks hgap _ _ := by rw [readText, readText, skipBlanks_append hgap]
  gives hv hends h := by
    cases hv.hasShape with
    | text hbody heq =>
      subst heq
      rw [List.cons_append, List.append_assoc] at h
      exact gives_readText (hbody.spells_of_readLiteral h).1
    | list hlist =>
      obtain ⟨more, rfl⟩ := hlist.text.exists_cons
      rw [List.cons_append, readText_eq_error (by decide) (by decide)] at h
      cases h
    | object hobject =>
      obtain ⟨more, rfl⟩ := hobject.text.exists_cons
      rw [List.cons_append, readText_eq_error (by decide) (by decide)] at h
      cases h
    | scalar heq hblank hquote =>
      subst heq
      rw [List.cons_append, readText_eq_error hblank hquote] at h
      cases h

theorem gives_skipValue (hv : IsValue v) (x : α) :
    Gives (fun bytes => (skipValue bytes).map (x, ·)) v x := by
  intro rest hends
  have hskip : skipValue ([] ++ (v ++ rest)) = .ok rest := hv.skipValue_append nofun hends
  rw [List.nil_append] at hskip
  simp only [hskip]
  rfl

theorem readsValues_skipValue (x : α) :
    ReadsValues fun bytes => (skipValue bytes).map (x, ·) where
  blanks hgap hv hends := by
    rw [hv.skipValue_append hgap hends]
    exact (gives_skipValue hv x _ hends).symm
  gives hv hends h := by
    obtain ⟨rfl, -⟩ := (gives_skipValue hv x).eq hends h
    exact gives_skipValue hv x

/-! ### Members of an object -/

/-- What is done with a member comes after its colon, and reads a value. -/
structure ReadsAfterColon (member value : String → σ → Reader σ) : Prop where
  colon : ∀ {gap}, IsBlanks gap → ∀ name acc bytes,
    member name acc (gap ++ byte ':' :: bytes) = value name acc bytes
  values : ∀ name acc, ReadsValues (value name acc)

/-- Reading the members one after the other takes `acc` to `result`. -/
inductive Passes (value : String → σ → Reader σ) : σ → List Member → σ → Prop
  | nil (acc : σ) : Passes value acc [] acc
  | cons {acc next result : σ} {m : Member} {members : List Member} {name : String}
      (hname : m.Names name) (head : Gives (value name acc) m.item.value next)
      (tail : Passes value next members result) : Passes value acc (m :: members) result

theorem readColon_gap (hgap : IsBlanks gap) (bytes : List UInt8) :
    readColon (gap ++ byte ':' :: bytes) = .ok bytes := by
  rw [readColon, skipBlanks_gap hgap (by decide)]
  rfl

/-- The bytes of a member after its opening quote. -/
def Member.fromKey (m : Member) (rest : List UInt8) : List UInt8 :=
  m.key ++ byte '"' :: (m.gap ++ byte ':' :: (m.item.text ++ rest))

theorem Member.text_append (m : Member) (rest : List UInt8) :
    m.text ++ rest = m.before ++ byte '"' :: m.fromKey rest := by
  simp only [Member.text, Member.fromKey, List.append_assoc, List.cons_append]

variable {member value : String → σ → Reader σ} {acc next result : σ} {m : Member}
  {members : List Member} {name : String} {fuel : Nat} {first : Bool}

theorem nextKey?_text (hm : m.IsFramed) (rest : List UInt8) :
    nextKey? true (m.text ++ rest) = .ok (some (m.fromKey rest)) := by
  rw [m.text_append, nextKey?, skipBlanks_gap hm.before (by decide)]
  rfl

theorem nextKey?_gap_comma (hgap : IsBlanks gap) (hm : m.IsFramed) (rest : List UInt8) :
    nextKey? false (gap ++ byte ',' :: (m.text ++ rest)) = .ok (some (m.fromKey rest)) := by
  rw [m.text_append, nextKey?, skipBlanks_gap hgap (by decide)]
  dsimp only
  rw [if_neg (by decide), if_neg (by decide), if_pos rfl, skipBlanks_gap hm.before (by decide)]
  rfl

theorem nextKey?_gap_end (hgap : IsBlanks gap) (rest : List UInt8) :
    nextKey? first (gap ++ byte '\x7d' :: rest) = .ok none := by
  rw [nextKey?, skipBlanks_gap hgap (by decide)]
  rfl

theorem passes_nil_iff : Passes value acc [] result ↔ result = acc := by
  constructor
  · rintro ⟨⟩
    rfl
  · rintro rfl
    exact .nil _

theorem passes_cons_iff : Passes value acc (m :: members) result ↔ ∃ name next, m.Names name ∧
    Gives (value name acc) m.item.value next ∧ Passes value next members result := by
  constructor
  · rintro (_ | ⟨hname, head, tail⟩)
    exact ⟨_, _, hname, head, tail⟩
  · rintro ⟨name, next, hname, head, tail⟩
    exact .cons hname head tail

theorem readMembers_end (hgap : IsBlanks gap) :
    readMembers member (fuel + 1) first acc (gap ++ byte '\x7d' :: rest) = .ok (result, left) ↔
      Passes value acc [] result ∧ left = rest := by
  rw [readMembers, nextKey?_gap_end hgap, passes_nil_iff]
  dsimp only
  rw [closeObject, skipBlanks_gap hgap (by decide)]
  constructor
  · rintro ⟨⟩
    exact ⟨rfl, rfl⟩
  · rintro ⟨rfl, rfl⟩
    rfl

theorem Member.Names.unique {name' : String} (h : m.Names name) (h' : m.Names name') :
    name = name' := by
  have hread := readLiteral_append h []
  rw [readLiteral_append h' []] at hread
  exact (Prod.mk.inj (Except.ok.inj hread)).1.symm

/-- One member, whose name is read and then its value. -/
theorem readMembers_member_iff (hr : ReadsAfterColon member value) (hm : m.IsFramed)
    (hv : IsValue m.item.value) (hends : Ends more)
    (hnext : nextKey? first bytes = .ok (some (m.fromKey more))) :
    readMembers member (fuel + 1) first acc bytes = .ok (result, left) ↔
      ∃ name next, m.Names name ∧ Gives (value name acc) m.item.value next ∧
        readMembers member fuel false next (m.item.after ++ more) = .ok (result, left) := by
  have hafter := ends_blanks hm.item.after hends
  rw [readMembers, hnext]
  dsimp only
  rw [Member.fromKey]
  cases hkey : readLiteral (m.key ++ byte '"' :: (m.gap ++ byte ':' :: (m.item.text ++ more))) with
  | error e =>
    simp only [reduceCtorEq, false_iff]
    rintro ⟨name, next, hname, -⟩
    rw [readLiteral_append hname] at hkey
    cases hkey
  | ok found =>
    obtain ⟨name, after⟩ := found
    obtain ⟨hname, rfl⟩ := hm.key.spells_of_readLiteral hkey
    dsimp only
    rw [hr.colon hm.gap, (hr.values name acc).read_item hm.item hv hends]
    cases hvalue : value name acc (m.item.value ++ (m.item.after ++ more)) with
    | error e =>
      simp only [reduceCtorEq, false_iff]
      rintro ⟨name', next, hname', hgives, -⟩
      obtain rfl := Member.Names.unique hname hname'
      rw [hgives _ hafter] at hvalue
      cases hvalue
    | ok found =>
      obtain ⟨next, after⟩ := found
      have hgives := (hr.values name acc).gives hv hafter hvalue
      obtain ⟨-, rfl⟩ := hgives.eq hafter hvalue
      dsimp only
      constructor
      · exact fun h => ⟨name, next, hname, hgives, h⟩
      · rintro ⟨name', next', hname', hgives', h⟩
        obtain rfl := Member.Names.unique hname hname'
        obtain rfl := hgives.unique hgives'
        exact h

theorem ends_moreParts (parts : List (List UInt8)) (hb : ¬ Continues b) (rest : List UInt8) :
    Ends (moreParts parts ++ b :: rest) := by
  cases parts with
  | nil => exact ends_cons hb rest
  | cons part parts => exact ends_cons not_continues_comma _

theorem readMembers_more (hr : ReadsAfterColon member value) (hframed : ∀ m ∈ members, m.IsFramed)
    (hvalues : ∀ m ∈ members, IsValue m.item.value) (hgap : IsBlanks gap)
    (hfuel : members.length < fuel) :
    readMembers member fuel false acc
        (gap ++ (moreParts (members.map Member.text) ++ byte '\x7d' :: rest)) = .ok (result, left) ↔
      Passes value acc members result ∧ left = rest := by
  induction members generalizing gap fuel acc with
  | nil =>
    obtain ⟨fuel, rfl⟩ := Nat.exists_eq_succ_of_ne_zero (Nat.ne_of_gt hfuel)
    exact readMembers_end hgap
  | cons m members ih =>
    obtain ⟨fuel, rfl⟩ := Nat.exists_eq_succ_of_ne_zero (Nat.ne_of_gt (Nat.zero_lt_of_lt hfuel))
    have hm := hframed m List.mem_cons_self
    rw [List.map_cons, moreParts_cons, List.cons_append, List.append_assoc,
      readMembers_member_iff hr hm (hvalues m List.mem_cons_self)
        (ends_moreParts _ not_continues_brace rest) (nextKey?_gap_comma hgap hm _), passes_cons_iff]
    simp only [ih (fun n hn => hframed n (List.mem_cons_of_mem m hn))
      (fun n hn => hvalues n (List.mem_cons_of_mem m hn)) hm.item.after (Nat.lt_of_succ_lt_succ hfuel)]
    tauto

theorem length_le_moreParts (parts : List (List UInt8)) : parts.length ≤ (moreParts parts).length := by
  induction parts with
  | nil => exact Nat.le_refl 0
  | cons part parts ih =>
    simp only [moreParts_cons, List.length_cons, List.length_append]
    omega

/-- An object is read exactly as its members are. -/
theorem readMembers_eq_ok_iff (hr : ReadsAfterColon member value)
    (h : IsObjectOf members (byte '\x7b' :: bytes)) :
    readMembers member ((bytes ++ rest).length + 1) true acc (bytes ++ rest) = .ok (result, left) ↔
      Passes value acc members result ∧ left = rest := by
  cases members with
  | nil =>
    obtain ⟨gap, hgap, heq⟩ := h.text.exists_gap
    obtain rfl := (List.cons.inj heq).2
    rw [List.append_assoc, List.singleton_append]
    exact readMembers_end hgap
  | cons m members =>
    obtain rfl := (List.cons.inj h.text.eq_of_cons).2
    have hm := h.framed m List.mem_cons_self
    have hbytes : m.text ++ (moreParts (members.map Member.text) ++ [byte '\x7d']) ++ rest =
        m.text ++ (moreParts (members.map Member.text) ++ byte '\x7d' :: rest) := by
      simp only [List.append_assoc, List.singleton_append]
    have hparts := length_le_moreParts (members.map Member.text)
    rw [List.length_map] at hparts
    have hfuel : members.length <
        (m.text ++ (moreParts (members.map Member.text) ++ byte '\x7d' :: rest)).length := by
      simp only [List.length_append, List.length_cons]
      omega
    rw [hbytes, readMembers_member_iff hr hm (h.values m List.mem_cons_self)
      (ends_moreParts _ not_continues_brace rest) (nextKey?_text hm _), passes_cons_iff]
    simp only [readMembers_more hr (fun n hn => h.framed n (List.mem_cons_of_mem m hn))
      (fun n hn => h.values n (List.mem_cons_of_mem m hn)) hm.item.after hfuel]
    tauto

end LogRelay.Json
