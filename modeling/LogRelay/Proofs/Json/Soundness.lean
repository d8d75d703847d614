import LogRelay.Proofs.Json.Spelling

/-!
Nothing but JSON is passed over: where the passing stops, a value ends that began there, with blanks
before it. The pieces of a value come first, then what stands between two brackets, and last the
three passing functions, by one induction on the fuel they share.
-/

namespace LogRelay.Json

variable {α β σ : Type} {P Q : List UInt8 → Prop} {bytes rest left gap more : List UInt8} {b : UInt8}
  {n fuel : Nat}

/-! ### Pieces -/

theorem exists_blanks (h : skipBlanks bytes = more) : ∃ gap, IsBlanks gap ∧ bytes = gap ++ more := by
  subst h
  exact ⟨bytes.takeWhile isBlank, fun _ hb => List.mem_takeWhile_imp hb,
    List.takeWhile_append_dropWhile.symm⟩

theorem eq_of_readWord {word : List Char} (h : readWord word bytes = .ok ((), left)) :
    bytes = word.map byte ++ left := by
  fun_induction readWord word bytes with
  | case1 bytes =>
    cases h
    rfl
  | case2 => cases h
  | case3 c word bytes ih => rw [ih h, List.map_cons, List.cons_append]
  | case4 => cases h

theorem exists_isEscape (h : escapeSize bytes = .ok n) :
    ∃ run rest, bytes = run ++ rest ∧ run.length = n ∧ IsEscape run := by
  cases bytes with
  | nil => cases h
  | cons b bytes =>
    rw [escapeSize] at h
    by_cases hu : b = byte 'u'
    · subst hu
      rw [if_pos rfl, map_eq_ok_iff] at h
      obtain ⟨m, hread, rfl⟩ := h
      obtain ⟨digits, rest, rfl, hdigits⟩ := isHex_of_readHex hread
      exact ⟨byte 'u' :: digits, rest, rfl, by rw [List.length_cons, hdigits.length], .hex hdigits⟩
    · rw [if_neg hu] at h
      cases hshort : shortEscape? b with
      | none => simp [hshort] at h
      | some c =>
        simp only [hshort, Option.isSome_some, if_true, Except.ok.injEq] at h
        exact ⟨[b], bytes, rfl, h, .short hshort⟩

theorem exists_isLiteral_of_skipLiteralFrom (h : skipLiteralFrom n bytes = .ok left) :
    ∃ run body, run.length = n ∧ bytes = run ++ (body ++ byte '"' :: left) ∧ IsLiteral body := by
  fun_induction skipLiteralFrom n bytes with
  | case1 => cases h
  | case2 n b bytes ih =>
    obtain ⟨run, body, rfl, rfl, hbody⟩ := ih h
    exact ⟨b :: run, body, rfl, rfl, hbody⟩
  | case3 bytes =>
    cases h
    exact ⟨[], [], rfl, rfl, .nil⟩
  | case4 => cases h
  | case5 bytes n hsize _ ih =>
    obtain ⟨run, body, rfl, rfl, hbody⟩ := ih h
    obtain ⟨run', rest, hbytes, hlength, hrun⟩ := exists_isEscape hsize
    obtain ⟨rfl, -⟩ := List.append_inj hbytes hlength.symm
    exact ⟨[], byte '\\' :: (run ++ body), rfl, by simp, .escape hrun hbody⟩
  | case6 => cases h
  | case7 b bytes hquote hslash hcontrol ih =>
    obtain ⟨run, body, hlength, rfl, hbody⟩ := ih h
    obtain rfl := List.length_eq_zero_iff.1 hlength
    exact ⟨[], b :: body, rfl, rfl, .plain ⟨hquote, hslash, hcontrol⟩ hbody⟩

theorem exists_isLiteral (h : skipLiteral bytes = .ok left) :
    ∃ body, bytes = body ++ byte '"' :: left ∧ IsLiteral body := by
  obtain ⟨run, body, hlength, rfl, hbody⟩ := exists_isLiteral_of_skipLiteralFrom h
  obtain rfl := List.length_eq_zero_iff.1 hlength
  exact ⟨body, rfl, hbody⟩

/-! ### Numbers -/

theorem isDigits_takeWhile (hb : isDigit b = true) (rest : List UInt8) :
    IsDigits (b :: rest.takeWhile isDigit) where
  nonempty := List.cons_ne_nil _ _
  digits := by
    rw [List.forall_mem_cons]
    exact ⟨hb, fun _ hd => List.mem_takeWhile_imp hd⟩

theorem exists_sign (bytes : List UInt8) : ∃ sign, (sign = [] ∨ sign = [byte '+'] ∨ sign = [byte '-']) ∧
    bytes = sign ++ (readExponentSign bytes).2 := by
  cases bytes with
  | nil => exact ⟨[], .inl rfl, rfl⟩
  | cons b rest =>
    rw [readExponentSign]
    by_cases hminus : b = byte '-'
    · exact ⟨[b], .inr (.inr (by rw [hminus])), by rw [if_pos hminus, List.singleton_append]⟩
    · by_cases hplus : b = byte '+'
      · refine ⟨[b], .inr (.inl (by rw [hplus])), ?_⟩
        rw [if_neg hminus, if_pos hplus, List.singleton_append]
      · exact ⟨[], .inl rfl, by rw [if_neg hminus, if_neg hplus, List.nil_append]⟩

theorem exists_isExponent {mark : UInt8} (hmark : mark = byte 'e' ∨ mark = byte 'E')
    (h : skipExponent bytes = .ok left) :
    ∃ exponent, IsExponent exponent ∧ mark :: bytes = exponent ++ left := by
  obtain ⟨sign, hsign, hbytes⟩ := exists_sign bytes
  rw [skipExponent] at h
  cases hrest : (readExponentSign bytes).2 with
  | nil =>
    rw [hrest] at h
    cases h
  | cons d rest =>
    simp only [hrest] at h
    split at h
    · rename_i hd
      obtain rfl := Except.ok.inj h
      refine ⟨_, .digits hmark hsign (isDigits_takeWhile hd rest), ?_⟩
      rw [hbytes, hrest]
      simp
    · cases h

theorem exists_isFraction (h : skipFraction bytes = .ok left) : ∃ fraction exponent,
    IsFraction fraction ∧ IsExponent exponent ∧ bytes = fraction ++ (exponent ++ left) := by
  cases bytes with
  | nil =>
    cases h
    exact ⟨[], [], .absent, .absent, rfl⟩
  | cons b rest =>
    rw [skipFraction] at h
    split at h
    · rename_i hpoint
      subst hpoint
      have hrest : rest = rest.takeWhile isDigit ++ rest.dropWhile isDigit :=
        List.takeWhile_append_dropWhile.symm
      have hdigits : ∀ d ∈ rest.takeWhile isDigit, isDigit d = true := fun _ hd =>
        List.mem_takeWhile_imp hd
      cases hds : rest.takeWhile isDigit with
      | nil =>
        rw [hds] at h
        cases h
      | cons d ds =>
        rw [hds] at hrest hdigits h
        have hfraction := IsFraction.digits ⟨List.cons_ne_nil d ds, hdigits⟩
        cases hafter : rest.dropWhile isDigit with
        | nil =>
          rw [hafter] at hrest h
          cases h
          exact ⟨_, [], hfraction, .absent, congrArg _ hrest⟩
        | cons c after =>
          rw [hafter] at hrest h
          dsimp only at h
          split at h
          · rename_i hmark
            obtain ⟨exponent, hexponent, hmore⟩ := exists_isExponent hmark h
            rw [hmore] at hrest
            exact ⟨_, exponent, hfraction, hexponent, congrArg _ hrest⟩
          · cases h
            exact ⟨_, [], hfraction, .absent, congrArg _ hrest⟩
    · split at h
      · rename_i hmark
        obtain ⟨exponent, hexponent, hafter⟩ := exists_isExponent hmark h
        exact ⟨[], exponent, .absent, hexponent, hafter⟩
      · cases h
        exact ⟨[], [], .absent, .absent, rfl⟩

theorem exists_isMagnitude (h : skipUnsigned bytes = .ok left) :
    ∃ number, IsMagnitude number ∧ bytes = number ++ left := by
  cases bytes with
  | nil => cases h
  | cons b rest =>
    rw [skipUnsigned] at h
    split at h
    · rename_i hzero
      subst hzero
      split at h
      · cases h
      · obtain ⟨fraction, exponent, hfraction, hexponent, rfl⟩ := exists_isFraction h
        exact ⟨_, .parts .zero hfraction hexponent, by simp⟩
    · rename_i hzero
      split at h
      · rename_i hb
        obtain ⟨fraction, exponent, hfraction, hexponent, hrest⟩ := exists_isFraction h
        have hdigits : ∀ d ∈ rest.takeWhile isDigit, isDigit d = true := fun _ hd =>
          List.mem_takeWhile_imp hd
        refine ⟨_, .parts (.digits hb hzero hdigits) hfraction hexponent, ?_⟩
        rw [List.append_assoc, List.append_assoc, ← hrest, List.cons_append,
          List.takeWhile_append_dropWhile]
      · cases h

theorem exists_isNumber (h : skipNumber bytes = .ok left) :
    ∃ number, IsNumber number ∧ bytes = number ++ left := by
  cases bytes with
  | nil => cases h
  | cons b rest =>
    rw [skipNumber] at h
    split at h
    · rename_i hminus
      obtain ⟨number, hnumber, rfl⟩ := exists_isMagnitude h
      exact ⟨byte '-' :: number, .negative hnumber, by rw [hminus, List.cons_append]⟩
    · obtain ⟨number, hnumber, heq⟩ := exists_isMagnitude h
      exact ⟨number, .positive hnumber, heq⟩

/-! ### Parts between brackets -/

/-- The text of an element of a list. -/
def IsItem (part : List UInt8) : Prop :=
  ∃ i : Item, (i.IsPadded ∧ IsValue i.value) ∧ i.text = part

/-- The text of a member of an object. -/
def IsMember (part : List UInt8) : Prop :=
  ∃ m : Member, (m.IsFramed ∧ IsValue m.item.value) ∧ m.text = part

/-- Parts between two brackets, each of that kind. -/
inductive IsEnclosed (P : List UInt8 → Prop) (opening closing : UInt8) (v : List UInt8) : Prop
  | mk {parts : List (List UInt8)} (h : Encloses opening closing parts v) (hparts : ∀ p ∈ parts, P p)

/-- A part, those after it and the bracket that closes them come first, and then `left`. -/
inductive HasParts (P : List UInt8 → Prop) (closing : UInt8) (bytes left : List UInt8) : Prop
  | mk {part : List UInt8} {parts : List (List UInt8)} (hpart : P part) (hparts : ∀ p ∈ parts, P p)
      (heq : bytes = part ++ (moreParts parts ++ closing :: left))

/-- The parts after one and the bracket that closes them come first, and then `left`. -/
inductive HasMore (P : List UInt8 → Prop) (closing : UInt8) (bytes left : List UInt8) : Prop
  | mk {gap : List UInt8} {parts : List (List UInt8)} (hgap : IsBlanks gap) (hparts : ∀ p ∈ parts, P p)
      (heq : bytes = gap ++ (moreParts parts ++ closing :: left))

variable {opening closing : UInt8} {v part : List UInt8}

theorem HasMore.closed (hgap : IsBlanks gap) (left : List UInt8) :
    HasMore P closing (gap ++ closing :: left) left :=
  .mk hgap (List.forall_mem_nil P) rfl

theorem HasParts.after_comma (h : HasParts P closing bytes left) (hgap : IsBlanks gap) :
    HasMore P closing (gap ++ byte ',' :: bytes) left := by
  obtain ⟨hpart, hparts, rfl⟩ := h
  refine .mk hgap (List.forall_mem_cons.2 ⟨hpart, hparts⟩) ?_
  simp

/-- The blanks after a part belong to it. -/
theorem HasMore.after_part (h : HasMore P closing bytes left)
    (hpart : ∀ gap, IsBlanks gap → P (part ++ gap)) : HasParts P closing (part ++ bytes) left := by
  obtain ⟨hgap, hparts, rfl⟩ := h
  exact .mk (hpart _ hgap) hparts (List.append_assoc ..).symm

theorem HasParts.isEnclosed (h : HasParts P closing bytes left) :
    ∃ v, IsEnclosed P opening closing v ∧ opening :: bytes = v ++ left := by
  obtain ⟨hpart, hparts, rfl⟩ := h
  refine ⟨_, ⟨.parts _ _, List.forall_mem_cons.2 ⟨hpart, hparts⟩⟩, ?_⟩
  simp

theorem isEnclosed_empty (hgap : IsBlanks gap) (left : List UInt8) :
    ∃ v, IsEnclosed P opening closing v ∧ opening :: (gap ++ closing :: left) = v ++ left :=
  ⟨_, ⟨.empty hgap, nofun⟩, by simp⟩

theorem exists_map_eq {γ : Type} {text : γ → List UInt8} {Q : γ → Prop} {parts : List (List UInt8)}
    (h : ∀ p ∈ parts, ∃ x, Q x ∧ text x = p) : ∃ xs : List γ, (∀ x ∈ xs, Q x) ∧ parts = xs.map text := by
  induction parts with
  | nil => exact ⟨[], nofun, rfl⟩
  | cons p parts ih =>
    obtain ⟨⟨x, hx, rfl⟩, hparts⟩ := List.forall_mem_cons.1 h
    obtain ⟨xs, hxs, rfl⟩ := ih hparts
    exact ⟨x :: xs, List.forall_mem_cons.2 ⟨hx, hxs⟩, rfl⟩

/-- The text of a list. -/
def IsList (v : List UInt8) : Prop := ∃ items, IsListOf items v

/-- The text of an object. -/
def IsObject (v : List UInt8) : Prop := ∃ members, IsObjectOf members v

theorem IsList.isValue (h : IsList v) : IsValue v := by
  obtain ⟨_, h⟩ := h
  exact h.isValue

theorem IsObject.isValue (h : IsObject v) : IsValue v := by
  obtain ⟨_, h⟩ := h
  exact h.isValue

theorem IsEnclosed.isList (h : IsEnclosed IsItem (byte '[') (byte ']') v) : IsList v := by
  obtain ⟨h, hparts⟩ := h
  obtain ⟨items, hitems, rfl⟩ := exists_map_eq hparts
  exact ⟨items, h, fun i hi => (hitems i hi).1, fun i hi => (hitems i hi).2⟩

theorem IsEnclosed.isObject (h : IsEnclosed IsMember (byte '\x7b') (byte '\x7d') v) : IsObject v := by
  obtain ⟨h, hparts⟩ := h
  obtain ⟨members, hmembers, rfl⟩ := exists_map_eq hparts
  exact ⟨members, h, fun m hm => (hmembers m hm).1, fun m hm => (hmembers m hm).2⟩

/-! ### Values -/

/-- Blanks and a text of that kind come first, and then `left`. -/
inductive StartsWith (P : List UInt8 → Prop) (bytes left : List UInt8) : Prop
  | mk {gap v : List UInt8} (hgap : IsBlanks gap) (hv : P v) (heq : bytes = gap ++ (v ++ left))

theorem StartsWith.mono (h : StartsWith P bytes left) (hPQ : ∀ {v}, P v → Q v) :
    StartsWith Q bytes left := by
  obtain ⟨hgap, hv, rfl⟩ := h
  exact ⟨hgap, hPQ hv, rfl⟩

theorem StartsWith.after_blanks (h : bytes = gap ++ more) (hgap : IsBlanks gap)
    (hv : ∃ v, P v ∧ more = v ++ left) : StartsWith P bytes left := by
  obtain ⟨v, hv, rfl⟩ := hv
  exact ⟨hgap, hv, h⟩

theorem StartsWith.blanks_append (h : StartsWith P bytes left) (hgap : IsBlanks gap) :
    StartsWith P (gap ++ bytes) left := by
  obtain ⟨hgap', hv, rfl⟩ := h
  refine ⟨fun b hb => (List.mem_append.1 hb).elim (hgap b) (hgap' b), hv, ?_⟩
  rw [List.append_assoc]

/-- An element and the others after it. -/
theorem StartsWith.hasParts_item (h : StartsWith IsValue bytes rest)
    (hmore : HasMore IsItem (byte ']') rest left) : HasParts IsItem (byte ']') bytes left := by
  obtain ⟨hgap, hv, rfl⟩ := h
  rename_i gap v
  rw [← List.append_assoc]
  exact hmore.after_part fun after hafter => ⟨⟨gap, v, after⟩, ⟨⟨hgap, hafter⟩, hv⟩, by simp [Item.text]⟩

/-- What comes before the value of a member: its name and a colon. -/
inductive HasKey (bytes left : List UInt8) : Prop
  | mk {before key gap : List UInt8} (hbefore : IsBlanks before) (hkey : IsLiteral key)
      (hgap : IsBlanks gap)
      (heq : bytes = before ++ (byte '"' :: (key ++ (byte '"' :: (gap ++ (byte ':' :: left))))))

/-- A member and the others after it. -/
theorem HasKey.hasParts_member {value : List UInt8} (h : HasKey bytes value)
    (hvalue : StartsWith IsValue value rest) (hmore : HasMore IsMember (byte '\x7d') rest left) :
    HasParts IsMember (byte '\x7d') bytes left := by
  obtain ⟨hbefore, hkey, hgap, rfl⟩ := h
  obtain ⟨hgap', hv, rfl⟩ := hvalue
  rename_i before key gap gap' v
  have hpart : ∀ after, IsBlanks after → IsMember
      (before ++ (byte '"' :: (key ++ (byte '"' :: (gap ++ (byte ':' :: (gap' ++ v)))))) ++ after) := by
    intro after hafter
    refine ⟨⟨before, key, gap, ⟨gap', v, after⟩⟩, ⟨⟨hbefore, hkey, hgap, ⟨hgap', hafter⟩⟩, hv⟩, ?_⟩
    simp [Member.text, Item.text]
  simpa using hmore.after_part hpart

/-! ### Passing over values -/

theorem hasKey_of_skipKey (h : skipKey bytes = .ok left) : HasKey bytes left := by
  rw [skipKey] at h
  cases hfirst : skipBlanks bytes with
  | nil => simp [hfirst] at h
  | cons b rest =>
    obtain ⟨before, hbefore, rfl⟩ := exists_blanks hfirst
    simp only [hfirst] at h
    split at h
    · rename_i hquote
      subst hquote
      cases hskip : skipLiteral rest with
      | error e => simp [hskip] at h
      | ok more =>
        obtain ⟨key, rfl, hkey⟩ := exists_isLiteral hskip
        simp only [hskip] at h
        cases hnext : skipBlanks more with
        | nil => simp [hnext] at h
        | cons c after =>
          obtain ⟨gap, hgap, rfl⟩ := exists_blanks hnext
          simp only [hnext] at h
          split at h
          · rename_i hcolon
            subst hcolon
            cases h
            exact ⟨hbefore, hkey, hgap, rfl⟩
          · cases h
    · cases h

/-- The three passing functions stop only where a value, the elements of a list or the members of an
object end. -/
structure PassesJson (fuel : Nat) : Prop where
  value : ∀ {bytes left}, skipValueWith fuel bytes = .ok left → StartsWith IsValue bytes left
  elements : ∀ {bytes left}, skipElementsWith fuel bytes = .ok left →
    HasParts IsItem (byte ']') bytes left
  members : ∀ {bytes left}, skipMembersWith fuel bytes = .ok left →
    HasParts IsMember (byte '\x7d') bytes left

theorem PassesJson.elements_succ (hfuel : PassesJson fuel)
    (h : skipElementsWith (fuel + 1) bytes = .ok left) : HasParts IsItem (byte ']') bytes left := by
  rw [skipElementsWith] at h
  cases hvalue : skipValueWith fuel bytes with
  | error e => simp [hvalue] at h
  | ok rest =>
    refine (hfuel.value hvalue).hasParts_item ?_
    simp only [hvalue] at h
    cases hnext : skipBlanks rest with
    | nil => simp [hnext] at h
    | cons b more =>
      obtain ⟨gap, hgap, rfl⟩ := exists_blanks hnext
      simp only [hnext] at h
      split at h
      · rename_i hcomma
        subst hcomma
        exact (hfuel.elements h).after_comma hgap
      · split at h
        · rename_i hbracket
          subst hbracket
          cases h
          exact .closed hgap _
        · cases h

theorem PassesJson.members_succ (hfuel : PassesJson fuel)
    (h : skipMembersWith (fuel + 1) bytes = .ok left) :
    HasParts IsMember (byte '\x7d') bytes left := by
  rw [skipMembersWith] at h
  cases hkey : skipKey bytes with
  | error e => simp [hkey] at h
  | ok value =>
    simp only [hkey] at h
    cases hvalue : skipValueWith fuel value with
    | error e => simp [hvalue] at h
    | ok rest =>
      refine (hasKey_of_skipKey hkey).hasParts_member (hfuel.value hvalue) ?_
      simp only [hvalue] at h
      cases hnext : skipBlanks rest with
      | nil => simp [hnext] at h
      | cons b more =>
        obtain ⟨gap, hgap, rfl⟩ := exists_blanks hnext
        simp only [hnext] at h
        split at h
        · rename_i hcomma
          subst hcomma
          exact (hfuel.members h).after_comma hgap
        · split at h
          · rename_i hbrace
            subst hbrace
            cases h
            exact .closed hgap _
          · cases h

theorem exists_isValue_of_skipWord {word : List Char} {first : Char}
    (hvalue : IsValue (utf8 (first :: word)))
    (hbytes : utf8 (first :: word) = byte first :: word.map byte)
    (h : skipWord word bytes = .ok left) : ∃ v, IsValue v ∧ byte first :: bytes = v ++ left := by
  rw [skipWord, map_eq_ok_iff] at h
  obtain ⟨⟨⟨⟩, left⟩, hread, rfl⟩ := h
  refine ⟨_, hvalue, ?_⟩
  rw [hbytes, eq_of_readWord hread, List.cons_append]

/-- After an opening bracket comes the closing one, or the first part. -/
theorem exists_isEnclosed {e : Error} {skip : List UInt8 → Except Error (List UInt8)}
    (hskip : ∀ {bytes left}, skip (skipBlanks bytes) = .ok left → HasParts P closing bytes left)
    (h : (match skipBlanks bytes with
      | [] => Except.error e
      | c :: after => if c = closing then Except.ok after else skip (c :: after)) = Except.ok left) :
    ∃ v, IsEnclosed P opening closing v ∧ opening :: bytes = v ++ left := by
  cases hfirst : skipBlanks bytes with
  | nil => simp [hfirst] at h
  | cons c after =>
    simp only [hfirst] at h
    split at h
    · rename_i hclosing
      subst hclosing
      obtain ⟨gap, hgap, rfl⟩ := exists_blanks hfirst
      obtain rfl := Except.ok.inj h
      exact isEnclosed_empty hgap _
    · rw [← hfirst] at h
      exact (hskip h).isEnclosed

theorem PassesJson.value_succ (hfuel : PassesJson fuel)
    (h : skipValueWith (fuel + 1) bytes = .ok left) : StartsWith IsValue bytes left := by
  rw [skipValueWith] at h
  cases hfirst : skipBlanks bytes with
  | nil => simp [hfirst] at h
  | cons b rest =>
    obtain ⟨gap, hgap, hbytes⟩ := exists_blanks hfirst
    refine .after_blanks hbytes hgap ?_
    simp only [hfirst] at h
    -- One case for each first byte that a value can have.
    split at h
    · rename_i hb
      subst hb
      exact exists_isValue_of_skipWord .null rfl h
    split at h
    · rename_i hb
      subst hb
      exact exists_isValue_of_skipWord .yes rfl h
    split at h
    · rename_i hb
      subst hb
      exact exists_isValue_of_skipWord .no rfl h
    split at h
    · obtain ⟨number, hnumber, heq⟩ := exists_isNumber h
      exact ⟨number, .number hnumber, heq⟩
    split at h
    · rename_i hb
      subst hb
      obtain ⟨body, rfl, hbody⟩ := exists_isLiteral h
      exact ⟨_, .text hbody, by simp⟩
    split at h
    · rename_i hb
      subst hb
      obtain ⟨v, hv, heq⟩ := exists_isEnclosed (fun {bytes left} h => hfuel.elements
        (skipElementsWith_skipBlanks fuel bytes ▸ h)) h
      exact ⟨v, hv.isList.isValue, heq⟩
    split at h
    · rename_i hb
      subst hb
      obtain ⟨v, hv, heq⟩ := exists_isEnclosed (fun {bytes left} h => hfuel.members
        (skipMembersWith_skipBlanks fuel bytes ▸ h)) h
      exact ⟨v, hv.isObject.isValue, heq⟩
    · cases h

theorem passesJson (fuel : Nat) : PassesJson fuel := by
  induction fuel with
  | zero => exact ⟨nofun, nofun, nofun⟩
  | succ fuel ih => exact ⟨ih.value_succ, ih.elements_succ, ih.members_succ⟩

theorem startsWith_of_skipValue (h : skipValue bytes = .ok left) : StartsWith IsValue bytes left :=
  (passesJson _).value h

/-- The values are the texts that are passed over as a whole and do not begin with a blank. -/
theorem isValue_cons_iff :
    IsValue (b :: bytes) ↔ isBlank b = false ∧ skipValue (b :: bytes) = .ok [] := by
  constructor
  · intro h
    have hskip := h.skipValue_append (nofun : IsBlanks []) ends_nil
    rw [List.nil_append, List.append_nil] at hskip
    obtain ⟨c, more, hfirst, hblank, -⟩ := h.exists_cons
    obtain ⟨rfl, -⟩ := List.cons.inj hfirst
    exact ⟨hblank, hskip⟩
  · rintro ⟨hblank, hskip⟩
    obtain ⟨hgap, hv, heq⟩ := startsWith_of_skipValue hskip
    rename_i gap v
    cases gap with
    | nil =>
      rw [List.nil_append, List.append_nil] at heq
      exact heq ▸ hv
    | cons c gap =>
      obtain rfl := (List.cons.inj heq).1
      have hblank' := hgap b List.mem_cons_self
      rw [hblank] at hblank'
      cases hblank'

instance : DecidablePred IsValue
  | [] => isFalse fun h => by
    obtain ⟨b, more, hfirst, -⟩ := h.exists_cons
    cases hfirst
  | _ :: _ => decidable_of_iff _ isValue_cons_iff.symm

end LogRelay.Json
