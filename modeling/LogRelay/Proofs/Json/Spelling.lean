import LogRelay.Proofs.Json.Passing

/-!
A string literal is read as what it spells, and only if it spells something. Where the literal ends
does not depend on whether it is read or passed over, so its bytes have one reading.
-/

namespace LogRelay.Json

variable {bytes rest left run body tail out more : List UInt8} {n : Nat} {s : String}

theorem map_eq_ok_iff {ε α β : Type} {x : Except ε α} {f : α → β} {y : β} :
    x.map f = .ok y ↔ ∃ a, x = .ok a ∧ f a = y := by
  cases x <;> simp [Except.map]

theorem map_eq_map_map {ε α β γ : Type} {x : Except ε α} {f : α → β} {g : β → γ} {k : α → γ}
    (h : ∀ a, k a = g (f a)) : x.map k = (x.map f).map g := by
  cases x <;> simp [Except.map, h]

theorem isHex_of_readHex (h : readHex bytes = .ok n) :
    ∃ digits rest, bytes = digits ++ rest ∧ IsHex digits n := by
  unfold readHex at h
  split at h
  · rename_i a b c d rest
    split at h
    · rename_i ha hb hc hd
      cases h
      exact ⟨[a, b, c, d], rest, rfl, .digits ha hb hc hd⟩
    · cases h
  · cases h

/-! ### Escapes -/

theorem readLowSurrogate_eq_ok {high : Nat} (h : readLowSurrogate high bytes = .ok out) :
    ∃ digits low rest, bytes = byte '\\' :: byte 'u' :: (digits ++ rest) ∧ IsHex digits low ∧
      isLowSurrogate low = true ∧
      out = codePoint (0x10000 + (high - 0xD800) * 0x400 + (low - 0xDC00)) := by
  unfold readLowSurrogate at h
  split at h
  · cases h
  · rename_i b bytes
    by_cases hslash : b = byte '\\'
    · subst hslash
      rw [if_neg (not_not_intro rfl)] at h
      cases bytes with
      | nil => cases h
      | cons b bytes =>
        by_cases hu : b = byte 'u'
        · subst hu
          dsimp only at h
          rw [if_neg (not_not_intro rfl)] at h
          cases hread : readHex bytes with
          | error e => simp [hread] at h
          | ok low =>
            obtain ⟨digits, rest, rfl, hdigits⟩ := isHex_of_readHex hread
            simp only [hread] at h
            split at h
            · rename_i hlow
              exact ⟨digits, low, rest, rfl, hdigits, hlow, (Except.ok.inj h).symm⟩
            · cases h
        · simp [hu] at h
    · simp [hslash] at h

theorem readLowSurrogate_append {high low : Nat} {digits : List UInt8} (h : IsHex digits low)
    (hlow : isLowSurrogate low = true) (rest : List UInt8) :
    readLowSurrogate high (byte '\\' :: byte 'u' :: (digits ++ rest)) =
      .ok (codePoint (0x10000 + (high - 0xD800) * 0x400 + (low - 0xDC00))) := by
  simp only [readLowSurrogate, ne_eq, not_true_eq_false, if_false, h.readHex_append, hlow, if_true]

theorem not_isLowSurrogate (h : isHighSurrogate n = true) : isLowSurrogate n = false := by
  simp only [isHighSurrogate, isLowSurrogate, Bool.and_eq_true, decide_eq_true_eq] at h ⊢
  have hlow : ¬ 0xDC00 ≤ n := by omega
  simp [hlow]

theorem Unescapes.readEscape_append (h : Unescapes run out) (rest : List UInt8) :
    readEscape (run ++ rest) = .ok (out, run.length) := by
  cases h with
  | short h =>
    rw [List.singleton_append, readEscape, if_neg (ne_u_of_shortEscape? h), h]
    rfl
  | hex h hhigh hlow =>
    rw [List.cons_append, readEscape, if_pos rfl, h.readHex_append, List.length_cons, h.length]
    dsimp only
    rw [hhigh, hlow]
    rfl
  | @pair digits digits' high low h h' hhigh hlow =>
    have hdrop : (digits ++ byte '\\' :: byte 'u' :: (digits' ++ rest)).drop 4 =
        byte '\\' :: byte 'u' :: (digits' ++ rest) := by
      rw [← h.length, List.drop_left]
    have hlength : (byte 'u' :: (digits ++ byte '\\' :: byte 'u' :: digits')).length = 11 := by
      simp [h.length, h'.length]
    rw [hlength, List.cons_append, List.append_assoc, List.cons_append, List.cons_append, readEscape,
      if_pos rfl, h.readHex_append]
    dsimp only
    rw [hhigh, not_isLowSurrogate hhigh, hdrop, readLowSurrogate_append h' hlow]
    rfl

theorem unescapes_of_readEscape (h : readEscape bytes = .ok (out, n)) :
    ∃ run rest, bytes = run ++ rest ∧ run.length = n ∧ Unescapes run out := by
  cases bytes with
  | nil => cases h
  | cons b bytes =>
    rw [readEscape] at h
    by_cases hu : b = byte 'u'
    · subst hu
      rw [if_pos rfl] at h
      cases hread : readHex bytes with
      | error e => simp [hread] at h
      | ok m =>
        obtain ⟨digits, rest, rfl, hdigits⟩ := isHex_of_readHex hread
        simp only [hread] at h
        cases hlow : isLowSurrogate m with
        | true => simp [hlow] at h
        | false =>
          cases hhigh : isHighSurrogate m with
          | false =>
            simp only [hlow, hhigh, Bool.false_eq_true, if_false, Except.ok.injEq, Prod.mk.injEq] at h
            obtain ⟨rfl, rfl⟩ := h
            exact ⟨byte 'u' :: digits, rest, rfl, by rw [List.length_cons, hdigits.length],
              .hex hdigits hhigh hlow⟩
          | true =>
            simp only [hlow, hhigh, Bool.false_eq_true, if_false, if_true] at h
            rw [← hdigits.length, List.drop_left] at h
            obtain ⟨one, hpair, hone⟩ := map_eq_ok_iff.1 h
            obtain ⟨rfl, rfl⟩ := Prod.mk.inj hone
            obtain ⟨digits', low, rest', rfl, hdigits', hlow', hone⟩ := readLowSurrogate_eq_ok hpair
            rw [hone]
            refine ⟨byte 'u' :: (digits ++ byte '\\' :: byte 'u' :: digits'), rest', ?_, ?_,
              .pair hdigits hdigits' hhigh hlow'⟩
            · simp
            · simp [hdigits.length, hdigits'.length]
    · rw [if_neg hu] at h
      cases hshort : shortEscape? b with
      | none => simp [hshort] at h
      | some c =>
        simp only [hshort, Except.ok.injEq, Prod.mk.injEq] at h
        obtain ⟨rfl, rfl⟩ := h
        exact ⟨[b], bytes, rfl, rfl, .short hshort⟩

/-! ### Literals -/

theorem literalFrom_length (run rest : List UInt8) :
    literalFrom run.length (run ++ rest) = literalFrom 0 rest := by
  induction run with
  | nil => rfl
  | cons b run ih => exact ih

/-- A literal is read as what it spells, up to its closing quote. -/
theorem Spells.literalFrom_append (h : Spells body out) (rest : List UInt8) :
    literalFrom 0 (body ++ byte '"' :: rest) = .ok (out, rest) := by
  induction h with
  | nil => rfl
  | @plain b body out hb _ ih =>
    have hone : ∀ c ∈ [b], IsPlain c := by simpa using hb
    exact literalFrom_plain hone ih
  | escape hrun _ ih =>
    rw [List.cons_append, List.append_assoc, literalFrom, if_neg (by decide), if_pos rfl,
      hrun.readEscape_append]
    dsimp only
    rw [literalFrom_length, ih]
    rfl

theorem spells_of_literalFrom (h : literalFrom n bytes = .ok (out, left)) :
    ∃ run body, run.length = n ∧ bytes = run ++ (body ++ byte '"' :: left) ∧ Spells body out := by
  fun_induction literalFrom n bytes generalizing out left with
  | case1 => cases h
  | case2 n b bytes ih =>
    obtain ⟨run, body, rfl, rfl, hbody⟩ := ih h
    exact ⟨b :: run, body, rfl, rfl, hbody⟩
  | case3 bytes =>
    cases h
    exact ⟨[], [], rfl, rfl, .nil⟩
  | case4 => cases h
  | case5 bytes one n hread _ ih =>
    obtain ⟨⟨more, rest⟩, hmore, heq⟩ := map_eq_ok_iff.1 h
    obtain ⟨rfl, rfl⟩ := Prod.mk.inj heq
    obtain ⟨run, body, rfl, rfl, hbody⟩ := ih hmore
    obtain ⟨run', rest', hbytes, hlength, hrun⟩ := unescapes_of_readEscape hread
    obtain ⟨rfl, -⟩ := List.append_inj hbytes hlength.symm
    refine ⟨[], byte '\\' :: (run ++ body), rfl, ?_, .escape hrun hbody⟩
    simp
  | case6 => cases h
  | case7 b bytes hquote hslash hcontrol ih =>
    obtain ⟨⟨more, rest⟩, hmore, heq⟩ := map_eq_ok_iff.1 h
    obtain ⟨rfl, rfl⟩ := Prod.mk.inj heq
    obtain ⟨run, body, hlength, rfl, hbody⟩ := ih hmore
    obtain rfl := List.length_eq_zero_iff.1 hlength
    exact ⟨[], b :: body, rfl, rfl, .plain ⟨hquote, hslash, hcontrol⟩ hbody⟩

/-- A literal can be cut off from what follows it in one way only. -/
theorem IsLiteral.unique {body' rest' : List UInt8} (h : IsLiteral body) (h' : IsLiteral body')
    (heq : body ++ byte '"' :: rest = body' ++ byte '"' :: rest') : body = body' ∧ rest = rest' := by
  have hpassed := h.skipLiteral_append rest
  rw [heq, h'.skipLiteral_append] at hpassed
  obtain rfl := Except.ok.inj hpassed
  exact ⟨List.append_cancel_right heq, rfl⟩

theorem utf8_of_decode? (h : Text.Utf8.decode? bytes = some s) : bytes = utf8 s.toList := by
  have harray : bytes.toByteArray = (utf8 s.toList).toByteArray := by
    rw [Text.Utf8.decode?, String.fromUTF8?] at h
    split at h
    · obtain rfl := Option.some.inj h
      exact (Text.Utf8.encode_toByteArray (String.fromUTF8 _ ‹_›)).symm
    · cases h
  rw [← List.toList_data_toByteArray (l := bytes), harray, List.toList_data_toByteArray]

theorem readLiteral_append (h : Spells body (utf8 s.toList)) (rest : List UInt8) :
    readLiteral (body ++ byte '"' :: rest) = .ok (s, rest) := by
  simp only [readLiteral, h.literalFrom_append, bind, Except.bind, decode?_utf8]
  rfl

theorem spells_of_readLiteral (h : readLiteral bytes = .ok (s, left)) :
    ∃ body, bytes = body ++ byte '"' :: left ∧ Spells body (utf8 s.toList) := by
  simp only [readLiteral, bind, Except.bind] at h
  split at h
  · cases h
  · rename_i result hread
    obtain ⟨out, rest⟩ := result
    dsimp only at h
    split at h
    · rename_i text htext
      obtain ⟨rfl, rfl⟩ := Prod.mk.inj (Except.ok.inj h)
      obtain ⟨run, body, hlength, rfl, hbody⟩ := spells_of_literalFrom hread
      obtain rfl := List.length_eq_zero_iff.1 hlength
      rw [utf8_of_decode? htext] at hbody
      exact ⟨body, rfl, hbody⟩
    · cases h

/-- A written text spells itself. -/
theorem spells_escaped (s : String) : Spells (utf8 (s.toList.flatMap escapeChar)) (utf8 s.toList) := by
  obtain ⟨body, heq, hbody⟩ := spells_of_readLiteral (readLiteral_escaped s [])
  rwa [← List.append_cancel_right heq] at hbody

/-- Of a literal in place, reading says what it spells. -/
theorem IsLiteral.spells_of_readLiteral (hbody : IsLiteral body)
    (h : readLiteral (body ++ byte '"' :: rest) = .ok (s, left)) :
    Spells body (utf8 s.toList) ∧ rest = left := by
  obtain ⟨body', heq, hspells⟩ := Json.spells_of_readLiteral h
  obtain ⟨rfl, rfl⟩ := hbody.unique hspells.isLiteral heq
  exact ⟨hspells, rfl⟩

end LogRelay.Json
