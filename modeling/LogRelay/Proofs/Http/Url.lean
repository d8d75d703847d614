import LogRelay.Http.Url
import LogRelay.Proofs.Text

/-!
The account of an address. It stands before the host, so what comes after the first slash of the path
cannot name one.
-/

namespace LogRelay.Http.Url

/-- Whether a character belongs to the part of an address that names account, host and port. -/
def isAuthority (c : Char) : Bool := !isSlash c && c ≠ '?' && c ≠ '#'

/-- The account comes from before the last `@` of its part, if there is one. -/
theorem account_of_parse {s : String} {scheme rest : List Char} {url : Url}
    (hscheme : scheme? (strip s) = some (scheme, rest)) (h : parse s = .ok url) :
    url.account = (cutAccount ((rest.dropWhile isSlash).takeWhile isAuthority)).1.bind accountOf? := by
  simp only [parse, hscheme] at h
  split at h
  · cases h
  · split at h
    · cases h
    · split at h
      · cases h
        rfl
      · cases h

theorem account_eq_none_of_not_mem {s : String} {scheme rest : List Char} {url : Url}
    (hscheme : scheme? (strip s) = some (scheme, rest)) (h : parse s = .ok url)
    (hat : '@' ∉ (rest.dropWhile isSlash).takeWhile isAuthority) : url.account = none := by
  rw [account_of_parse hscheme h, cutAccount, if_neg hat]
  rfl

/-- What is stripped at the end of a text does not reach a character that is no blank. -/
theorem exists_strip_eq {first c : Char} (hfirst : 0x20 < first.toNat) (hc : 0x20 < c.toNat)
    (cs tail : List Char) : ∃ tail', strip (String.ofList (first :: (cs ++ c :: tail))) =
      (first :: (cs ++ c :: tail')).filter (· ∉ ['\t', '\n', '\r']) := by
  have hf : decide (first.toNat ≤ 0x20) = false := by simpa using hfirst
  have hl : decide (c.toNat ≤ 0x20) = false := by simpa using hc
  refine ⟨Text.dropEndWhile (fun d => d.toNat ≤ 0x20) tail, ?_⟩
  rw [strip, String.toList_ofList, Text.trimWhile, List.dropWhile_cons_of_neg (by simp [hf]),
    ← List.cons_append, Text.dropEndWhile_append_cons hl, List.cons_append]

theorem mem_of_mem_takeWhile {front tail : List Char} {c : Char}
    (hc : c ∈ (front ++ '/' :: tail).takeWhile isAuthority) : c ∈ front := by
  induction front with
  | nil => cases hc
  | cons d front ih =>
    rw [List.cons_append, List.takeWhile_cons] at hc
    split at hc
    · rcases List.mem_cons.1 hc with rfl | hc
      · exact List.mem_cons_self
      · exact List.mem_cons_of_mem d (ih hc)
    · cases hc

/-- Slashes at first are passed over, and the next one ends the part that names the host. -/
theorem mem_of_mem_authority {front tail : List Char} {c : Char}
    (hfront : ∃ d ∈ front, isSlash d = false)
    (hc : c ∈ ((front ++ '/' :: tail).dropWhile isSlash).takeWhile isAuthority) : c ∈ front := by
  induction front with
  | nil =>
    obtain ⟨d, hd, -⟩ := hfront
    cases hd
  | cons d front ih =>
    rw [List.cons_append, List.dropWhile_cons] at hc
    split at hc
    · rename_i hslash
      obtain ⟨e, he, hplain⟩ := hfront
      rcases List.mem_cons.1 he with rfl | he
      · rw [hslash] at hplain
        cases hplain
      · exact List.mem_cons_of_mem d (ih ⟨e, he, hplain⟩ hc)
    · exact mem_of_mem_takeWhile hc

/-- An address begins with its scheme and perhaps an account; an `@` after the first slash that follows
the host belongs to the path. -/
def Reader.AccountsPrecedePath (read : Reader) : Prop :=
  ∀ front tail url, read ("http:" ++ front ++ "/" ++ tail) = .ok url →
    (∃ c ∈ front.toList, c.isAlphanum) → '@' ∉ front.toList → url.account = none

theorem not_isSlash_of_isAlphanum {c : Char} (hc : c.isAlphanum) :
    isSlash c = false ∧ c ∉ ['\t', '\n', '\r'] := by
  refine ⟨Bool.eq_false_iff.2 fun hslash => ?_, fun hblank => ?_⟩
  · rcases Bool.or_eq_true_iff.1 hslash with h | h <;> rw [of_decide_eq_true h] at hc <;>
      exact absurd hc (by decide)
  · simp only [List.mem_cons, List.not_mem_nil, or_false] at hblank
    rcases hblank with rfl | rfl | rfl <;> exact absurd hc (by decide)

theorem accountsPrecedePath_parse : Reader.AccountsPrecedePath parse := by
  rintro front tail url h ⟨c, hc, hplain⟩ hat
  obtain ⟨hslash, hkept⟩ := not_isSlash_of_isAlphanum hplain
  have hchars : "http:" ++ front ++ "/" ++ tail =
      String.ofList ('h' :: (("ttp:".toList ++ front.toList) ++ '/' :: tail.toList)) := by
    rw [← String.toList_inj]
    simp [String.toList_append]
  obtain ⟨tail', hstrip⟩ := exists_strip_eq (show 0x20 < 'h'.toNat by decide)
    (show 0x20 < '/'.toNat by decide) ("ttp:".toList ++ front.toList) tail.toList
  rw [← hchars] at hstrip
  have hscheme : scheme? (strip ("http:" ++ front ++ "/" ++ tail)) = some ("http".toList,
      front.toList.filter (· ∉ ['\t', '\n', '\r']) ++
        '/' :: tail'.filter (· ∉ ['\t', '\n', '\r'])) := by
    rw [hstrip]
    simp only [List.filter_append, List.filter_cons]
    rfl
  refine account_eq_none_of_not_mem hscheme h fun hmem => ?_
  have hmem := mem_of_mem_authority ⟨c, List.mem_filter.2 ⟨hc, by simpa using hkept⟩, hslash⟩ hmem
  exact hat (List.mem_filter.1 hmem).1

end LogRelay.Http.Url
