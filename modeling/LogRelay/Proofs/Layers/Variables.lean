import LogRelay.Layers.Environment
import LogRelay.Proofs.Layers.Dict
import LogRelay.Proofs.Text

/-!
The layer that the environment holds. Where the names of the variables that count have neither dots
nor blanks in them and differ in more than case, each variable is one key, and no other variable has
a say about it.
-/

namespace LogRelay.Layers

variable {env : Environment} {name key : String} {d : Dict}

/-! ### Names -/

/-- The name begins with the common lead, in any case. -/
def HasLead (name : String) : Prop :=
  (lowercase variableLead).toList <+: (lowercase name).toList

instance : DecidablePred HasLead := fun name =>
  inferInstanceAs (Decidable ((lowercase variableLead).toList <+: (lowercase name).toList))

/-- If the name has the lead, there are neither dots nor blanks in it. -/
def IsPlainName (name : String) : Prop :=
  HasLead name → ∀ c ∈ name.toList, c ≠ '.' ∧ Text.isBlank c = false

instance : DecidablePred IsPlainName := fun name =>
  -- Only the characters of the name are gone through, not all there are.
  have := List.decidableBAll (fun c => c ≠ '.' ∧ Text.isBlank c = false) name.toList
  inferInstanceAs (Decidable (HasLead name → ∀ c ∈ name.toList, c ≠ '.' ∧ Text.isBlank c = false))

@[simp] theorem toList_lowercase (s : String) : (lowercase s).toList = s.toList.map Char.toLower :=
  String.toList_ofList

/-- What stands after the lead, in lower case. -/
def suffix (name : String) : String :=
  lowercase (String.ofList (name.toList.drop variableLead.toList.length))

theorem hasLead_iff :
    HasLead name ↔
      lowercase (String.ofList (name.toList.take variableLead.toList.length)) =
        lowercase variableLead := by
  rw [HasLead, List.prefix_iff_eq_take, ← String.toList_inj]
  simp [List.map_take, eq_comm]

theorem lowercase_eq_of_hasLead (h : HasLead name) :
    lowercase name = lowercase variableLead ++ suffix name := by
  rw [← hasLead_iff.1 h, ← String.toList_inj, String.toList_append, suffix]
  simp only [toList_lowercase, String.toList_ofList]
  rw [← List.map_append, List.take_append_drop]

theorem hasLead_of_lowercase_eq (h : lowercase name = lowercase variableLead ++ key) :
    HasLead name := by
  rw [HasLead, h, String.toList_append]
  exact List.prefix_append ..

/-- No letter is a dot in lower case. -/
theorem toLower_ne_dot {c : Char} (h : c ≠ '.') : c.toLower ≠ '.' := by
  unfold Char.toLower
  split
  · next hupper =>
    intro heq
    have hval : c.val + ('a'.val - 'A'.val) = '.'.val := congrArg Char.val heq
    obtain ⟨hge, hle⟩ := hupper
    grind
  · exact h

theorem keysOfVariable?_of_not_hasLead (h : ¬ HasLead name) : keysOfVariable? name = none := by
  rw [keysOfVariable?]
  exact if_pos (mt hasLead_iff.2 h)

/-- A plain name leads to one key, unless that is reserved or empty. -/
theorem keysOfVariable?_of_hasLead (hplain : IsPlainName name) (h : HasLead name) :
    keysOfVariable? name =
      if suffix name ∈ reservedNames ∨ suffix name = "" then none else some [suffix name] := by
  have hrest : ∀ c ∈ name.toList.drop variableLead.toList.length, c ≠ '.' ∧ Text.isBlank c = false :=
    fun c hc => hplain h c (List.mem_of_mem_drop hc)
  have htrim : Text.trim (String.ofList (name.toList.drop variableLead.toList.length)) =
      String.ofList (name.toList.drop variableLead.toList.length) := by
    rw [Text.trim, String.toList_ofList, Text.trimWhile_of_forall fun c hc => (hrest c hc).2]
  have hdots : (suffix name).toList.splitOn '.' = [(suffix name).toList] := by
    refine List.splitOn_eq_singleton fun hc => ?_
    rw [suffix, toList_lowercase, String.toList_ofList] at hc
    obtain ⟨c, hc, hdot⟩ := List.mem_map.1 hc
    exact toLower_ne_dot (hrest c hc).1 hdot
  have hlead := not_not_intro (hasLead_iff.1 h)
  simp only [keysOfVariable?, if_neg hlead, htrim]
  rw [← suffix, hdots]
  by_cases hreserved : suffix name ∈ reservedNames
  · simp [hreserved]
  · simp [hreserved]

theorem keysOfVariable?_eq_singleton_iff (hplain : IsPlainName name) :
    keysOfVariable? name = some [key] ↔
      lowercase name = lowercase variableLead ++ key ∧ key ∉ reservedNames ∧ key ≠ "" := by
  by_cases h : HasLead name
  · rw [keysOfVariable?_of_hasLead hplain h, lowercase_eq_of_hasLead h, String.append_right_inj]
    split
    · next hno =>
      refine iff_of_false nofun ?_
      rintro ⟨rfl, hkey⟩
      exact hno.elim hkey.1 hkey.2
    · next hyes =>
      rw [Option.some.injEq, List.singleton_inj]
      refine ⟨?_, And.left⟩
      rintro rfl
      exact ⟨rfl, not_or.1 hyes⟩
  · rw [keysOfVariable?_of_not_hasLead h]
    exact iff_of_false nofun fun hkey => h (hasLead_of_lowercase_eq hkey.1)

theorem keysOfVariable?_eq_none_or_singleton (hplain : IsPlainName name) :
    keysOfVariable? name = none ∨ ∃ key, keysOfVariable? name = some [key] := by
  by_cases h : HasLead name
  · rw [keysOfVariable?_of_hasLead hplain h]
    split
    · exact .inl rfl
    · exact .inr ⟨_, rfl⟩
  · exact .inl (keysOfVariable?_of_not_hasLead h)

/-! ### The layer -/

/-- The names of the variables that count are plain, and no two of them are the same up to case. -/
structure Environment.IsPlain (env : Environment) : Prop where
  plain : ∀ v ∈ env, IsPlainName v.1
  distinct : env.Pairwise fun v w => HasLead v.1 → lowercase v.1 ≠ lowercase w.1

theorem Environment.IsPlain.sublist {env' : Environment} (h : env.IsPlain)
    (hsub : env'.Sublist env) : env'.IsPlain where
  plain := fun v hv => h.plain v (hsub.subset hv)
  distinct := h.distinct.sublist hsub

/-- One variable over a layer. -/
def overlay (d : Dict) (v : String × String) : Dict :=
  match keysOfVariable? v.1 with
  | some (key :: keys) => Value.layEntries [(key, nest keys (Notation.ofText v.2))] d
  | _ => d

theorem ofEnvironment_eq_foldl (env : Environment) : ofEnvironment env = env.foldl overlay [] := by
  unfold ofEnvironment overlay
  refine congrArg (fun step => env.foldl step []) (funext fun d => funext fun ⟨name, text⟩ => ?_)
  cases hkeys : keysOfVariable? name with
  | none => simp only [hkeys]
  | some keys => cases keys <;> simp only [hkeys]

theorem get?_overlay_self {v : String × String} (h : keysOfVariable? v.1 = some [key])
    (hd : Dict.get? key d = none) :
    Dict.get? key (overlay d v) = some (Notation.ofText v.2) := by
  rw [overlay, h, Value.get?_layEntries, hd, Dict.get?_cons, if_pos rfl]
  rfl

theorem get?_overlay_of_ne {v : String × String} (hplain : IsPlainName v.1)
    (h : keysOfVariable? v.1 ≠ some [key]) : Dict.get? key (overlay d v) = Dict.get? key d := by
  rw [overlay]
  obtain hnone | ⟨other, hother⟩ := keysOfVariable?_eq_none_or_singleton hplain
  · rw [hnone]
  · have hne : key ≠ other := by
      rintro rfl
      exact h hother
    rw [hother, Value.get?_layEntries, Dict.get?_cons, if_neg hne, Dict.get?_nil]

theorem get?_foldl_overlay_of_forall_ne (hplain : ∀ v ∈ env, IsPlainName v.1)
    (h : ∀ v ∈ env, keysOfVariable? v.1 ≠ some [key]) :
    Dict.get? key (env.foldl overlay d) = Dict.get? key d := by
  induction env generalizing d with
  | nil => rfl
  | cons v env ih =>
    obtain ⟨hv, hrest⟩ := List.forall_mem_cons.1 hplain
    obtain ⟨hne, hnes⟩ := List.forall_mem_cons.1 h
    rw [List.foldl_cons, ih hrest hnes, get?_overlay_of_ne hv hne]

theorem get?_foldl_overlay (h : env.IsPlain) (hd : Dict.get? key d = none) :
    Dict.get? key (env.foldl overlay d) =
      (env.find? fun v => keysOfVariable? v.1 = some [key]).map fun v => Notation.ofText v.2 := by
  induction env generalizing d with
  | nil => exact hd
  | cons v env ih =>
    have hplain := h.plain v List.mem_cons_self
    have hrest := h.sublist (List.sublist_cons_self v env)
    rw [List.foldl_cons]
    by_cases hv : keysOfVariable? v.1 = some [key]
    · -- No later variable has the key, or its name would differ from this one in case only.
      have hnes : ∀ w ∈ env, keysOfVariable? w.1 ≠ some [key] := by
        intro w hw hkey
        have hname := ((keysOfVariable?_eq_singleton_iff hplain).1 hv).1
        have hname' := ((keysOfVariable?_eq_singleton_iff (hrest.plain w hw)).1 hkey).1
        exact (List.pairwise_cons.1 h.distinct).1 w hw (hasLead_of_lowercase_eq hname)
          (hname.trans hname'.symm)
      rw [get?_foldl_overlay_of_forall_ne hrest.plain hnes, get?_overlay_self hv hd,
        List.find?_cons_of_pos (by simpa using hv)]
      rfl
    · rw [ih hrest ((get?_overlay_of_ne hplain hv).trans hd),
        List.find?_cons_of_neg (by simpa using hv)]

/-- What the layer of the environment holds at a key. -/
theorem get?_ofEnvironment (h : env.IsPlain) (key : String) :
    Dict.get? key (ofEnvironment env) =
      (env.find? fun v => keysOfVariable? v.1 = some [key]).map fun v => Notation.ofText v.2 := by
  rw [ofEnvironment_eq_foldl]
  exact get?_foldl_overlay h rfl

end LogRelay.Layers
