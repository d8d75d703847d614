import LogRelay.Files
import Mathlib.Data.List.Basic

/-!
Where a file is found. A path from the root leads to the file that stands there; any other path leads to
the file that the nearest directory has, on the way from where the program runs up to the root.
-/

namespace LogRelay.Files

variable {files : Files} {path found name : String} {directory front : List String}
  {p : List String → Bool}

/-- The directory has what is looked for, and none between it and the first one has. -/
structure IsNearest (p : List String → Bool) (directory front : List String) : Prop where
  has : p front = true
  above : front <+: directory
  nearer : ∀ d, front <+: d → d <+: directory → d ≠ front → p d = false

theorem mem_upwards : front ∈ upwards directory ↔ front <+: directory := by
  induction directory generalizing front with
  | nil => rw [upwards, List.mem_singleton, List.prefix_nil]
  | cons name rest ih =>
    rw [upwards, List.mem_append, List.mem_map, List.mem_singleton, List.prefix_cons_iff, or_comm]
    refine or_congr_right ⟨?_, ?_⟩
    · rintro ⟨d, hd, rfl⟩
      exact ⟨d, rfl, ih.1 hd⟩
    · rintro ⟨d, rfl, hd⟩
      exact ⟨d, ih.2 hd, rfl⟩

/-- Below a name things are as they are without it. -/
theorem isNearest_cons_iff : IsNearest p (name :: directory) (name :: front) ↔
    IsNearest (fun d => p (name :: d)) directory front := by
  constructor
  · rintro ⟨hhas, habove, hnearer⟩
    refine ⟨hhas, (List.cons_prefix_cons.1 habove).2, fun d hfront hd hne => ?_⟩
    exact hnearer (name :: d) (List.cons_prefix_cons.2 ⟨rfl, hfront⟩)
      (List.cons_prefix_cons.2 ⟨rfl, hd⟩) (by simpa using hne)
  · rintro ⟨hhas, habove, hnearer⟩
    refine ⟨hhas, List.cons_prefix_cons.2 ⟨rfl, habove⟩, fun d hfront hd hne => ?_⟩
    obtain ⟨t, rfl⟩ := hfront
    exact hnearer (front ++ t) (List.prefix_append front t) (List.cons_prefix_cons.1 hd).2
      (by simpa using hne)

theorem isNearest_nil_iff : IsNearest p directory [] ↔
    p [] = true ∧ ∀ d, d <+: directory → d ≠ [] → p d = false :=
  ⟨fun h => ⟨h.has, fun d => h.nearer d (List.nil_prefix)⟩,
    fun h => ⟨h.1, List.nil_prefix, fun d _ => h.2 d⟩⟩

theorem find?_upwards : (upwards directory).find? p = some front ↔ IsNearest p directory front := by
  induction directory generalizing front p with
  | nil =>
    rw [upwards, List.find?_singleton, Option.ite_none_right_eq_some, Option.some.injEq]
    constructor
    · rintro ⟨hp, rfl⟩
      exact ⟨hp, List.nil_prefix, fun d _ hd hne => absurd (List.prefix_nil.1 hd) hne⟩
    · rintro ⟨hp, habove, -⟩
      obtain rfl := List.prefix_nil.1 habove
      exact ⟨hp, rfl⟩
  | cons name rest ih =>
    rw [upwards, List.find?_append, List.find?_map, List.find?_singleton, Option.or_eq_some_iff,
      Option.map_eq_some_iff, Option.map_eq_none_iff, Option.ite_none_right_eq_some,
      Option.some.injEq]
    cases front with
    | nil =>
      rw [isNearest_nil_iff]
      constructor
      · rintro (⟨d, -, hd⟩ | ⟨hnone, hp, -⟩)
        · cases hd
        · refine ⟨hp, fun d hd hne => ?_⟩
          obtain rfl | ⟨t, rfl, ht⟩ := List.prefix_cons_iff.1 hd
          · exact absurd rfl hne
          · simpa using List.find?_eq_none.1 hnone t (mem_upwards.2 ht)
      · rintro ⟨hp, hnearer⟩
        refine .inr ⟨List.find?_eq_none.2 fun t ht => ?_, hp, rfl⟩
        simpa using hnearer (name :: t) (List.cons_prefix_cons.2 ⟨rfl, mem_upwards.1 ht⟩)
          (List.cons_ne_nil name t)
    | cons n front =>
      constructor
      · rintro (⟨d, hfind, hd⟩ | ⟨-, -, hd⟩)
        · cases hd
          exact isNearest_cons_iff.2 (ih.1 hfind)
        · cases hd
      · intro h
        obtain ⟨rfl, -⟩ := List.cons_prefix_cons.1 h.above
        exact .inl ⟨front, ih.2 (isNearest_cons_iff.1 h), rfl⟩

/-- The path leads to the file that is found. -/
inductive Finds (files : Files) (path : String) : String → Prop
  | fromRoot (habsolute : isAbsolute path = true) (hfile : files.isFile path = true) :
      Finds files path path
  | nearby {directory front : List String} (hrelative : isAbsolute path = false)
      (hdirectory : files.directory = some directory)
      (hnearest : IsNearest (fun d => files.isFile (join d path)) directory front) :
      Finds files path (join front path)

theorem locate?_eq_some_iff : files.locate? path = some found ↔ Finds files path found := by
  rw [locate?, candidates]
  constructor
  · intro h
    split at h
    · rename_i habsolute
      rw [List.find?_singleton, Option.ite_none_right_eq_some] at h
      obtain ⟨hfile, ⟨⟩⟩ := h
      exact .fromRoot habsolute hfile
    · rename_i hrelative
      cases hdirectory : files.directory with
      | none => simp [hdirectory] at h
      | some directory =>
        rw [hdirectory, Option.map_some, Option.getD_some, List.find?_map] at h
        obtain ⟨front, hfind, rfl⟩ := Option.map_eq_some_iff.1 h
        exact .nearby (Bool.eq_false_iff.2 hrelative) hdirectory (find?_upwards.1 hfind)
  · intro h
    cases h with
    | fromRoot habsolute hfile =>
      rw [if_pos habsolute, List.find?_singleton, if_pos hfile]
    | nearby hrelative hdirectory hnearest =>
      rw [if_neg (Bool.eq_false_iff.1 hrelative), hdirectory, Option.map_some, Option.getD_some,
        List.find?_map]
      exact congrArg (Option.map (join · path)) (find?_upwards.2 hnearest)

end LogRelay.Files
