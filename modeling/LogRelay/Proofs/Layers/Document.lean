import LogRelay.Layers.Load
import LogRelay.Proofs.Files
import LogRelay.Proofs.Layers.Dict

/-!
The layer that a file holds. Whatever the document says, and however often it names a key, the
dictionary that comes of it is ordered by its keys. It is empty only if no file is found; one that
cannot be read, or is no mapping, is an error.
-/

namespace LogRelay.Layers

/-- What every step keeps, a fold keeps. -/
theorem foldlM_invariant {α β : Type} {p : β → Prop} {f : β → α → Option β}
    (hf : ∀ b a b', p b → f b a = some b' → p b') {l : List α} {b b' : β} (hb : p b)
    (h : l.foldlM f b = some b') : p b' := by
  induction l generalizing b with
  | nil =>
    cases h
    exact hb
  | cons a l ih =>
    rw [List.foldlM_cons] at h
    obtain ⟨mid, hmid, h⟩ := Option.bind_eq_some_iff.1 h
    exact ih (hf b a mid hb hmid) h

variable {d : Dict}

/-- A mapping is expanded pair by pair. -/
theorem expand?_mapping (target? : Nat → Option Linked) (depth jumps : Nat)
    (tag : Option (List Char)) (pairs : List (Linked × Linked)) :
    expand? target? (depth + 1) jumps (.mapping tag pairs) =
      if isLocal tag then none
      else do
        let (entries, jumps) ← pairs.foldlM (fun (entries, jumps) (k, v) => do
          let (key, jumps) ← expandKey? target? jumps k
          let (v, jumps) ← expand? target? depth jumps v
          return (Dict.insert key v entries, jumps)) (([] : Dict), jumps)
        return (.dict entries, jumps) := by
  delta expand?
  rfl

theorem isOrdered_of_expand? {target? : Nat → Option Linked} {depth jumps left : Nat}
    {tag : Option (List Char)} {pairs : List (Linked × Linked)}
    (h : expand? target? (depth + 1) jumps (.mapping tag pairs) = some (.dict d, left)) :
    d.IsOrdered := by
  rw [expand?_mapping] at h
  split at h
  · cases h
  · obtain ⟨⟨entries, last⟩, hfold, heq⟩ := Option.bind_eq_some_iff.1 h
    cases heq
    refine foldlM_invariant (p := fun x : Dict × Nat => Dict.IsOrdered x.1) ?_
      (b := ([], jumps)) List.Pairwise.nil hfold
    rintro ⟨entries, jumps⟩ ⟨k, v⟩ b hentries hstep
    obtain ⟨⟨key, jumps⟩, -, hstep⟩ := Option.bind_eq_some_iff.1 hstep
    obtain ⟨⟨v, jumps⟩, -, hstep⟩ := Option.bind_eq_some_iff.1 hstep
    cases hstep
    exact hentries.insert key v

theorem isOrdered_of_dictOfNode? {n? : Option Yaml.Node} (h : dictOfNode? n? = some d) :
    d.IsOrdered := by
  cases n? with
  | none =>
    cases h
    exact .nil
  | some n =>
    obtain ⟨⟨n, l⟩, -, h⟩ := Option.bind_eq_some_iff.1 h
    cases n with
    | scalar p text style =>
      simp only at h
      split at h
      · cases h
        exact .nil
      · cases h
    | mapping tag pairs =>
      obtain ⟨⟨v, left⟩, hv, h⟩ := Option.bind_eq_some_iff.1 h
      cases v with
      | dict d' =>
        cases h
        exact isOrdered_of_expand? hv
      | _ => cases h
    | _ => cases h

theorem isOrdered_of_ofYaml? {text : String} (h : ofYaml? text = some d) : d.IsOrdered := by
  obtain ⟨tokens, -, h⟩ := Option.bind_eq_some_iff.1 h
  obtain ⟨n?, -, h⟩ := Option.bind_eq_some_iff.1 h
  exact isOrdered_of_dictOfNode? h

/-! ### The layer of a file -/

/-- The layer that a path leads to: an empty one where no file is found, and else the mapping that the
file holds. -/
inductive FileLayer (files : Files) (path : String) : Dict → Prop
  | absent (h : ∀ found, ¬ files.Finds path found) : FileLayer files path []
  | present {found text : String} {d : Dict} (hfound : files.Finds path found)
      (hread : files.readText found = .ok text) (hyaml : ofYaml? text = some d) :
      FileLayer files path d

theorem ofFile_eq_ok_iff {files : Files} {path : String} :
    ofFile files path = .ok d ↔ FileLayer files path d := by
  rw [ofFile]
  cases hlocate : files.locate? path with
  | none =>
    have habsent : ∀ found, ¬ files.Finds path found := fun found hfound => by
      rw [Files.locate?_eq_some_iff.2 hfound] at hlocate
      cases hlocate
    constructor
    · rintro ⟨⟩
      exact .absent habsent
    · rintro (_ | ⟨hfound, -, -⟩)
      · rfl
      · exact absurd hfound (habsent _)
  | some found =>
    have hfound := Files.locate?_eq_some_iff.1 hlocate
    constructor
    · intro h
      simp only at h
      split at h
      · cases h
      · rename_i text hread
        split at h
        · rename_i hyaml
          cases h
          exact .present hfound hread hyaml
        · cases h
    · rintro (habsent | @⟨other, text, d, hother, hread, hyaml⟩)
      · exact absurd hfound (habsent found)
      · rw [Files.locate?_eq_some_iff.2 hother] at hlocate
        obtain rfl := Option.some.inj hlocate
        simp only [hread, hyaml]

theorem isOrdered_of_ofFile {files : Files} {path : String} (h : ofFile files path = .ok d) :
    d.IsOrdered := by
  cases ofFile_eq_ok_iff.1 h with
  | absent => exact .nil
  | present _ _ hyaml => exact isOrdered_of_ofYaml? hyaml

end LogRelay.Layers
