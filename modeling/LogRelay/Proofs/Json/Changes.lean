import LogRelay.Proofs.Json.Records
import Mathlib.Data.List.Nodup

/-!
Changes to a text that a record does not see. Where each field is put in a place of its own
(`Independent`), the members of an object may come in any order and among any others, and the value
of one field may be changed without a look at the rest.
-/

namespace LogRelay.Json

variable {σ : Type} {v w v' w' : List UInt8}

/-! ### Changes -/

/-- The member has a name that is not among those. -/
def Member.IsOther (known : List String) (m : Member) : Prop := ∃ name ∉ known, m.Names name

/-- The member with another value in the same place. -/
def Member.withValue (m : Member) (w : List UInt8) : Member :=
  { m with item := { m.item with value := w } }

/-- The element with another value in the same place. -/
def Item.withValue (i : Item) (w : List UInt8) : Item := { i with value := w }

/-- The members of an object come in any order, among new ones of other names. -/
inductive Rearranged (known : List String) (v v' : List UInt8) : Prop
  | mk {members members' new : List Member} (h : IsObjectOf members v) (h' : IsObjectOf members' v')
      (hnew : ∀ m ∈ new, m.IsOther known) (hperm : members'.Perm (members ++ new))

/-- One value is changed: that of a member of an object, or that of an element of a list. -/
inductive ChangedAt (name : String) (place : Nat) (Change : List UInt8 → List UInt8 → Prop)
    (v v' : List UInt8) : Prop
  | member {before after : List Member} {m : Member} {w : List UInt8} (hname : m.Names name)
      (hchange : Change m.item.value w) (h : IsObjectOf (before ++ m :: after) v)
      (h' : IsObjectOf (before ++ m.withValue w :: after) v')
  | element {before after : List Item} {i : Item} {w : List UInt8} (hplace : before.length = place)
      (hchange : Change i.value w) (h : IsListOf (before ++ i :: after) v)
      (h' : IsListOf (before ++ i.withValue w :: after) v')

theorem Rearranged.isValue {known : List String} (h : Rearranged known v v') : IsValue v ∧ IsValue v' := by
  obtain ⟨h, h', -, -⟩ := h
  exact ⟨h.isValue, h'.isValue⟩

theorem ChangedAt.isValue {name : String} {place : Nat} {Change : List UInt8 → List UInt8 → Prop}
    (h : ChangedAt name place Change v v') : IsValue v ∧ IsValue v' := by
  cases h with
  | member _ _ h h' => exact ⟨h.isValue, h'.isValue⟩
  | element _ _ h h' => exact ⟨h.isValue, h'.isValue⟩

namespace Schema

variable {schema : Schema σ} {f g : Field σ} {acc mid next result : σ} {put : σ → σ}
  {members members' new before after : List Member} {m n : Member} {name name' : String}

/-! ### Independent fields -/

/-- The field does not notice the change of a record. -/
structure Ignores (g : Field σ) (put : σ → σ) : Prop where
  isSet_put : ∀ x, g.isSet (put x) = g.isSet x
  read_put : ∀ x bytes, g.read (put x) bytes = (g.read x bytes).map fun (y, left) => (put y, left)

/-- The change sets the field, and no other field notices. -/
structure IsPut (schema : Schema σ) (f : Field σ) (put : σ → σ) : Prop where
  sets : ∀ x, f.isSet (put x) = true
  ignores : ∀ g ∈ schema.fields, g ≠ f → Ignores g put

/-- Each field reads a value and is put in a place of its own; none has to be there. -/
structure Independent (schema : Schema σ) : Prop where
  readsFields : schema.ReadsFields
  optional : ∀ f ∈ schema.fields, f.optional = true
  puts : ∀ f ∈ schema.fields, ∀ {acc bytes next rest}, f.read acc bytes = .ok (next, rest) →
    ∃ put, put acc = next ∧ (∀ x, f.read x bytes = .ok (put x, rest)) ∧ schema.IsPut f put

/-- A field that is read by a reader of its own and put in its place. -/
theorem exists_put_of_read {α : Type} {read : Reader α} (put : α → σ → σ)
    (hread : ∀ acc bytes, f.read acc bytes = (read bytes).map fun (x, left) => (put x acc, left))
    (hput : ∀ x, schema.IsPut f (put x)) {bytes rest : List UInt8}
    (h : f.read acc bytes = .ok (next, rest)) :
    ∃ p, p acc = next ∧ (∀ x, f.read x bytes = .ok (p x, rest)) ∧ schema.IsPut f p := by
  rw [hread] at h
  obtain ⟨⟨x, left⟩, hx, heq⟩ := map_eq_ok_iff.1 h
  obtain ⟨rfl, rfl⟩ := Prod.mk.inj heq
  refine ⟨put x, rfl, fun y => ?_, hput x⟩
  rw [hread, hx]
  rfl

theorem missing?_eq_none (hs : schema.Independent) (acc : σ) : schema.missing? acc = none := by
  rw [missing?, Option.map_eq_none_iff, List.find?_eq_none]
  intro f hf
  simp [hs.optional f hf]

/-- What a field reads is put into any record in the same way. -/
theorem Independent.exists_put (hs : schema.Independent) (hf : f ∈ schema.fields) (hv : IsValue v)
    (h : Gives (f.read acc) v next) :
    ∃ put, put acc = next ∧ (∀ x, Gives (f.read x) v (put x)) ∧ schema.IsPut f put := by
  obtain ⟨put, hput, hread, hisPut⟩ := hs.puts f hf (h [] ends_nil)
  exact ⟨put, hput, fun x => (hs.readsFields f hf x).gives hv ends_nil (hread x), hisPut⟩

theorem IsPut.gives (h : schema.IsPut f put) (hg : g ∈ schema.fields) (hne : g ≠ f)
    (hgives : Gives (g.read acc) w next) : Gives (g.read (put acc)) w (put next) := by
  intro rest hends
  rw [(h.ignores g hg hne).read_put, hgives rest hends]
  rfl

theorem IsPut.exists_of_gives (h : schema.IsPut f put) (hs : schema.Independent)
    (hg : g ∈ schema.fields) (hne : g ≠ f) (hw : IsValue w)
    (hgives : Gives (g.read (put acc)) w result) :
    ∃ next, put next = result ∧ Gives (g.read acc) w next := by
  have hread := hgives [] ends_nil
  rw [(h.ignores g hg hne).read_put, map_eq_ok_iff] at hread
  obtain ⟨⟨next, left⟩, hnext, heq⟩ := hread
  exact ⟨next, (Prod.mk.inj heq).1, (hs.readsFields g hg acc).gives hw ends_nil hnext⟩

/-! ### Members in any order -/

/-- What becomes of a member: a known one sets its field, which was not set, and any other nothing. -/
inductive Takes (schema : Schema σ) (name : String) (acc : σ) (v : List UInt8) : σ → Prop
  | known {f : Field σ} {next : σ} (hfield : schema.fields.find? (·.key == name) = some f)
      (hset : f.isSet acc = false) (hgives : Gives (f.read acc) v next) : Takes schema name acc v next
  | other (hfield : schema.fields.find? (·.key == name) = none) : Takes schema name acc v acc

theorem gives_memberValue_iff (hv : IsValue v) :
    Gives (schema.memberValue name acc) v next ↔ schema.Takes name acc v next := by
  rw [memberValue]
  constructor
  · intro h
    cases hfield : schema.fields.find? (·.key == name) with
    | none =>
      simp only [hfield] at h
      obtain rfl := (gives_skipValue hv acc).unique h
      exact .other hfield
    | some f =>
      simp only [hfield] at h
      cases hset : f.isSet acc with
      | false =>
        simp only [hset, Bool.false_eq_true, if_false] at h
        exact .known hfield hset h
      | true =>
        simp only [hset, if_true] at h
        cases h [] ends_nil
  · intro h
    cases h with
    | known hfield hset hgives =>
      rw [hfield]
      simpa [hset] using hgives
    | other hfield =>
      rw [hfield]
      exact gives_skipValue hv acc

theorem mem_of_find? (h : schema.fields.find? (·.key == name) = some f) : f ∈ schema.fields :=
  List.mem_of_find?_eq_some h

/-- Two members can change places. -/
theorem Takes.swap (hs : schema.Independent) (hv : IsValue v) (hw : IsValue w)
    (h : schema.Takes name acc v mid) (h' : schema.Takes name' mid w result) :
    ∃ mid', schema.Takes name' acc w mid' ∧ schema.Takes name mid' v result := by
  cases h with
  | other hfield => exact ⟨result, h', .other hfield⟩
  | @known f _ hfield hset hgives =>
    cases h' with
    | other hfield' => exact ⟨acc, .other hfield', .known hfield hset hgives⟩
    | @known g _ hfield' hset' hgives' =>
      obtain ⟨put, rfl, hput, hisPut⟩ := hs.exists_put (mem_of_find? hfield) hv hgives
      have hne : g ≠ f := by
        rintro rfl
        rw [hisPut.sets] at hset'
        cases hset'
      have hg := mem_of_find? hfield'
      obtain ⟨next, rfl, hnext⟩ := hisPut.exists_of_gives hs hg hne hw hgives'
      rw [(hisPut.ignores g hg hne).isSet_put] at hset'
      obtain ⟨put', rfl, -, hisPut'⟩ := hs.exists_put hg hw hnext
      refine ⟨put' acc, .known hfield' hset' hnext, .known hfield ?_ (hput _)⟩
      rw [(hisPut'.ignores f (mem_of_find? hfield) hne.symm).isSet_put]
      exact hset

theorem passes_perm (hs : schema.Independent) (hperm : members.Perm members')
    (hvalues : ∀ m ∈ members, IsValue m.item.value)
    (h : Passes schema.memberValue acc members result) :
    Passes schema.memberValue acc members' result := by
  induction hperm generalizing acc result with
  | nil => exact h
  | cons m _ ih =>
    obtain ⟨name, next, hname, head, tail⟩ := passes_cons_iff.1 h
    exact .cons hname head (ih (fun n hn => hvalues n (List.mem_cons_of_mem m hn)) tail)
  | swap n m members =>
    obtain ⟨name, mid, hname, head, htail⟩ := passes_cons_iff.1 h
    obtain ⟨name', next, hname', head', tail⟩ := passes_cons_iff.1 htail
    have hm := hvalues m List.mem_cons_self
    have hn := hvalues n (List.mem_cons_of_mem m List.mem_cons_self)
    obtain ⟨mid', hfirst, hsecond⟩ :=
      ((gives_memberValue_iff hm).1 head).swap hs hm hn ((gives_memberValue_iff hn).1 head')
    exact .cons hname' ((gives_memberValue_iff hn).2 hfirst)
      (.cons hname ((gives_memberValue_iff hm).2 hsecond) tail)
  | trans hfirst _ ih ih' =>
    exact ih' (fun m hm => hvalues m (hfirst.mem_iff.2 hm)) (ih hvalues h)

theorem passes_append_iff {value : String → σ → Reader σ} :
    Passes value acc (before ++ after) result ↔
      ∃ mid, Passes value acc before mid ∧ Passes value mid after result := by
  induction before generalizing acc with
  | nil => simp [passes_nil_iff]
  | cons m before ih =>
    simp only [List.cons_append, passes_cons_iff, ih]
    constructor
    · rintro ⟨name, next, hname, head, mid, tail, hafter⟩
      exact ⟨mid, ⟨name, next, hname, head, tail⟩, hafter⟩
    · rintro ⟨mid, ⟨name, next, hname, head, tail⟩, hafter⟩
      exact ⟨name, next, hname, head, mid, tail, hafter⟩

theorem find?_eq_none_of_notMem (h : name ∉ schema.fields.map Field.key) :
    schema.fields.find? (·.key == name) = none := by
  rw [List.find?_eq_none]
  intro f hf hkey
  exact h (List.mem_map.2 ⟨f, hf, by simpa using hkey⟩)

/-- Members of other names change nothing. -/
theorem passes_others (hnew : ∀ m ∈ new, m.IsOther (schema.fields.map Field.key))
    (hvalues : ∀ m ∈ new, IsValue m.item.value) : Passes schema.memberValue acc new acc := by
  induction new with
  | nil => exact .nil acc
  | cons m new ih =>
    obtain ⟨name, hother, hname⟩ := hnew m List.mem_cons_self
    have htakes : schema.Takes name acc m.item.value acc := .other (find?_eq_none_of_notMem hother)
    refine .cons hname ((gives_memberValue_iff (hvalues m List.mem_cons_self)).2 htakes) ?_
    exact ih (fun n hn => hnew n (List.mem_cons_of_mem m hn))
      (fun n hn => hvalues n (List.mem_cons_of_mem m hn))

/-- The order of the members and others among them change nothing. -/
theorem gives_of_rearranged (hs : schema.Independent)
    (h : Rearranged (schema.fields.map Field.key) v v') (hread : Gives schema.read v result) :
    Gives schema.read v' result := by
  obtain ⟨hold, hnew, hother, hperm⟩ := h
  obtain ⟨hpasses, hmissing⟩ := (gives_read_object_iff hs.readsFields hold).1 hread
  refine (gives_read_object_iff hs.readsFields hnew).2 ⟨?_, hmissing⟩
  have hvalues := fun m hm => hnew.values m (hperm.mem_iff.2 hm)
  exact passes_perm hs hperm.symm hvalues (passes_append_iff.2 ⟨result, hpasses,
    passes_others hother fun m hm => hvalues m (List.mem_append_right _ hm)⟩)

/-! ### Another value in one place -/

theorem IsPut.fills (h : schema.IsPut f put) {fields : List (Field σ)} {items : List Item}
    (hfields : ∀ g ∈ fields, g ∈ schema.fields ∧ g ≠ f) (hfills : Fills fields acc items result) :
    Fills fields (put acc) items (put result) := by
  induction hfills with
  | done => exact .done _
  | absent hoptional _ ih =>
    exact .absent hoptional (ih fun g hg => hfields g (List.mem_cons_of_mem _ hg))
  | present head _ ih =>
    obtain ⟨hg, hne⟩ := hfields _ List.mem_cons_self
    exact .present (h.gives hg hne head) (ih fun g hg => hfields g (List.mem_cons_of_mem _ hg))

theorem IsPut.exists_of_fills (h : schema.IsPut f put) (hs : schema.Independent)
    {fields : List (Field σ)} {items : List Item}
    (hfields : ∀ g ∈ fields, g ∈ schema.fields ∧ g ≠ f) (hvalues : ∀ i ∈ items, IsValue i.value)
    (hfills : Fills fields (put acc) items result) :
    ∃ mid, put mid = result ∧ Fills fields acc items mid := by
  induction fields generalizing acc items with
  | nil =>
    cases hfills
    exact ⟨acc, rfl, .done acc⟩
  | cons g fields ih =>
    have hrest : ∀ g ∈ fields, g ∈ schema.fields ∧ g ≠ f := fun k hk =>
      hfields k (List.mem_cons_of_mem g hk)
    cases hfills with
    | absent hoptional tail =>
      obtain ⟨mid, hmid, hfills⟩ := ih hrest hvalues tail
      exact ⟨mid, hmid, .absent hoptional hfills⟩
    | present head tail =>
      obtain ⟨hg, hne⟩ := hfields g List.mem_cons_self
      obtain ⟨next, rfl, hnext⟩ := h.exists_of_gives hs hg hne (hvalues _ List.mem_cons_self) head
      obtain ⟨mid, hmid, hfills⟩ := ih hrest (fun i hi => hvalues i (List.mem_cons_of_mem _ hi)) tail
      exact ⟨mid, hmid, .present hnext hfills⟩

/-- One element of a list could as well be read after all others. -/
theorem exists_of_fills (hs : schema.Independent) {fields : List (Field σ)} {first later : List Item}
    {i : Item} (hfields : ∀ g ∈ fields, g ∈ schema.fields) (hnodup : fields.Nodup)
    (hplace : fields[first.length]? = some f)
    (hvalues : ∀ j ∈ first ++ i :: later, IsValue j.value)
    (hfills : Fills fields acc (first ++ i :: later) result) :
    ∃ mid, Gives (f.read mid) i.value result ∧ ∀ w result', IsValue w →
      Gives (f.read mid) w result' → Fills fields acc (first ++ i.withValue w :: later) result' := by
  induction first generalizing fields acc with
  | nil =>
    cases hfills with
    | @present g fields _ next _ _ _ head tail =>
      obtain rfl : f = g := (Option.some.inj hplace).symm
      have hf := hfields f List.mem_cons_self
      have hothers : ∀ g ∈ fields, g ∈ schema.fields ∧ g ≠ f := fun g hg =>
        ⟨hfields g (List.mem_cons_of_mem f hg), fun heq => (List.nodup_cons.1 hnodup).1 (heq ▸ hg)⟩
      obtain ⟨put, rfl, hput, hisPut⟩ := hs.exists_put hf (hvalues i List.mem_cons_self) head
      obtain ⟨mid, rfl, hmid⟩ := hisPut.exists_of_fills hs hothers
        (fun j hj => hvalues j (List.mem_cons_of_mem i hj)) tail
      refine ⟨mid, hput mid, fun w result' hw hgives => ?_⟩
      obtain ⟨put', rfl, hput', hisPut'⟩ := hs.exists_put hf hw hgives
      exact .present (hput' acc) (hisPut'.fills hothers hmid)
  | cons j first ih =>
    cases hfills with
    | @present g fields _ next _ _ _ head tail =>
      obtain ⟨mid, hgives, hmid⟩ := ih (fun k hk => hfields k (List.mem_cons_of_mem g hk))
        (List.nodup_cons.1 hnodup).2 hplace (fun k hk => hvalues k (List.mem_cons_of_mem j hk)) tail
      exact ⟨mid, hgives, fun w result' hw hw' => .present head (hmid w result' hw hw')⟩

/-- The member that is read last sets its field in what the others come to. -/
theorem exists_of_passes (hs : schema.Independent)
    (hfield : schema.fields.find? (·.key == name) = some f) (hname : m.Names name)
    (hvalues : ∀ n ∈ before ++ m :: after, IsValue n.item.value)
    (hpasses : Passes schema.memberValue acc (before ++ m :: after) result) :
    ∃ mid, Gives (f.read mid) m.item.value result ∧ ∀ w result', IsValue w →
      Gives (f.read mid) w result' →
      Passes schema.memberValue acc (before ++ m.withValue w :: after) result' := by
  have hlast : ∀ n : Member, (before ++ n :: after).Perm (before ++ after ++ [n]) := fun n =>
    List.perm_middle.trans (List.perm_append_singleton n _).symm
  have hm := hvalues m (by simp)
  obtain ⟨mid, hothers, hone⟩ := passes_append_iff.1 (passes_perm hs (hlast m) hvalues hpasses)
  obtain ⟨name', next, hname', head, hnil⟩ := passes_cons_iff.1 hone
  obtain rfl := passes_nil_iff.1 hnil
  obtain rfl := Member.Names.unique hname hname'
  cases (gives_memberValue_iff hm).1 head with
  | other hnone =>
    rw [hfield] at hnone
    cases hnone
  | known hsome hset hgives =>
    obtain rfl := Option.some.inj (hfield.symm.trans hsome)
    refine ⟨mid, hgives, fun w result' hw hw' => ?_⟩
    have hvalues' : ∀ n ∈ before ++ after ++ [m.withValue w], IsValue n.item.value := by
      intro n hn
      rcases List.mem_append.1 hn with hn | hn
      · exact hvalues n (by simp only [List.mem_append, List.mem_cons] at hn ⊢; tauto)
      · obtain rfl := List.mem_singleton.1 hn
        exact hw
    refine passes_perm hs (hlast _).symm hvalues' (passes_append_iff.2 ⟨mid, hothers, ?_⟩)
    exact .cons hname ((gives_memberValue_iff hw).2 (.known hfield hset hw')) (.nil _)

/-- Where one value is changed, only its field can change. -/
theorem exists_of_changedAt (hs : schema.Independent) (hkeys : (schema.fields.map Field.key).Nodup)
    {place : Nat} {Change : List UInt8 → List UInt8 → Prop}
    (hfield : schema.fields.find? (·.key == name) = some f)
    (hplace : schema.fields[place]? = some f) (h : ChangedAt name place Change v v')
    (hread : Gives schema.read v result) :
    ∃ mid w w', Change w w' ∧ IsValue w ∧ IsValue w' ∧ Gives (f.read mid) w result ∧
      ∀ result', Gives (f.read mid) w' result' → Gives schema.read v' result' := by
  cases h with
  | @member before after m w hname hchange h h' =>
    obtain ⟨hpasses, -⟩ := (gives_read_object_iff hs.readsFields h).1 hread
    obtain ⟨mid, hgives, hmid⟩ := exists_of_passes hs hfield hname h.values hpasses
    have hw : IsValue w := h'.values (m.withValue w) (by simp)
    refine ⟨mid, m.item.value, w, hchange, h.values m (by simp), hw, hgives, fun result' hw' => ?_⟩
    exact (gives_read_object_iff hs.readsFields h').2
      ⟨hmid w result' hw hw', missing?_eq_none hs _⟩
  | @element before after i w hlength hchange h h' =>
    have hfills := (gives_read_list_iff hs.readsFields h).1 hread
    obtain ⟨mid, hgives, hmid⟩ := exists_of_fills hs (fun _ hg => hg)
      (List.Nodup.of_map Field.key hkeys) (hlength ▸ hplace) h.values hfills
    have hw : IsValue w := h'.values (i.withValue w) (by simp)
    refine ⟨mid, i.value, w, hchange, h.values i (by simp), hw, hgives, fun result' hw' => ?_⟩
    exact (gives_read_list_iff hs.readsFields h').2 (hmid w result' hw hw')

end Schema

/-! ### Maps of texts -/

/-- The value of the member is a text. -/
def Member.HoldsText (m : Member) : Prop :=
  ∃ body, ∃ s : String, Spells body (utf8 s.toList) ∧ m.item.value = byte '"' :: (body ++ [byte '"'])

/-- The members have texts of other names among them, and keep their order. -/
inductive Grown (known : List String) : List Member → List Member → Prop
  | nil : Grown known [] []
  | keep (m : Member) {members members' : List Member} (h : Grown known members members') :
      Grown known (m :: members) (m :: members')
  | add {m : Member} {members members' : List Member} (hname : m.IsOther known)
      (htext : m.HoldsText) (h : Grown known members members') : Grown known members (m :: members')

theorem Grown.refl {known : List String} : (members : List Member) → Grown known members members
  | [] => .nil
  | m :: members => .keep m (.refl members)

/-- The members of an object have texts of other names among them. -/
inductive Labelled (known : List String) (v v' : List UInt8) : Prop
  | mk {members members' : List Member} (h : IsObjectOf members v) (h' : IsObjectOf members' v')
      (hgrown : Grown known members members')

theorem Labelled.isValue {known : List String} (h : Labelled known v v') : IsValue v ∧ IsValue v' := by
  obtain ⟨h, h', -⟩ := h
  exact ⟨h.isValue, h'.isValue⟩

/-- The maps say the same under the known names. -/
def Agree (known : List String) (texts texts' : List (String × String)) : Prop :=
  ∀ name ∈ known, texts'.lookup name = texts.lookup name

variable {known : List String} {acc acc' texts : List (String × String)} {name : String}
  {members members' : List Member}

theorem lookup_withText (acc : List (String × String)) (name s key : String) :
    (withText acc name s).lookup key = if key = name then some s else acc.lookup key := by
  induction acc with
  | nil =>
    by_cases h : key = name
    · simp [withText, h]
    · have hne : (key == name) = false := by simpa using h
      simp [withText, List.lookup_cons, hne, h]
  | cons entry acc ih =>
    obtain ⟨k, t⟩ := entry
    simp only [withText] at ih ⊢
    by_cases hk : k = name
    · have hkept : ((k, t) :: acc).filter (·.1 != name) = acc.filter (·.1 != name) := by simp [hk]
      rw [hkept, ih]
      by_cases h : key = name
      · simp [h]
      · have hne : (key == k) = false := by simpa [hk] using h
        rw [if_neg h, if_neg h, List.lookup_cons, hne]
    · have hkept : ((k, t) :: acc).filter (·.1 != name) = (k, t) :: acc.filter (·.1 != name) := by
        simp [hk]
      rw [hkept, List.cons_append, List.lookup_cons, ih, List.lookup_cons]
      by_cases h : key = k
      · have hne : ¬ key = name := fun heq => hk (h.symm.trans heq)
        simp [h, hk]
      · have hne : (key == k) = false := by simpa using h
        rw [hne]

theorem Agree.withText (h : Agree known acc acc') (name s : String) :
    Agree known (withText acc name s) (withText acc' name s) := by
  intro key hkey
  rw [lookup_withText, lookup_withText, h key hkey]

theorem Agree.withText_other (h : Agree known acc acc') (hname : name ∉ known) (s : String) :
    Agree known acc (Json.withText acc' name s) := by
  intro key hkey
  have hne : key ≠ name := fun heq => hname (heq ▸ hkey)
  rw [lookup_withText, if_neg hne, h key hkey]

theorem exists_passes_of_grown (h : Grown known members members') (hagree : Agree known acc acc')
    (hvalues : ∀ m ∈ members', IsValue m.item.value) (hpasses : Passes textValue acc members texts) :
    ∃ texts', Passes textValue acc' members' texts' ∧ Agree known texts texts' := by
  induction h generalizing acc acc' with
  | nil =>
    obtain rfl := passes_nil_iff.1 hpasses
    exact ⟨acc', .nil acc', hagree⟩
  | keep m _ ih =>
    have hm := hvalues m List.mem_cons_self
    obtain ⟨name, next, hname, head, tail⟩ := passes_cons_iff.1 hpasses
    obtain ⟨s, hs, rfl⟩ := (gives_textValue_iff hm).1 head
    obtain ⟨texts', htail, hsame⟩ :=
      ih (hagree.withText name s) (fun n hn => hvalues n (List.mem_cons_of_mem m hn)) tail
    exact ⟨texts', .cons hname ((gives_textValue_iff hm).2 ⟨s, hs, rfl⟩) htail, hsame⟩
  | @add m _ _ hother htext _ ih =>
    obtain ⟨name, hnew, hname⟩ := hother
    obtain ⟨body, s, hbody, hvalue⟩ := htext
    have hread : Gives readText m.item.value s := by
      rw [hvalue]
      exact gives_readText hbody
    obtain ⟨texts', htail, hsame⟩ := ih (hagree.withText_other hnew s)
      (fun n hn => hvalues n (List.mem_cons_of_mem m hn)) hpasses
    exact ⟨texts', .cons hname ((gives_textValue_iff (hvalues m List.mem_cons_self)).2
      ⟨s, hread, rfl⟩) htail, hsame⟩

/-- Texts of other names leave the known ones as they are. -/
theorem exists_gives_of_labelled (h : Labelled known v v') (hread : Gives readTextMap v texts) :
    ∃ texts', Gives readTextMap v' texts' ∧ Agree known texts texts' := by
  obtain ⟨h, h', hgrown⟩ := h
  obtain ⟨texts', hpasses, hagree⟩ := exists_passes_of_grown hgrown (fun _ _ => rfl) h'.values
    ((gives_readTextMap_iff h).1 hread)
  exact ⟨texts', (gives_readTextMap_iff h').2 hpasses, hagree⟩

/-! ### Written objects -/

/-- A member without blanks. -/
def writtenMember (field : String × List UInt8) : Member :=
  ⟨[], utf8 (field.1.toList.flatMap escapeChar), [], ⟨[], field.2, []⟩⟩

/-- The text of an object of members without blanks. -/
def writtenObject (fields : List (String × List UInt8)) : List UInt8 :=
  match fields.map fun field => (writtenMember field).text with
  | [] => [byte '\x7b', byte '\x7d']
  | part :: parts => byte '\x7b' :: (part ++ (moreParts parts ++ [byte '\x7d']))

section Written

variable {fields fields' new before after : List (String × List UInt8)} {known : List String}
  {name s : String} {place : Nat} {Change : List UInt8 → List UInt8 → Prop}

theorem isObjectOf_written (h : ∀ f ∈ fields, IsValue f.2) :
    IsObjectOf (fields.map writtenMember) (writtenObject fields) where
  text := by
    rw [writtenObject, List.map_map]
    change Encloses _ _ (fields.map fun field => (writtenMember field).text) _
    cases fields.map fun field => (writtenMember field).text with
    | nil => exact .empty (nofun : IsBlanks [])
    | cons part parts => exact .parts part parts
  framed := by
    rw [List.forall_mem_map]
    exact fun f _ => ⟨nofun, (spells_escaped f.1).isLiteral, nofun, ⟨nofun, nofun⟩⟩
  values := by
    rw [List.forall_mem_map]
    exact h

theorem isValue_writtenText (s : String) : IsValue (utf8 (writeText s)) := by
  rw [utf8_writeText]
  exact .text (spells_escaped s).isLiteral

theorem rearranged_written (hvalues : ∀ f ∈ fields', IsValue f.2) (hnew : ∀ f ∈ new, f.1 ∉ known)
    (hperm : fields'.Perm (fields ++ new)) :
    Rearranged known (writtenObject fields) (writtenObject fields') := by
  have hold : ∀ f ∈ fields, IsValue f.2 := fun f hf =>
    hvalues f (hperm.mem_iff.2 (List.mem_append_left new hf))
  have hothers : ∀ m ∈ new.map writtenMember, m.IsOther known := by
    rw [List.forall_mem_map]
    exact fun f hf => ⟨f.1, hnew f hf, spells_escaped f.1⟩
  refine .mk (isObjectOf_written hold) (isObjectOf_written hvalues) hothers ?_
  rw [← List.map_append]
  exact hperm.map writtenMember

theorem changedAt_written (hchange : Change v w)
    (hvalues : ∀ f ∈ before ++ (name, v) :: after, IsValue f.2) (hw : IsValue w) :
    ChangedAt name place Change (writtenObject (before ++ (name, v) :: after))
      (writtenObject (before ++ (name, w) :: after)) := by
  have hvalues' : ∀ f ∈ before ++ (name, w) :: after, IsValue f.2 := by
    simp only [List.forall_mem_append, List.forall_mem_cons] at hvalues ⊢
    exact ⟨hvalues.1, hw, hvalues.2.2⟩
  have hname : (writtenMember (name, v)).Names name := spells_escaped name
  have h := isObjectOf_written hvalues
  have h' := isObjectOf_written hvalues'
  rw [List.map_append, List.map_cons] at h h'
  exact .member hname hchange h h'

theorem labelled_written (hname : name ∉ known) (hvalues : ∀ f ∈ fields, IsValue f.2) :
    Labelled known (writtenObject fields) (writtenObject ((name, utf8 (writeText s)) :: fields)) := by
  have htext : (writtenMember (name, utf8 (writeText s))).HoldsText :=
    ⟨_, s, spells_escaped s, utf8_writeText s⟩
  have hvalues' : ∀ f ∈ (name, utf8 (writeText s)) :: fields, IsValue f.2 := by
    rw [List.forall_mem_cons]
    exact ⟨isValue_writtenText s, hvalues⟩
  have hnew := isObjectOf_written hvalues'
  refine .mk (isObjectOf_written hvalues) hnew (.add ⟨name, hname, spells_escaped name⟩ htext ?_)
  exact .refl _

end Written

end LogRelay.Json
