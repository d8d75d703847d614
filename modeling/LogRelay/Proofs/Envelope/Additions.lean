import LogRelay.Proofs.Envelope.Acceptance
import LogRelay.Proofs.Json.Accepting
import LogRelay.Proofs.Json.Changes

/-!
What may be added to the text of an entry. Members of other names, with whatever values, and labels
of other names change nothing, wherever they stand, and neither does the order of the members. Every
text that is decoded has the form that the amendments speak of.
-/

namespace LogRelay.Envelope

open Json (Gives IsValue IsBlanks ReadsValues Rearranged ChangedAt Labelled)
open Json (map_eq_map_map)
open Json.Schema (exists_put_of_read)

variable {v v' w w' lead trail text text' : List UInt8} {r : Resource} {e : Entry}

/-! ### Fields of their own -/

theorem independent_resource : Resource.schema.Independent where
  readsFields f hf acc := by
    simp only [Resource.schema, List.mem_cons, List.not_mem_nil, or_false] at hf
    rcases hf with rfl | rfl
    · exact Json.readsValues_readText.map fun s => { acc with kind := some s }
    · exact Json.readsValues_readTextMap.map fun m => { acc with labels := some m }
  optional f hf := by
    simp only [Resource.schema, List.mem_cons, List.not_mem_nil, or_false] at hf
    rcases hf with rfl | rfl <;> rfl
  puts f hf _ _ _ _ h := by
    simp only [Resource.schema, List.mem_cons, List.not_mem_nil, or_false] at hf
    rcases hf with rfl | rfl
    · refine exists_put_of_read (fun s d => { d with kind := some s }) (fun _ _ => rfl)
        (fun s => ⟨fun _ => rfl, ?_⟩) h
      simp only [Resource.schema, List.forall_mem_cons]
      exact ⟨fun hne => absurd rfl hne,
        fun _ => ⟨fun _ => rfl, fun _ _ => map_eq_map_map fun _ => rfl⟩, nofun⟩
    · refine exists_put_of_read (fun m d => { d with labels := some m }) (fun _ _ => rfl)
        (fun m => ⟨fun _ => rfl, ?_⟩) h
      simp only [Resource.schema, List.forall_mem_cons]
      exact ⟨fun _ => ⟨fun _ => rfl, fun _ _ => map_eq_map_map fun _ => rfl⟩,
        fun hne => absurd rfl hne, nofun⟩

/-- The resource of the fields that are read; missing ones are empty. -/
def Resource.Draft.resource (d : Resource.Draft) : Resource := ⟨d.kind.getD "", d.labels.getD []⟩

theorem readsValues_resource : ReadsValues Resource.read :=
  (Json.Schema.readsValues_read independent_resource.readsFields).map Resource.Draft.resource

theorem gives_resource_iff (hv : IsValue v) :
    Gives Resource.read v r ↔ ∃ d, Gives Resource.schema.read v d ∧ d.resource = r := by
  constructor
  · exact (Json.Schema.readsValues_read independent_resource.readsFields).exists_of_map
      Resource.Draft.resource hv
  · rintro ⟨d, hd, rfl⟩
    exact hd.map Resource.Draft.resource

theorem independent_entry : Entry.schema.Independent where
  readsFields f hf acc := by
    simp only [Entry.schema, List.mem_cons, List.not_mem_nil, or_false] at hf
    rcases hf with rfl | rfl | rfl | rfl
    · exact Json.readsValues_readText.map fun s => { acc with logName := some s }
    · exact readsValues_resource.map fun r => { acc with resource := some r }
    · exact Json.readsValues_readText.map fun s => { acc with text := some s }
    · exact Json.readsValues_readText.map fun s => { acc with timestamp := some s }
  optional f hf := by
    simp only [Entry.schema, List.mem_cons, List.not_mem_nil, or_false] at hf
    rcases hf with rfl | rfl | rfl | rfl <;> rfl
  puts f hf _ _ _ _ h := by
    simp only [Entry.schema, List.mem_cons, List.not_mem_nil, or_false] at hf
    rcases hf with rfl | rfl | rfl | rfl
    on_goal 1 =>
      refine exists_put_of_read (fun s d => { d with logName := some s }) (fun _ _ => rfl)
        (fun s => ⟨fun _ => rfl, ?_⟩) h
    on_goal 2 =>
      refine exists_put_of_read (fun r d => { d with resource := some r }) (fun _ _ => rfl)
        (fun r => ⟨fun _ => rfl, ?_⟩) h
    on_goal 3 =>
      refine exists_put_of_read (fun s d => { d with text := some s }) (fun _ _ => rfl)
        (fun s => ⟨fun _ => rfl, ?_⟩) h
    on_goal 4 =>
      refine exists_put_of_read (fun s d => { d with timestamp := some s }) (fun _ _ => rfl)
        (fun s => ⟨fun _ => rfl, ?_⟩) h
    -- Each of the four fields is the one that is set or does not notice.
    all_goals
      simp only [Entry.schema, List.forall_mem_cons]
      refine ⟨fun hne => ?_, fun hne => ?_, fun hne => ?_, fun hne => ?_, nofun⟩
    all_goals first
      | exact absurd rfl hne
      | exact ⟨fun _ => rfl, fun _ _ => map_eq_map_map fun _ => rfl⟩

/-- The entry of the fields that are read; missing ones are empty. -/
def Entry.Draft.entry (d : Entry.Draft) : Entry :=
  ⟨d.logName.getD "", d.resource.getD {}, d.text.getD "", d.timestamp.getD ""⟩

theorem readsValues_entry : ReadsValues Entry.read :=
  (Json.Schema.readsValues_read independent_entry.readsFields).map Entry.Draft.entry

theorem gives_entry_iff (hv : IsValue v) :
    Gives Entry.read v e ↔ ∃ d, Gives Entry.schema.read v d ∧ d.entry = e := by
  constructor
  · exact (Json.Schema.readsValues_read independent_entry.readsFields).exists_of_map
      Entry.Draft.entry hv
  · rintro ⟨d, hd, rfl⟩
    exact hd.map Entry.Draft.entry

/-! ### Additions -/

/-- The names of the members of an entry that matter. -/
def entryNames : List String := ["logName", "resource", "textPayload", "timestamp"]

/-- The names of the members of a resource that matter. -/
def resourceNames : List String := ["type", "labels"]

/-- Something is added to the value of an entry, or its members change places. -/
inductive Adds (v v' : List UInt8) : Prop
  | members (h : Rearranged entryNames v v')
  | resourceMembers (h : ChangedAt "resource" 1 (Rearranged resourceNames) v v')
  | labels (h : ChangedAt "resource" 1 (ChangedAt "labels" 1 (Labelled routingLabels)) v v')

/-- The same for the text of an entry, which may have blanks around it. -/
inductive Amends : List UInt8 → List UInt8 → Prop
  | mk {lead v v' trail : List UInt8} (hlead : IsBlanks lead) (htrail : IsBlanks trail)
      (h : Adds v v') : Amends (lead ++ (v ++ trail)) (lead ++ (v' ++ trail))

theorem Adds.isValue (h : Adds v v') : IsValue v ∧ IsValue v' := by
  cases h with
  | members h => exact h.isValue
  | resourceMembers h => exact h.isValue
  | labels h => exact h.isValue

/-- The change of a resource keeps the place that its records go to. -/
def KeepsRoute (Change : List UInt8 → List UInt8 → Prop) : Prop :=
  ∀ {w w' r}, Change w w' → IsValue w → IsValue w' → Gives Resource.read w r →
    ∃ r', Gives Resource.read w' r' ∧ routingIds? r' = routingIds? r

theorem keepsRoute_rearranged : KeepsRoute (Rearranged resourceNames) := by
  intro w w' r h hw hw' hread
  obtain ⟨d, hd, rfl⟩ := (gives_resource_iff hw).1 hread
  have hd' := Json.Schema.gives_of_rearranged independent_resource h hd
  exact ⟨d.resource, (gives_resource_iff hw').2 ⟨d, hd', rfl⟩, rfl⟩

theorem keepsRoute_labelled : KeepsRoute (ChangedAt "labels" 1 (Labelled routingLabels)) := by
  intro w w' r h hw hw' hread
  obtain ⟨d, hd, rfl⟩ := (gives_resource_iff hw).1 hread
  obtain ⟨mid, u, u', hlabelled, hu, -, hgives, hchanged⟩ :=
    Json.Schema.exists_of_changedAt independent_resource (by decide) rfl rfl h hd
  obtain ⟨labels, hlabels, rfl⟩ :=
    Json.readsValues_readTextMap.exists_of_map (fun m => { mid with labels := some m }) hu hgives
  obtain ⟨labels', hlabels', hagree⟩ := Json.exists_gives_of_labelled hlabelled hlabels
  have hmid := hchanged { mid with labels := some labels' }
    (hlabels'.map fun m => { mid with labels := some m })
  refine ⟨_, (gives_resource_iff hw').2 ⟨_, hmid, rfl⟩, ?_⟩
  exact routingIds?_congr rfl hagree

theorem record?_of_route {e' : Entry} (hname : e'.logName = e.logName)
    (hroute : routingIds? e'.resource = routingIds? e.resource) (htext : e'.text = e.text)
    (htime : e'.timestamp = e.timestamp) : e'.record? = e.record? := by
  rw [Entry.record?, Entry.record?, hname, hroute, htext, htime]

theorem exists_entry_of_changedAt {Change : List UInt8 → List UInt8 → Prop}
    (hchange : KeepsRoute Change) (h : ChangedAt "resource" 1 Change v v')
    (hread : Gives Entry.read v e) : ∃ e', Gives Entry.read v' e' ∧ e'.record? = e.record? := by
  obtain ⟨d, hd, rfl⟩ := (gives_entry_iff h.isValue.1).1 hread
  obtain ⟨mid, w, w', hresource, hw, hw', hgives, hchanged⟩ :=
    Json.Schema.exists_of_changedAt independent_entry (by decide) rfl rfl h hd
  obtain ⟨r, hr, rfl⟩ :=
    readsValues_resource.exists_of_map (fun r => { mid with resource := some r }) hw hgives
  obtain ⟨r', hr', hroute⟩ := hchange hresource hw hw' hr
  have hmid := hchanged { mid with resource := some r' }
    (hr'.map fun r => { mid with resource := some r })
  refine ⟨_, (gives_entry_iff h.isValue.2).2 ⟨_, hmid, rfl⟩, ?_⟩
  exact record?_of_route rfl hroute rfl rfl

theorem exists_entry_of_adds (h : Adds v v') (hread : Gives Entry.read v e) :
    ∃ e', Gives Entry.read v' e' ∧ e'.record? = e.record? := by
  cases h with
  | members h =>
    obtain ⟨d, hd, rfl⟩ := (gives_entry_iff h.isValue.1).1 hread
    have hd' := Json.Schema.gives_of_rearranged independent_entry h hd
    exact ⟨d.entry, (gives_entry_iff h.isValue.2).2 ⟨d, hd', rfl⟩, rfl⟩
  | resourceMembers h => exact exists_entry_of_changedAt keepsRoute_rearranged h hread
  | labels h => exact exists_entry_of_changedAt keepsRoute_labelled h hread

/-! ### Texts -/

/-- A text is decoded as the value in it. -/
theorem decodeEntry_eq_ok_iff {record : Option Record} (hv : IsValue v) (hlead : IsBlanks lead)
    (htrail : IsBlanks trail) : decodeEntry (lead ++ (v ++ trail)) = .ok record ↔
      ∃ e, Gives Entry.read v e ∧ e.record? = record := by
  rw [decodeEntry, Json.map_eq_ok_iff, Json.readWhole,
    readsValues_entry.blanks hlead hv htrail.ends]
  cases hread : Entry.read (v ++ trail) with
  | error cause =>
    constructor
    · rintro ⟨e, h, -⟩
      cases h
    · rintro ⟨e, he, -⟩
      rw [he trail htrail.ends] at hread
      cases hread
  | ok found =>
    obtain ⟨e, rest⟩ := found
    have he := readsValues_entry.gives hv htrail.ends hread
    obtain ⟨-, rfl⟩ := he.eq htrail.ends hread
    simp only [Json.skipBlanks_eq_nil htrail, Except.ok.injEq]
    constructor
    · rintro ⟨e', rfl, hrecord⟩
      exact ⟨e, he, hrecord⟩
    · rintro ⟨e', he', hrecord⟩
      exact ⟨e, rfl, he.unique he' ▸ hrecord⟩

theorem decodeEntry_of_amends {record : Option Record} (h : Amends text text')
    (hdecode : decodeEntry text = .ok record) : decodeEntry text' = .ok record := by
  obtain ⟨hlead, htrail, hadds⟩ := h
  obtain ⟨e, he, rfl⟩ := (decodeEntry_eq_ok_iff hadds.isValue.1 hlead htrail).1 hdecode
  obtain ⟨e', he', hrecord⟩ := exists_entry_of_adds hadds he
  exact (decodeEntry_eq_ok_iff hadds.isValue.2 hlead htrail).2 ⟨e', he', hrecord⟩

/-! ### Decoded texts -/

theorem acceptsFields_resource : Resource.schema.AcceptsFields := by
  intro f hf acc
  simp only [Resource.schema, List.mem_cons, List.not_mem_nil, or_false] at hf
  rcases hf with rfl | rfl
  · exact Json.acceptsOnly_readText.map fun s => { acc with kind := some s }
  · exact (Json.acceptsOnly_readTextMap.mono Json.IsObject.isValue).map
      fun m => { acc with labels := some m }

theorem acceptsFields_entry : Entry.schema.AcceptsFields := by
  intro f hf acc
  have hresource : Json.AcceptsOnly IsValue Resource.read :=
    ((Json.Schema.acceptsOnly_read acceptsFields_resource).mono Json.IsRecord.isValue).map
      Resource.Draft.resource
  simp only [Entry.schema, List.mem_cons, List.not_mem_nil, or_false] at hf
  rcases hf with rfl | rfl | rfl | rfl
  · exact Json.acceptsOnly_readText.map fun s => { acc with logName := some s }
  · exact hresource.map fun r => { acc with resource := some r }
  · exact Json.acceptsOnly_readText.map fun s => { acc with text := some s }
  · exact Json.acceptsOnly_readText.map fun s => { acc with timestamp := some s }

/-- A text that is decoded is the text of an object or a list, with blanks around it. -/
theorem exists_isRecord_of_decodeEntry {record : Option Record}
    (h : decodeEntry text = .ok record) : ∃ lead v trail, IsBlanks lead ∧ Json.IsRecord v ∧
      IsBlanks trail ∧ text = lead ++ (v ++ trail) := by
  obtain ⟨e, hread, -⟩ := Json.map_eq_ok_iff.1 h
  exact Json.exists_of_readWhole
    ((Json.Schema.acceptsOnly_read acceptsFields_entry).map Entry.Draft.entry) hread

/-- A text that is decoded is an object or a list with blanks around it, and decoded to the same however
often it is amended. -/
theorem additions_change_nothing {record : Option Record} (hdecode : decodeEntry text = .ok record) :
    (∃ lead v trail, IsBlanks lead ∧ Json.IsRecord v ∧ IsBlanks trail ∧
        text = lead ++ (v ++ trail)) ∧
      ∀ text', Relation.ReflTransGen Amends text text' → decodeEntry text' = .ok record := by
  refine ⟨exists_isRecord_of_decodeEntry hdecode, fun text' h => ?_⟩
  induction h with
  | refl => exact hdecode
  | tail _ h ih => exact decodeEntry_of_amends h ih

/-- A value that nests, repeats a name and spells half a character. -/
def nestedValue : List UInt8 :=
  Json.utf8 "[\x7b\"a\":[[],null,-0.5e+9],\"a\":\x7b\x7d\x7d, \"\\uD800\"]".toList

/-- The text of an object with a line to itself. -/
def line (fields : List (String × List UInt8)) : List UInt8 :=
  [Json.byte '\t'] ++ (Json.writtenObject fields ++ [Json.byte '\n'])

/-- The labels of a database. -/
def bareLabels : List (String × List UInt8) :=
  [("database_id", Json.utf8 (Json.writeText "shop:main"))]

/-- A resource with those labels. -/
def bareResource (labels : List (String × List UInt8)) : List (String × List UInt8) :=
  [("type", Json.utf8 (Json.writeText databaseKind)), ("labels", Json.writtenObject labels)]

/-- The members of the resource in reverse, after a new one. -/
def grownResource (labels : List (String × List UInt8)) : List (String × List UInt8) :=
  [("zone", nestedValue)] ++ ("labels", Json.writtenObject labels) ::
    [("type", Json.utf8 (Json.writeText databaseKind))]

/-- An entry about a resource. -/
def bareEntry (resource : List (String × List UInt8)) : List (String × List UInt8) :=
  [("logName", Json.utf8 (Json.writeText "postgres.log")), ("resource", Json.writtenObject resource),
    ("textPayload", Json.utf8 (Json.writeText "LOG:  x"))]

/-- The members of the entry in reverse, after a new one. -/
def grownEntry (resource : List (String × List UInt8)) : List (String × List UInt8) :=
  [("insertId", nestedValue), ("textPayload", Json.utf8 (Json.writeText "LOG:  x"))] ++
    ("resource", Json.writtenObject resource) ::
      [("logName", Json.utf8 (Json.writeText "postgres.log"))]

/-- Three amendments: of the members of the entry, of those of its resource, and of its labels. -/
theorem additions_change_nothing_line :
    decodeEntry (line (bareEntry (bareResource bareLabels))) =
        .ok (some ⟨"shop", "main", none, "LOG:  x"⟩) ∧
      decodeEntry (line (grownEntry (grownResource
          (("region", Json.utf8 (Json.writeText "eu")) :: bareLabels)))) =
        .ok (some ⟨"shop", "main", none, "LOG:  x"⟩) := by
  have hdecode : decodeEntry (line (bareEntry (bareResource bareLabels))) =
      .ok (some ⟨"shop", "main", none, "LOG:  x"⟩) := by decide +kernel
  refine ⟨hdecode, (additions_change_nothing hdecode).2 _ ?_⟩
  have hlead : IsBlanks [Json.byte '\t'] := List.forall_mem_singleton.2 rfl
  have htrail : IsBlanks [Json.byte '\n'] := List.forall_mem_singleton.2 rfl
  have hmembers : Amends (line (bareEntry (bareResource bareLabels)))
      (line (grownEntry (bareResource bareLabels))) :=
    .mk hlead htrail (.members (Json.rearranged_written (by decide +kernel) (by decide)
      (List.reverse_perm (bareEntry (bareResource bareLabels) ++ [("insertId", nestedValue)]))))
  have hresourceMembers : Amends (line (grownEntry (bareResource bareLabels)))
      (line (grownEntry (grownResource bareLabels))) :=
    .mk hlead htrail (.resourceMembers (Json.changedAt_written
      (Json.rearranged_written (by decide +kernel) (by decide)
        (List.reverse_perm (bareResource bareLabels ++ [("zone", nestedValue)])))
      (by decide +kernel) (by decide +kernel)))
  have hlabels : Amends (line (grownEntry (grownResource bareLabels)))
      (line (grownEntry (grownResource
        (("region", Json.utf8 (Json.writeText "eu")) :: bareLabels)))) :=
    .mk hlead htrail (.labels (Json.changedAt_written (Json.changedAt_written
      (Json.labelled_written (by decide) (by decide +kernel))
      (by decide +kernel) (by decide +kernel)) (by decide +kernel) (by decide +kernel)))
  exact .tail (.tail (.single hmembers) hresourceMembers) hlabels

end LogRelay.Envelope
