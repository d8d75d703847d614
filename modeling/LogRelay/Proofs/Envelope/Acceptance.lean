import LogRelay.Proofs.Envelope.RoundTrip
import LogRelay.Proofs.Time.Grammar

/-!
Which entries become records, and to whom they belong. A cluster that the labels name goes before a
database; nothing but the name of the log, the kind of resource and four of its labels counts.
-/

namespace LogRelay.Envelope

/-- The labels name a cluster: the container is a path of two parts, the second of them the
project. -/
def NamesCluster (labels : Labels) (project cluster : String) : Prop :=
  (∃ front, labels.get? "resource_container" = some (front ++ "/" ++ project) ∧
      '/' ∉ front.toList ∧ '/' ∉ project.toList) ∧
    labels.get? "cluster_id" = some cluster

/-- The labels name a database: the instance follows the last colon of its id. The project comes
before that colon unless a label of its own says it. -/
def NamesDatabase (labels : Labels) (project instanceId : String) : Prop :=
  ∃ front, labels.get? "database_id" = some (front ++ ":" ++ instanceId) ∧
    ':' ∉ instanceId.toList ∧ project = (labels.get? "project_id").getD front

/-- The resource belongs to the project and is the instance. -/
inductive BelongsTo (r : Resource) (project instanceId : String) : Prop
  | cluster (hkind : r.kind = "alloydb.googleapis.com/Instance" ∨ r.kind = "cloudsql_database")
      (h : NamesCluster r.labels project instanceId)
  | database (hkind : r.kind = "cloudsql_database")
      (hother : ∀ project' cluster, ¬ NamesCluster r.labels project' cluster)
      (h : NamesDatabase r.labels project instanceId)

/-- The labels that say where a resource belongs. -/
def routingLabels : List String := ["resource_container", "cluster_id", "database_id", "project_id"]

/-- There is a container with exactly one slash, and a cluster. -/
def HasCluster (labels : Labels) : Prop :=
  (∃ container, labels.get? "resource_container" = some container ∧
      container.toList.count '/' = 1) ∧
    ∃ cluster, labels.get? "cluster_id" = some cluster

/-- There is a database id with a colon. -/
def HasDatabase (labels : Labels) : Prop :=
  ∃ id, labels.get? "database_id" = some id ∧ ':' ∈ id.toList

/-- The entry is a PostgreSQL server log with labels that tell where it belongs. -/
def Entry.IsAccepted (e : Entry) : Prop :=
  "postgres.log".toList <:+ e.logName.toList ∧
    ((e.resource.kind = "alloydb.googleapis.com/Instance" ∨
          e.resource.kind = "cloudsql_database") ∧ HasCluster e.resource.labels ∨
      e.resource.kind = "cloudsql_database" ∧ HasDatabase e.resource.labels)

variable {s project instanceId : String} {labels : Labels} {r r' : Resource} {e e' : Entry}

/-! ### Taking texts apart -/

theorem afterOnlySlash?_eq_some_iff : afterOnlySlash? s = some project ↔
    ∃ front, s = front ++ "/" ++ project ∧ '/' ∉ front.toList ∧ '/' ∉ project.toList := by
  constructor
  · intro h
    have hcount : s.toList.count '/' = 1 := (Option.ite_none_right_eq_some.1 h).1
    have hmem : '/' ∈ s.toList := List.count_pos_iff.1 (by omega)
    obtain ⟨front, rest, htext, hfront⟩ := List.eq_append_cons_of_mem hmem
    have hrest : '/' ∉ rest := by
      rw [htext, List.count_append, List.count_cons_self] at hcount
      exact List.count_eq_zero.1 (by omega)
    have hs : s = String.ofList front ++ "/" ++ String.ofList rest := by
      rw [← String.toList_inj, htext]
      simp [String.toList_append]
    rw [hs, afterOnlySlash?_append (by simpa using hfront) (by simpa using hrest)] at h
    obtain rfl := Option.some.inj h
    exact ⟨String.ofList front, hs, by simpa using hfront, by simpa using hrest⟩
  · rintro ⟨front, rfl, hfront, hproject⟩
    exact afterOnlySlash?_append hfront hproject

theorem isSome_afterOnlySlash?_iff :
    (afterOnlySlash? s).isSome = true ↔ s.toList.count '/' = 1 := by
  rw [afterOnlySlash?]
  split <;> simp [*]

theorem splitLastColon?_eq_some_iff : splitLastColon? s = some (project, instanceId) ↔
    s = project ++ ":" ++ instanceId ∧ ':' ∉ instanceId.toList := by
  constructor
  · intro h
    have hmem : ':' ∈ s.toList.reverse := (Option.ite_none_right_eq_some.1 h).1
    obtain ⟨last, front, htext, hlast⟩ := List.eq_append_cons_of_mem hmem
    have hs : s = String.ofList front.reverse ++ ":" ++ String.ofList last.reverse := by
      rw [← String.toList_inj, ← List.reverse_inj, htext]
      simp [String.toList_append]
    rw [hs, splitLastColon?_append (by simpa using hlast)] at h
    obtain ⟨rfl, rfl⟩ := Prod.mk.inj (Option.some.inj h)
    exact ⟨hs, by simpa using hlast⟩
  · rintro ⟨rfl, hcolon⟩
    exact splitLastColon?_append hcolon

theorem isSome_splitLastColon?_iff : (splitLastColon? s).isSome = true ↔ ':' ∈ s.toList := by
  rw [splitLastColon?]
  split <;> simp_all

/-! ### Labels -/

theorem clusterIds?_eq_some_iff :
    clusterIds? labels = some (project, instanceId) ↔ NamesCluster labels project instanceId := by
  simp only [clusterIds?, Option.bind_eq_bind, Option.bind_eq_some_iff, Option.pure_def,
    Option.some.injEq, Prod.mk.injEq, afterOnlySlash?_eq_some_iff, NamesCluster]
  constructor
  · rintro ⟨container, hcontainer, project, ⟨front, rfl, hfront, hproject⟩, cluster, hcluster,
      rfl, rfl⟩
    exact ⟨⟨front, hcontainer, hfront, hproject⟩, hcluster⟩
  · rintro ⟨⟨front, hcontainer, hfront, hproject⟩, hcluster⟩
    exact ⟨_, hcontainer, _, ⟨front, rfl, hfront, hproject⟩, _, hcluster, rfl, rfl⟩

theorem databaseIds?_eq_some_iff :
    databaseIds? labels = some (project, instanceId) ↔ NamesDatabase labels project instanceId := by
  simp only [databaseIds?, Option.bind_eq_bind, Option.bind_eq_some_iff, Option.pure_def,
    Option.some.injEq, Prod.mk.injEq, Prod.exists, splitLastColon?_eq_some_iff, NamesDatabase]
  constructor
  · rintro ⟨id, hid, front, last, ⟨rfl, hcolon⟩, rfl, rfl⟩
    exact ⟨front, hid, hcolon, rfl⟩
  · rintro ⟨front, hid, hcolon, rfl⟩
    exact ⟨_, hid, front, instanceId, ⟨rfl, hcolon⟩, rfl, rfl⟩

theorem isSome_clusterIds?_iff : (clusterIds? labels).isSome = true ↔ HasCluster labels := by
  simp only [Option.isSome_iff_exists, Prod.exists, clusterIds?_eq_some_iff]
  constructor
  · rintro ⟨project, cluster, ⟨front, hcontainer, hfront, hproject⟩, hcluster⟩
    refine ⟨⟨_, hcontainer, isSome_afterOnlySlash?_iff.1 ?_⟩, cluster, hcluster⟩
    rw [afterOnlySlash?_append hfront hproject]
    rfl
  · rintro ⟨⟨container, hcontainer, hcount⟩, cluster, hcluster⟩
    obtain ⟨project, hproject⟩ :=
      Option.isSome_iff_exists.1 (isSome_afterOnlySlash?_iff.2 hcount)
    obtain ⟨front, rfl, hpath⟩ := afterOnlySlash?_eq_some_iff.1 hproject
    exact ⟨project, cluster, ⟨front, hcontainer, hpath⟩, hcluster⟩

theorem isSome_databaseIds?_iff : (databaseIds? labels).isSome = true ↔ HasDatabase labels := by
  simp only [Option.isSome_iff_exists, Prod.exists, databaseIds?_eq_some_iff]
  constructor
  · rintro ⟨project, instanceId, front, hid, -, -⟩
    refine ⟨_, hid, ?_⟩
    simp [String.toList_append]
  · rintro ⟨id, hid, hcolon⟩
    obtain ⟨⟨front, instanceId⟩, hsplit⟩ :=
      Option.isSome_iff_exists.1 (isSome_splitLastColon?_iff.2 hcolon)
    obtain ⟨rfl, hlast⟩ := splitLastColon?_eq_some_iff.1 hsplit
    exact ⟨_, instanceId, front, hid, hlast, rfl⟩

/-! ### Resources -/

theorem clusterIds?_eq_none_iff :
    clusterIds? labels = none ↔ ∀ project cluster, ¬ NamesCluster labels project cluster := by
  simp only [Option.eq_none_iff_forall_ne_some, Prod.forall, ne_eq, clusterIds?_eq_some_iff]

theorem routingIds?_eq_some_iff :
    routingIds? r = some (project, instanceId) ↔ BelongsTo r project instanceId := by
  obtain ⟨kind, labels⟩ := r
  by_cases hcluster : kind = clusterKind
  · subst hcluster
    rw [routingIds?, if_pos rfl, clusterIds?_eq_some_iff]
    constructor
    · exact fun h => .cluster (.inl rfl) h
    · rintro (⟨-, h⟩ | ⟨hkind, -, -⟩)
      · exact h
      · have hne : clusterKind ≠ "cloudsql_database" := by decide
        exact absurd hkind hne
  by_cases hdatabase : kind = databaseKind
  · subst hdatabase
    rw [routingIds?_database, Option.orElse_eq_orElse, Option.orElse_eq_or, Option.or_eq_some_iff,
      clusterIds?_eq_some_iff, clusterIds?_eq_none_iff, databaseIds?_eq_some_iff]
    constructor
    · rintro (h | ⟨hother, h⟩)
      · exact .cluster (.inr rfl) h
      · exact .database rfl hother h
    · rintro (⟨-, h⟩ | ⟨-, hother, h⟩)
      · exact .inl h
      · exact .inr ⟨hother, h⟩
  · rw [routingIds?, if_neg hcluster, if_neg hdatabase]
    constructor
    · intro h
      cases h
    · rintro (⟨hkind | hkind, -⟩ | ⟨hkind, -, -⟩)
      · exact absurd hkind hcluster
      · exact absurd hkind hdatabase
      · exact absurd hkind hdatabase

theorem isSome_routingIds?_iff : (routingIds? r).isSome = true ↔
    (r.kind = "alloydb.googleapis.com/Instance" ∨ r.kind = "cloudsql_database") ∧
        HasCluster r.labels ∨
      r.kind = "cloudsql_database" ∧ HasDatabase r.labels := by
  simp only [← isSome_clusterIds?_iff, ← isSome_databaseIds?_iff]
  obtain ⟨kind, labels⟩ := r
  by_cases hcluster : kind = clusterKind
  · subst hcluster
    rw [routingIds?, if_pos rfl]
    simp [clusterKind]
  by_cases hdatabase : kind = databaseKind
  · subst hdatabase
    rw [routingIds?_database, Option.orElse_eq_orElse, Option.orElse_eq_or, Option.isSome_or]
    simp [databaseKind]
  · rw [routingIds?, if_neg hcluster, if_neg hdatabase]
    rw [clusterKind] at hcluster
    rw [databaseKind] at hdatabase
    simp [hcluster, hdatabase]

/-- Only the kind and the four labels count. -/
theorem routingIds?_congr (hkind : r'.kind = r.kind)
    (hlabels : ∀ name ∈ routingLabels, r'.labels.get? name = r.labels.get? name) :
    routingIds? r' = routingIds? r := by
  have hclusterIds : clusterIds? r'.labels = clusterIds? r.labels := by
    rw [clusterIds?, hlabels "resource_container" (by decide), hlabels "cluster_id" (by decide)]
    rfl
  have hdatabaseIds : databaseIds? r'.labels = databaseIds? r.labels := by
    rw [databaseIds?, hlabels "database_id" (by decide), hlabels "project_id" (by decide)]
    rfl
  rw [routingIds?, routingIds?, hkind, hclusterIds, hdatabaseIds]

/-! ### Entries -/

theorem endsWith_iff {ending : String} : endsWith s ending = true ↔ ending.toList <:+ s.toList :=
  List.isSuffixOf_iff_suffix

theorem record?_eq_some_iff {record : Record} : e.record? = some record ↔
    "postgres.log".toList <:+ e.logName.toList ∧
      BelongsTo e.resource record.projectId record.instanceId ∧
      (∀ t, record.occurredAt = some t ↔ Time.Rfc3339.Denotes e.timestamp t) ∧
      record.content = e.text := by
  obtain ⟨project, instanceId, occurredAt, content⟩ := record
  have htime : (∀ t, occurredAt = some t ↔ Time.Rfc3339.Denotes e.timestamp t) ↔
      Time.Rfc3339.parse? e.timestamp = occurredAt := by
    simp only [← Time.Rfc3339.parse?_eq_some_iff]
    constructor
    · intro h
      exact Option.ext fun t => (h t).symm
    · rintro rfl t
      rfl
  dsimp only
  rw [htime, ← routingIds?_eq_some_iff, Entry.record?, Option.ite_none_right_eq_some,
    endsWith_iff]
  simp only [Option.map_eq_some_iff, Prod.exists, Record.mk.injEq]
  constructor
  · rintro ⟨hend, project, instanceId, hids, rfl, rfl, rfl, rfl⟩
    exact ⟨hend, hids, rfl, rfl⟩
  · rintro ⟨hend, hids, rfl, rfl⟩
    exact ⟨hend, project, instanceId, hids, rfl, rfl, rfl, rfl⟩

theorem isSome_record?_iff : e.record?.isSome = true ↔ e.IsAccepted := by
  rw [Entry.IsAccepted, ← isSome_routingIds?_iff, Entry.record?, ← endsWith_iff]
  change _ ↔ endsWith e.logName logNameEnd = true ∧ _
  by_cases hend : endsWith e.logName logNameEnd = true
  · simp [hend]
  · simp [hend]

/-- Project and instance of a record. -/
def ids (record : Record) : String × String := (record.projectId, record.instanceId)

theorem map_ids_record?_congr (hname : e'.logName = e.logName)
    (hkind : e'.resource.kind = e.resource.kind)
    (hlabels : ∀ name ∈ routingLabels,
      e'.resource.labels.get? name = e.resource.labels.get? name) :
    e'.record?.map ids = e.record?.map ids := by
  have hids : ∀ entry : Entry, entry.record?.map ids =
      if endsWith entry.logName logNameEnd then routingIds? entry.resource else none := by
    intro entry
    rw [Entry.record?]
    split
    · rw [Option.map_map]
      exact Option.map_id'
    · rfl
  rw [hids, hids, hname, routingIds?_congr hkind hlabels]

/-! ### Decoding -/

variable {bytes : List UInt8}

theorem decodeEntry_of_read (hread : Json.readWhole Entry.read bytes = .ok e) :
    decodeEntry bytes = .ok e.record? := by
  rw [decodeEntry, hread]
  rfl

/-- An entry becomes a record exactly if it is a PostgreSQL server log with labels that tell where
it belongs; any other is passed over. The record is of the project and the instance that the labels
tell, of the instant that the timestamp says, if it says one, and of the text as it is. Entries that
agree on the name of the log, the kind of resource and the four labels have the same fate and
belong to the same instance. -/
theorem accepts_exactly_entries_that_belong (hread : Json.readWhole Entry.read bytes = .ok e) :
    ((∃ record, decodeEntry bytes = .ok (some record)) ↔ e.IsAccepted) ∧
    (decodeEntry bytes = .ok none ↔ ¬ e.IsAccepted) ∧
    (∀ record, decodeEntry bytes = .ok (some record) ↔
      "postgres.log".toList <:+ e.logName.toList ∧
        BelongsTo e.resource record.projectId record.instanceId ∧
        (∀ t, record.occurredAt = some t ↔ Time.Rfc3339.Denotes e.timestamp t) ∧
        record.content = e.text) ∧
    ∀ bytes' e', Json.readWhole Entry.read bytes' = .ok e' → e'.logName = e.logName →
      e'.resource.kind = e.resource.kind →
      (∀ name ∈ routingLabels, e'.resource.labels.get? name = e.resource.labels.get? name) →
      (decodeEntry bytes').map (·.map ids) = (decodeEntry bytes).map (·.map ids) := by
  rw [decodeEntry_of_read hread]
  refine ⟨?_, ?_, fun record => ?_, fun bytes' e' hread' hname hkind hlabels => ?_⟩
  · rw [← isSome_record?_iff, Option.isSome_iff_exists]
    simp only [Except.ok.injEq]
  · rw [← isSome_record?_iff, Option.not_isSome_iff_eq_none, Except.ok.injEq]
  · rw [Except.ok.injEq, record?_eq_some_iff]
  · rw [decodeEntry_of_read hread']
    exact congrArg Except.ok (map_ids_record?_congr hname hkind hlabels)

/-- A container of three parts names no cluster. -/
def folderLabels : Labels :=
  [("resource_container", "folders/7/shop"), ("cluster_id", "c1"),
    ("database_id", "example.com:old:main"), ("project_id", "shop")]

/-- The JSON of an entry of a database in a folder. -/
def folderEntry (labels : Labels) (content written : String) : List Member :=
  [.timestamp written, .text content, .resource databaseKind labels true,
    .logName "projects/shop/logs/postgres.log"]

theorem readWhole_folderEntry (labels : Labels) (hnames : (labels.map Prod.fst).Nodup)
    (content written : String) :
    Json.readWhole Entry.read
        (Text.Utf8.encode (entryJson (folderEntry labels content written)).render) =
      .ok ⟨"projects/shop/logs/postgres.log", ⟨databaseKind, labels⟩, content, written⟩ := by
  have hkeys : ((folderEntry labels content written).map Member.key).Nodup := by
    change ["timestamp", "textPayload", "resource", "logName"].Nodup
    decide
  have hlabels : ∀ m ∈ folderEntry labels content written, m.HasDistinctLabels := by
    simpa [folderEntry, Member.HasDistinctLabels] using hnames
  have hset : ∀ m ∈ folderEntry labels content written, m.isSet {} = false := by
    simp [folderEntry, Member.isSet]
  have hread := Json.read_object (readsMembers_members hkeys hlabels hset) rfl []
  rw [List.append_nil] at hread
  rw [Json.Value.render, Json.encode_ofList, Json.readWhole, Entry.read, entryJson, hread]
  rfl

/-- The other entry has another text, one more label and no time that can be read. -/
theorem accepts_exactly_entries_that_belong_folder :
    decodeEntry (Text.Utf8.encode (entryJson (folderEntry folderLabels "LOG:  x"
        "2016-12-31 23:59:60.0000000019\u221200:30")).render) =
        .ok (some ⟨"shop", "main", some ⟨1483230599, 1000000001⟩, "LOG:  x"⟩) ∧
      (decodeEntry (Text.Utf8.encode (entryJson (folderEntry (("region", "eu") :: folderLabels) ""
        "today")).render)).map (·.map ids) = .ok (some ("shop", "main")) := by
  have hread := readWhole_folderEntry folderLabels (by decide) "LOG:  x"
    "2016-12-31 23:59:60.0000000019\u221200:30"
  have hread' := readWhole_folderEntry (("region", "eu") :: folderLabels) (by decide) "" "today"
  have htime : Time.Rfc3339.parse? "2016-12-31 23:59:60.0000000019\u221200:30" =
      some ⟨1483230599, 1000000001⟩ := by decide +kernel
  have hother : clusterIds? folderLabels = none := by decide +kernel
  obtain ⟨-, -, hrecord, hagree⟩ := accepts_exactly_entries_that_belong hread
  have hdecode := (hrecord ⟨"shop", "main", some ⟨1483230599, 1000000001⟩, "LOG:  x"⟩).2
    ⟨by decide, .database rfl (clusterIds?_eq_none_iff.1 hother)
      ⟨"example.com:old", rfl, by decide, rfl⟩,
      fun t => by rw [← Time.Rfc3339.parse?_eq_some_iff, htime], rfl⟩
  have hsame := hagree _ _ hread' rfl rfl (by decide +kernel)
  refine ⟨hdecode, ?_⟩
  rw [hsame, hdecode]
  rfl

end LogRelay.Envelope
