import LogRelay.Proofs.Envelope.Acceptance

/-!
What the container of a cluster has to do with the project that its records go to. The project is what
follows the only slash; what stands before it is not looked at, so a folder or an organization passes
for the project of the same name, and a container without a name for a project without one.
-/

namespace LogRelay.Envelope

variable {bytes bytes' : List UInt8} {e e' : Entry} {labels labels' : Labels}
  {kind kind' name name' cluster : String}

/-- The container is something of some kind: a kind and a name with one slash between them. -/
def Contains (labels : Labels) (kind name : String) : Prop :=
  labels.get? "resource_container" = some (kind ++ "/" ++ name) ∧ '/' ∉ kind.toList ∧
    '/' ∉ name.toList

/-- The entries differ in their containers at most. -/
structure SameButContainer (e e' : Entry) : Prop where
  logName : e'.logName = e.logName
  kind : e'.resource.kind = e.resource.kind
  text : e'.text = e.text
  timestamp : e'.timestamp = e.timestamp
  cluster : e'.resource.labels.get? "cluster_id" = e.resource.labels.get? "cluster_id"

theorem NamesCluster.contains (h : NamesCluster labels name cluster) :
    ∃ kind, Contains labels kind name := by
  obtain ⟨⟨kind, hcontainer, hpath⟩, -⟩ := h
  exact ⟨kind, hcontainer, hpath⟩

/-- There is only one way to see a container as something of some kind. -/
theorem Contains.unique (h : Contains labels kind name) (h' : Contains labels kind' name') :
    kind = kind' ∧ name = name' := by
  obtain ⟨hcontainer, hkind, -⟩ := h
  obtain ⟨hcontainer', hkind', -⟩ := h'
  have hchars : kind.toList ++ '/' :: name.toList = kind'.toList ++ '/' :: name'.toList := by
    have heq := Option.some.inj (hcontainer.symm.trans hcontainer')
    simpa [String.toList_append] using congrArg String.toList heq
  have hspan := Text.span_ne hkind name.toList
  have hspan' := Text.span_ne hkind' name'.toList
  rw [← hchars] at hspan'
  have hkinds : kind.toList = kind'.toList := hspan.takeWhile_eq.symm.trans hspan'.takeWhile_eq
  rw [hkinds, List.append_cancel_left_eq, List.cons.injEq] at hchars
  exact ⟨String.toList_inj.1 hkinds, String.toList_inj.1 hchars.2⟩

/-- A container of another kind names the same cluster. -/
theorem Contains.clusterIds?_eq (h : Contains labels kind name) (h' : Contains labels' kind' name)
    (hcluster : labels'.get? "cluster_id" = labels.get? "cluster_id") :
    clusterIds? labels' = clusterIds? labels := by
  obtain ⟨hcontainer, hkind, hname⟩ := h
  obtain ⟨hcontainer', hkind', -⟩ := h'
  have hsame : (afterOnlySlash? (kind' ++ "/" ++ name)) = afterOnlySlash? (kind ++ "/" ++ name) := by
    rw [afterOnlySlash?_append hkind' hname, afterOnlySlash?_append hkind hname]
  rw [clusterIds?, clusterIds?, hcontainer, hcontainer', hcluster]
  change (afterOnlySlash? (kind' ++ "/" ++ name)).bind _ = (afterOnlySlash? (kind ++ "/" ++ name)).bind _
  rw [hsame]

/-- Where there is a cluster, it decides. -/
theorem namesCluster_of_hasCluster {r : Resource} (hcluster : HasCluster r.labels)
    (h : BelongsTo r name cluster) : NamesCluster r.labels name cluster := by
  obtain ⟨⟨name', cluster'⟩, hids⟩ := Option.isSome_iff_exists.1 (isSome_clusterIds?_iff.2 hcluster)
  rcases h with ⟨-, h⟩ | ⟨-, hother, -⟩
  · exact h
  · exact absurd (clusterIds?_eq_some_iff.1 hids) (hother name' cluster')

/-- A cluster leaves the other labels without a say. -/
theorem routingIds?_of_clusterIds? {r r' : Resource} (hkind : r'.kind = r.kind)
    (hcluster : HasCluster r.labels) (hids : clusterIds? r'.labels = clusterIds? r.labels) :
    routingIds? r' = routingIds? r := by
  obtain ⟨ids, hsome⟩ := Option.isSome_iff_exists.1 (isSome_clusterIds?_iff.2 hcluster)
  rw [routingIds?, routingIds?, hkind, hids, hsome]
  rfl

/-- A record whose project and instance come from the labels of a cluster is of the cluster that they
name and of whatever the container names after its only slash; that is the project of the container
exactly if the container is of the kind `projects`, but a container of any other kind leads to the same
record. Without exactly one slash in the container, or without a cluster, neither comes from there. -/
theorem cluster_goes_to_name_in_container (hread : Json.readWhole Entry.read bytes = .ok e) :
    (∀ record, decodeEntry bytes = .ok (some record) → HasCluster e.resource.labels →
      e.resource.labels.get? "cluster_id" = some record.instanceId ∧
      ∃ kind, Contains e.resource.labels kind record.projectId ∧
        (e.resource.labels.get? "resource_container" = some ("projects/" ++ record.projectId) ↔
          kind = "projects")) ∧
    (∀ bytes' e' kind kind' name, Json.readWhole Entry.read bytes' = .ok e' → SameButContainer e e' →
      HasCluster e.resource.labels → Contains e.resource.labels kind name →
      Contains e'.resource.labels kind' name → decodeEntry bytes' = decodeEntry bytes) ∧
    ∀ record, decodeEntry bytes = .ok (some record) → ¬ HasCluster e.resource.labels →
      NamesDatabase e.resource.labels record.projectId record.instanceId := by
  simp only [decodeEntry_of_read hread, Except.ok.injEq]
  refine ⟨fun record hrecord hcluster => ?_, ?_, fun record hrecord hcluster => ?_⟩
  · obtain ⟨-, hbelongs, -⟩ := record?_eq_some_iff.1 hrecord
    have hnames := namesCluster_of_hasCluster hcluster hbelongs
    obtain ⟨kind, hcontains⟩ := hnames.contains
    have hslash : '/' ∉ "projects".toList := by decide
    have hpath : "projects/" ++ record.projectId = "projects" ++ "/" ++ record.projectId := by
      have hjoin : "projects/" = "projects" ++ "/" := by decide
      rw [hjoin]
    refine ⟨hnames.2, kind, hcontains, fun hcontainer => ?_, ?_⟩
    · rw [hpath] at hcontainer
      exact (hcontains.unique ⟨hcontainer, hslash, hcontains.2.2⟩).1
    · rintro rfl
      rw [hpath]
      exact hcontains.1
  · intro bytes' e' kind kind' name hread' hsame hcluster hcontains hcontains'
    have hids := hcontains.clusterIds?_eq hcontains' hsame.cluster
    rw [decodeEntry_of_read hread', Entry.record?, Entry.record?, hsame.logName, hsame.text,
      hsame.timestamp, routingIds?_of_clusterIds? hsame.kind hcluster hids]
  · obtain ⟨-, hbelongs, -⟩ := record?_eq_some_iff.1 hrecord
    rcases hbelongs with ⟨-, hnames⟩ | ⟨-, -, hnames⟩
    · exact absurd (isSome_clusterIds?_iff.1 (Option.isSome_iff_exists.2
        ⟨_, clusterIds?_eq_some_iff.2 hnames⟩)) hcluster
    · exact hnames

/-- The labels of a cluster in a container. -/
def containerLabels (container : String) : Labels :=
  [("resource_container", container), ("cluster_id", "main")]

theorem hasCluster_containerLabels {container : String} (h : container.toList.count '/' = 1) :
    HasCluster (containerLabels container) :=
  ⟨⟨container, rfl, h⟩, "main", rfl⟩

/-- The bytes of an entry of that cluster. -/
def containerEntry (container : String) : List UInt8 :=
  Text.Utf8.encode (entryJson (folderEntry (containerLabels container) "LOG:  x" "")).render

theorem readWhole_containerEntry (container : String) :
    Json.readWhole Entry.read (containerEntry container) =
      .ok ⟨"projects/shop/logs/postgres.log", ⟨databaseKind, containerLabels container⟩, "LOG:  x",
        ""⟩ := by
  apply readWhole_folderEntry
  show ["resource_container", "cluster_id"].Nodup
  decide

theorem decodeEntry_folder :
    decodeEntry (containerEntry "folders/shop") = .ok (some ⟨"shop", "main", none, "LOG:  x"⟩) := by
  rw [decodeEntry_of_read (readWhole_containerEntry _)]
  decide +kernel

theorem decodeEntry_nameless :
    decodeEntry (containerEntry "projects/") = .ok (some ⟨"", "main", none, "LOG:  x"⟩) := by
  rw [decodeEntry_of_read (readWhole_containerEntry _)]
  decide +kernel

/-- A folder and a project of one name lead to one record. -/
theorem cluster_goes_to_name_in_container_folder :
    decodeEntry (containerEntry "folders/shop") = .ok (some ⟨"shop", "main", none, "LOG:  x"⟩) ∧
      (∃ kind, Contains (containerLabels "folders/shop") kind "shop" ∧
        (some "folders/shop" = some ("projects/" ++ "shop") ↔ kind = "projects")) ∧
      decodeEntry (containerEntry "projects/shop") = decodeEntry (containerEntry "folders/shop") := by
  have hcluster : HasCluster (containerLabels "folders/shop") :=
    hasCluster_containerLabels (by decide)
  obtain ⟨hname, hkind, -⟩ :=
    cluster_goes_to_name_in_container (readWhole_containerEntry "folders/shop")
  refine ⟨decodeEntry_folder, (hname _ decodeEntry_folder hcluster).2, ?_⟩
  exact hkind _ _ "folders" "projects" "shop" (readWhole_containerEntry _) ⟨rfl, rfl, rfl, rfl, rfl⟩
    hcluster ⟨rfl, by decide, by decide⟩ ⟨rfl, by decide, by decide⟩

/-- A folder passes for a project, and a container without a name for a project without one. -/
theorem container_of_other_kind_is_routed :
    ¬ (∀ bytes e record, Json.readWhole Entry.read bytes = .ok e →
      decodeEntry bytes = .ok (some record) → HasCluster e.resource.labels →
      e.resource.labels.get? "resource_container" = some ("projects/" ++ record.projectId)) ∧
    ¬ ∀ bytes e record, Json.readWhole Entry.read bytes = .ok e →
      decodeEntry bytes = .ok (some record) → HasCluster e.resource.labels →
      record.projectId ≠ "" := by
  constructor
  · intro h
    have hcontainer := h _ _ _ (readWhole_containerEntry _) decodeEntry_folder
      (hasCluster_containerLabels (by decide))
    exact absurd hcontainer (by decide)
  · intro h
    exact h _ _ _ (readWhole_containerEntry _) decodeEntry_nameless
      (hasCluster_containerLabels (by decide)) rfl

end LogRelay.Envelope
