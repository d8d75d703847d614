import LogRelay.Postgres.Parser
import LogRelay.Proofs.Envelope.Container
import LogRelay.Proofs.Routing

/-!
The ids of servers that are given none. Such an id is joined as a provider joins the id of a database,
so the lines of a database carry the id that its entries are labelled with, and since an instance holds
no colon, two servers have one id only if they are of one project and one instance.
-/

namespace LogRelay

variable {s t : Server} {r : Record}

theorem Server.systemId_identity (h : s.systemId = none) :
    s.identity.systemId = s.projectId ++ ":" ++ s.instanceId := by
  rw [identity, h]
  rfl

/-- What is joined is taken apart at the last colon, so nothing else is joined to the same id. -/
theorem Server.systemId_eq_iff {project instanceId : String} (h : s.systemId = none)
    (hs : ':' ∉ s.instanceId.toList) (hcolon : ':' ∉ instanceId.toList) :
    s.identity.systemId = project ++ ":" ++ instanceId ↔
      s.projectId = project ∧ s.instanceId = instanceId := by
  rw [systemId_identity h]
  refine ⟨fun heq => ?_, fun ⟨hproject, hinstance⟩ => by rw [hproject, hinstance]⟩
  have hsplit := congrArg Envelope.splitLastColon? heq
  rw [Envelope.splitLastColon?_append hs, Envelope.splitLastColon?_append hcolon] at hsplit
  exact Prod.mk.inj (Option.some.inj hsplit)

theorem mem_matchingServers {servers : List Server} : s ∈ matchingServers servers r ↔
    s ∈ servers ∧ s.projectId = r.projectId ∧ s.instanceId = r.instanceId := by
  simp [Router.matchingServers_eq]

/-- The lines of a record go to the servers that match it, unless there are none. -/
theorem Router.map_identity_route (router : Router) (r : Record) : router.route r = [] ∨
    (router.route r).map (·.identity) = (matchingServers router.servers r).map Server.identity := by
  rw [route]
  split
  · exact .inl rfl
  · split
    · exact .inl rfl
    · rw [List.map_map]
      exact .inr rfl

namespace Envelope

variable {bytes : List UInt8} {e : Entry} {record : Record} {labels : Labels}
  {project instanceId : String}

theorem NamesCluster.hasCluster (h : NamesCluster labels project instanceId) : HasCluster labels :=
  isSome_clusterIds?_iff.1 (Option.isSome_iff_exists.2 ⟨_, clusterIds?_eq_some_iff.2 h⟩)

/-- A record that no cluster is named for, of a project that no label says, is of the project and the
instance that are joined in the id of the database. -/
theorem databaseId_of_decodeEntry (hread : Json.readWhole Entry.read bytes = .ok e)
    (hrecord : decodeEntry bytes = .ok (some record)) (hcluster : ¬ HasCluster e.resource.labels)
    (hproject : e.resource.labels.get? "project_id" = none) :
    e.resource.labels.get? "database_id" = some (record.projectId ++ ":" ++ record.instanceId) ∧
      ':' ∉ record.instanceId.toList := by
  rw [decodeEntry_of_read hread, Except.ok.injEq] at hrecord
  obtain ⟨-, hbelongs, -⟩ := record?_eq_some_iff.1 hrecord
  rcases hbelongs with ⟨-, hnames⟩ | ⟨-, -, front, hid, hcolon, hfront⟩
  · exact absurd hnames.hasCluster hcluster
  · rw [hproject, Option.getD_none] at hfront
    rw [hfront]
    exact ⟨hid, hcolon⟩

/-- The lines of a database that is known by its id alone go to servers of its project and instance, and
a server without an id of its own gives them that very id; if its instance holds no colon, it gets
lines of the databases of that id and of no other. Two such servers have one id exactly if they are of
one project and one instance. -/
theorem default_ids_are_those_of_databases :
    (∀ bytes e record (router : Router), Json.readWhole Entry.read bytes = .ok e →
      decodeEntry bytes = .ok (some record) → ¬ HasCluster e.resource.labels →
      e.resource.labels.get? "project_id" = none →
      (router.route record = [] ∨ (router.route record).map (·.identity) =
          (matchingServers router.servers record).map Server.identity) ∧
        ∀ s ∈ router.servers, s.systemId = none →
          (s ∈ matchingServers router.servers record →
            e.resource.labels.get? "database_id" = some s.identity.systemId) ∧
          (':' ∉ s.instanceId.toList →
            e.resource.labels.get? "database_id" = some s.identity.systemId →
            s ∈ matchingServers router.servers record)) ∧
    ∀ s t : Server, s.systemId = none → t.systemId = none → ':' ∉ s.instanceId.toList →
      ':' ∉ t.instanceId.toList →
      (s.identity.systemId = t.identity.systemId ↔
        (s.projectId, s.instanceId) = (t.projectId, t.instanceId)) := by
  constructor
  · intro bytes e record router hread hrecord hcluster hproject
    obtain ⟨hid, hcolon⟩ := databaseId_of_decodeEntry hread hrecord hcluster hproject
    refine ⟨router.map_identity_route record, fun s hs hnone => ⟨fun hmatch => ?_, ?_⟩⟩
    · obtain ⟨-, hp, hi⟩ := mem_matchingServers.1 hmatch
      rw [hid, Server.systemId_identity hnone, hp, hi]
    · intro hinstance hlabel
      have heq := Option.some.inj (hlabel.symm.trans hid)
      exact mem_matchingServers.2 ⟨hs, (Server.systemId_eq_iff hnone hinstance hcolon).1 heq⟩
  · intro s t hs ht hsc htc
    rw [Server.systemId_identity ht, Server.systemId_eq_iff hs hsc htc, Prod.mk.injEq]

/-- The labels of a database of a project that holds a colon itself. -/
def scopedLabels : Labels := [("database_id", "example.com:shop:main")]

/-- A server of that database, and one of another project whose id begins alike. -/
def scopedServers : List Server :=
  [{ projectId := "example.com:shop", instanceId := "main" },
    { projectId := "example.com", instanceId := "shop" }]

theorem default_ids_are_those_of_databases_scoped :
    decodeEntry (Text.Utf8.encode (entryJson (folderEntry scopedLabels "LOG:  x" "")).render) =
        .ok (some ⟨"example.com:shop", "main", none, "LOG:  x"⟩) ∧
      ¬ HasCluster scopedLabels ∧ scopedLabels.get? "project_id" = none ∧
      (∀ s ∈ scopedServers,
        s ∈ matchingServers scopedServers ⟨"example.com:shop", "main", none, "LOG:  x"⟩ ↔
          s.identity.systemId = "example.com:shop:main") ∧
      (Server.identity { projectId := "example.com:shop", instanceId := "main" }).systemId ≠
        (Server.identity { projectId := "example.com", instanceId := "shop" }).systemId := by
  have hread := readWhole_folderEntry scopedLabels (by decide) "LOG:  x" ""
  have hrecord : decodeEntry (Text.Utf8.encode (entryJson
      (folderEntry scopedLabels "LOG:  x" "")).render) =
        .ok (some ⟨"example.com:shop", "main", none, "LOG:  x"⟩) := by
    rw [decodeEntry_of_read hread]
    decide +kernel
  have hcluster : ¬ HasCluster scopedLabels := by
    rintro ⟨⟨container, hcontainer, -⟩, -⟩
    have hnone : scopedLabels.get? "resource_container" = none := by decide
    rw [hnone] at hcontainer
    cases hcontainer
  obtain ⟨hroute, hapart⟩ := default_ids_are_those_of_databases
  obtain ⟨-, hservers⟩ := hroute _ _ _ ⟨scopedServers, Postgres.parseLine, .earliest⟩ hread hrecord
    hcluster (by decide)
  have hid : scopedLabels.get? "database_id" = some "example.com:shop:main" := by decide
  have hplain : ∀ s ∈ scopedServers, s.systemId = none ∧ ':' ∉ s.instanceId.toList := by
    simp [scopedServers]
  refine ⟨hrecord, hcluster, by decide, fun s hs => ?_, fun heq => ?_⟩
  · obtain ⟨hnone, hcolon⟩ := hplain s hs
    obtain ⟨hlabel, hmatch⟩ := hservers s hs hnone
    refine ⟨fun hmem => Option.some.inj ((hlabel hmem).symm.trans hid), fun heq => ?_⟩
    exact hmatch hcolon (hid.trans (congrArg some heq.symm))
  · exact absurd ((hapart _ _ rfl rfl (by decide) (by decide)).1 heq) (by decide)

end Envelope

end LogRelay
