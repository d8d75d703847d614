import LogRelay.Proofs.Base64
import LogRelay.Proofs.Envelope.Labels
import LogRelay.Proofs.Json.Object
import LogRelay.Proofs.Time.Rfc3339
import Mathlib.Data.List.Nodup

/-!
Decoding undoes the writing of an entry: as JSON with its members in any order, as UTF-8 and as
base64. Each member sets its own field of the draft, so the order in which they are read is lost.
-/

namespace LogRelay.Envelope

open Json (Value byte utf8)

/-- A member of the JSON of an entry. -/
inductive Member where
  | logName (name : String)
  /-- The members of a resource may come in either order. -/
  | resource (kind : String) (labels : Labels) (labelsFirst : Bool)
  | text (content : String)
  | timestamp (text : String)

/-- The members of a resource. -/
def resourceMembers (kind : String) (labels : Labels) (labelsFirst : Bool) :
    List (String × Value) :=
  if labelsFirst then [("labels", .object (Json.textMembers labels)), ("type", .text kind)]
  else [("type", .text kind), ("labels", .object (Json.textMembers labels))]

namespace Member

/-- The key of the member. -/
def key : Member → String
  | logName _ => "logName"
  | resource .. => "resource"
  | text _ => "textPayload"
  | timestamp _ => "timestamp"

/-- The value of the member. -/
def value : Member → Value
  | logName name => .text name
  | resource kind labels labelsFirst => .object (resourceMembers kind labels labelsFirst)
  | text content => .text content
  | timestamp written => .text written

/-- No two labels have one name. -/
def HasDistinctLabels : Member → Prop
  | resource _ labels _ => (labels.map Prod.fst).Nodup
  | _ => True

/-- The draft with the field of the member set. -/
def put (draft : Entry.Draft) : Member → Entry.Draft
  | logName name => { draft with logName := some name }
  | resource kind labels _ => { draft with resource := some ⟨kind, labels⟩ }
  | text content => { draft with text := some content }
  | timestamp written => { draft with timestamp := some written }

/-- Whether the field of the member is set. -/
def isSet (draft : Entry.Draft) : Member → Bool
  | logName _ => draft.logName.isSome
  | resource .. => draft.resource.isSome
  | text _ => draft.text.isSome
  | timestamp _ => draft.timestamp.isSome

end Member

/-- The JSON of an entry with these members. -/
def entryJson (members : List Member) : Value :=
  .object (members.map fun m => (m.key, m.value))

/-- The members that say when an entry was written, if it is known. -/
inductive Stamps : Option Time.Instant → List Member → Prop
  | missing : Stamps none []
  | empty : Stamps none [.timestamp ""]
  | written {text : String} {t : Time.Instant} (h : Time.Rfc3339.IsWritten text t) :
      Stamps (some t) [.timestamp text]

variable {kind : String} {labels : Labels} {labelsFirst : Bool} {draft : Entry.Draft}
  {members stamp : List Member} {m m' : Member} {rest : List UInt8}

/-! ### Resources -/

theorem readMember_kind {d : Resource.Draft} (hset : d.kind.isSome = false) (rest : List UInt8) :
    Resource.schema.readMember "type" d (byte ':' :: (utf8 (Value.text kind).write ++ rest)) =
      .ok ({ d with kind := some kind }, rest) := by
  refine Json.readMember_known rfl hset ?_
  dsimp only
  rw [Json.readText_text]
  rfl

theorem readMember_labels {d : Resource.Draft} (hset : d.labels.isSome = false)
    (hnames : (labels.map Prod.fst).Nodup) (rest : List UInt8) :
    Resource.schema.readMember "labels" d
        (byte ':' :: (utf8 (Value.object (Json.textMembers labels)).write ++ rest)) =
      .ok ({ d with labels := some labels }, rest) := by
  refine Json.readMember_known rfl hset ?_
  dsimp only
  rw [Json.readTextMap_texts hnames]
  rfl

theorem readsMembers_resource (hnames : (labels.map Prod.fst).Nodup) :
    Json.ReadsMembers Resource.schema.readMember {} (resourceMembers kind labels labelsFirst)
      ⟨some kind, some labels⟩ := by
  cases labelsFirst with
  | true => exact .cons (readMember_labels rfl hnames) (.cons (readMember_kind rfl) (.nil _))
  | false => exact .cons (readMember_kind rfl) (.cons (readMember_labels rfl hnames) (.nil _))

theorem read_resource (hnames : (labels.map Prod.fst).Nodup) (rest : List UInt8) :
    Resource.read (utf8 (Value.object (resourceMembers kind labels labelsFirst)).write ++ rest) =
      .ok (⟨kind, labels⟩, rest) := by
  rw [Resource.read, Json.read_object (readsMembers_resource hnames) rfl]
  rfl

/-! ### Members of an entry -/

theorem Member.isSet_put (h : m.key ≠ m'.key) : m.isSet (put draft m') = m.isSet draft := by
  cases m <;> cases m' <;> first | rfl | exact absurd rfl h

theorem Member.put_comm (h : m.key = m'.key → m = m') :
    put (put draft m) m' = put (put draft m') m := by
  by_cases hkey : m.key = m'.key
  · rw [h hkey]
  · cases m <;> cases m' <;> first | rfl | exact absurd rfl hkey

theorem readMember_member (hset : m.isSet draft = false) (hlabels : m.HasDistinctLabels)
    (rest : List UInt8) :
    Entry.schema.readMember m.key draft (byte ':' :: (utf8 m.value.write ++ rest)) =
      .ok (m.put draft, rest) := by
  cases m with
  | logName | text | timestamp =>
    refine Json.readMember_known rfl hset ?_
    dsimp only [Member.value]
    rw [Json.readText_text]
    rfl
  | resource =>
    refine Json.readMember_known rfl hset ?_
    dsimp only [Member.value]
    rw [read_resource hlabels]
    rfl

theorem readsMembers_members (hkeys : (members.map Member.key).Nodup)
    (hlabels : ∀ m ∈ members, m.HasDistinctLabels) (hset : ∀ m ∈ members, m.isSet draft = false) :
    Json.ReadsMembers Entry.schema.readMember draft (members.map fun m => (m.key, m.value))
      (members.foldl Member.put draft) := by
  induction members generalizing draft with
  | nil => exact .nil draft
  | cons m members ih =>
    rw [List.map_cons, List.nodup_cons] at hkeys
    refine .cons (readMember_member (hset m List.mem_cons_self) (hlabels m List.mem_cons_self)) ?_
    refine ih hkeys.2 (fun m' hmem => hlabels m' (List.mem_cons_of_mem m hmem)) fun m' hmem => ?_
    have hne : m'.key ≠ m.key := fun heq => hkeys.1 (heq ▸ List.mem_map_of_mem hmem)
    rw [Member.isSet_put hne]
    exact hset m' (List.mem_cons_of_mem m hmem)

/-- The order of the members does not matter. -/
theorem foldl_put_perm {ordered : List Member} (hperm : members.Perm ordered)
    (hkeys : (members.map Member.key).Nodup) :
    members.foldl Member.put draft = ordered.foldl Member.put draft :=
  hperm.foldl_eq' (fun _ hm _ hm' _ => Member.put_comm (List.inj_on_of_nodup_map hkeys hm hm')) draft

/-! ### Whole entries -/

variable {logName content : String} {occurredAt : Option Time.Instant}

/-- The members of an entry in the order of its fields. -/
def orderedMembers (logName kind : String) (labels : Labels) (labelsFirst : Bool) (content : String)
    (stamp : List Member) : List Member :=
  .logName logName :: .resource kind labels labelsFirst :: .text content :: stamp

theorem nodup_keys_orderedMembers (hstamp : Stamps occurredAt stamp) :
    ((orderedMembers logName kind labels labelsFirst content stamp).map Member.key).Nodup := by
  cases hstamp with
  | missing =>
    change ["logName", "resource", "textPayload"].Nodup
    decide
  | empty | written =>
    change ["logName", "resource", "textPayload", "timestamp"].Nodup
    decide

theorem hasDistinctLabels_orderedMembers (hstamp : Stamps occurredAt stamp)
    (hnames : (labels.map Prod.fst).Nodup) :
    ∀ m ∈ orderedMembers logName kind labels labelsFirst content stamp, m.HasDistinctLabels := by
  have hall : ∀ m ∈ stamp, m.HasDistinctLabels := by
    cases hstamp <;> simp [Member.HasDistinctLabels]
  simpa [orderedMembers, Member.HasDistinctLabels] using ⟨hnames, hall⟩

theorem exists_foldl_put_orderedMembers (hstamp : Stamps occurredAt stamp) :
    ∃ written : Option String,
      (orderedMembers logName kind labels labelsFirst content stamp).foldl Member.put {} =
        ⟨some logName, some ⟨kind, labels⟩, some content, written⟩ ∧
      Time.Rfc3339.parse? (written.getD "") = occurredAt := by
  cases hstamp with
  | missing => exact ⟨none, rfl, rfl⟩
  | empty => exact ⟨some "", rfl, rfl⟩
  | @written text t h => exact ⟨some text, rfl, Time.Rfc3339.parse?_of_isWritten h⟩

theorem exists_read_entryJson (hnames : (labels.map Prod.fst).Nodup)
    (hstamp : Stamps occurredAt stamp)
    (hmembers : members.Perm (orderedMembers logName kind labels labelsFirst content stamp))
    (rest : List UInt8) :
    ∃ written, Entry.read (utf8 (entryJson members).write ++ rest) =
        .ok (⟨logName, ⟨kind, labels⟩, content, written⟩, rest) ∧
      Time.Rfc3339.parse? written = occurredAt := by
  have hkeys : (members.map Member.key).Nodup :=
    (hmembers.map Member.key).nodup_iff.2 (nodup_keys_orderedMembers hstamp)
  have hlabels : ∀ m ∈ members, m.HasDistinctLabels := fun m hmem =>
    hasDistinctLabels_orderedMembers hstamp hnames m (hmembers.mem_iff.1 hmem)
  have hset : ∀ m ∈ members, m.isSet {} = false := fun m _ => by cases m <;> rfl
  have hreads := readsMembers_members hkeys hlabels hset
  obtain ⟨written, hdraft, hparse⟩ := exists_foldl_put_orderedMembers hstamp
  rw [foldl_put_perm hmembers hkeys, hdraft] at hreads
  refine ⟨written.getD "", ?_, hparse⟩
  rw [Entry.read, entryJson, Json.read_object hreads rfl]
  rfl

theorem endsWith_append (front ending : String) : endsWith (front ++ ending) ending = true := by
  rw [endsWith, List.isSuffixOf_iff_suffix, String.toList_append]
  exact List.suffix_append _ _

theorem record?_of_names {project instanceId : String} (hnames : (labels.map Prod.fst).Nodup)
    (hrouting : Names project instanceId kind labels) (front content written : String) :
    Entry.record? ⟨front ++ "postgres.log", ⟨kind, labels⟩, content, written⟩ =
      some ⟨project, instanceId, Time.Rfc3339.parse? written, content⟩ := by
  have hend : endsWith (front ++ "postgres.log") logNameEnd = true := endsWith_append _ _
  rw [Entry.record?, if_pos hend, routingIds?_of_names hnames hrouting]
  rfl

/-- An entry of a PostgreSQL server log that names a project and an instance comes back as the record
of its text and its time, whatever the order of its members and the way the time is written. -/
theorem decodes_written_entry {project instanceId front : String}
    (hnames : (labels.map Prod.fst).Nodup) (hrouting : Names project instanceId kind labels)
    (hstamp : Stamps occurredAt stamp)
    (hmembers : members.Perm
      (orderedMembers (front ++ "postgres.log") kind labels labelsFirst content stamp)) :
    decode (Base64.encode (Text.Utf8.encode (entryJson members).render)) =
      .ok (some ⟨project, instanceId, occurredAt, content⟩) := by
  obtain ⟨written, hread, hparse⟩ := exists_read_entryJson hnames hstamp hmembers []
  rw [List.append_nil] at hread
  have hentry : decodeEntry (Text.Utf8.encode (entryJson members).render) =
      .ok (some ⟨project, instanceId, occurredAt, content⟩) := by
    rw [Value.render, Json.encode_ofList, decodeEntry, Json.readWhole, hread, ← hparse]
    exact congrArg Except.ok (record?_of_names hnames hrouting front content written)
  rw [decode, Base64.decode_encode]
  dsimp only
  rw [hentry]

/-- The project has a colon itself. -/
def shopLabels : Labels :=
  [("database_id", "example.com:shop:main"), ("region", "eu"), ("project_id", "example.com:shop")]

/-- A text with characters of every way to be written. -/
def shopText : String := "say \"hi\"\n\x01\t\\ é \u2028 😀\x7f"

/-- The local day is the one after that of UTC, and the members come in the opposite order. -/
theorem decodes_written_entry_evening :
    Time.Rfc3339.IsWritten "2024-03-01t00:15:30.25+05:45" ⟨1709231430, 250000000⟩ ∧
    decode (Base64.encode (Text.Utf8.encode (entryJson [.timestamp "2024-03-01t00:15:30.25+05:45",
      .text shopText, .resource databaseKind shopLabels true,
      .logName ("projects/shop/logs/" ++ "postgres.log")]).render)) =
      .ok (some ⟨"example.com:shop", "main", some ⟨1709231430, 250000000⟩, shopText⟩) := by
  have hwritten : Time.Rfc3339.IsWritten "2024-03-01t00:15:30.25+05:45" ⟨1709231430, 250000000⟩ :=
    ⟨.ahead 5 45, 't', ['.', '2', '5'], by decide +kernel, by decide, by decide, by decide,
      .some (by decide) (by decide) (List.all_eq_true.1 rfl) (by decide +kernel)⟩
  have hrouting : Names "example.com:shop" "main" databaseKind shopLabels :=
    .database (by decide) (by simp [shopLabels]) (by simp [shopLabels]) (by decide)
  have hmembers := List.reverse_perm (orderedMembers ("projects/shop/logs/" ++ "postgres.log")
    databaseKind shopLabels true shopText [.timestamp "2024-03-01t00:15:30.25+05:45"])
  exact ⟨hwritten, decodes_written_entry (by decide) hrouting (.written hwritten) hmembers⟩

end LogRelay.Envelope
