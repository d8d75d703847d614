import LogRelay.Envelope
import LogRelay.Proofs.Text

/-!
The labels by which entries are routed, as they are written: a cluster names its project in a resource
path, a database names it in front of its instance. Reading them gives project and instance back
(`routingIds?_of_names`).
-/

namespace LogRelay.Envelope

/-- The labels of a resource of that kind name the project and the instance. -/
inductive Names (project instanceId : String) : (kind : String) → Labels → Prop
  | cluster {kind : String} {labels : Labels} (hkind : kind = clusterKind ∨ kind = databaseKind)
      (hcontainer : ("resource_container", "projects/" ++ project) ∈ labels)
      (hcluster : ("cluster_id", instanceId) ∈ labels) (hslash : '/' ∉ project.toList) :
      Names project instanceId kind labels
  /-- A project may hold colons itself, so the instance must not. -/
  | database {labels : Labels}
      (hid : ("database_id", project ++ ":" ++ instanceId) ∈ labels)
      (hproject : ∀ value, ("project_id", value) ∈ labels → value = project)
      (hcluster : (∀ value, ("resource_container", value) ∉ labels) ∨
        ∀ value, ("cluster_id", value) ∉ labels)
      (hcolon : ':' ∉ instanceId.toList) :
      Names project instanceId databaseKind labels

variable {project instanceId kind name value : String} {labels : Labels}

/-! ### Looking up -/

theorem get?_of_mem (hnames : (labels.map Prod.fst).Nodup) (h : (name, value) ∈ labels) :
    labels.get? name = some value := by
  obtain ⟨before, after, rfl⟩ := List.append_of_mem h
  refine List.lookup_eq_some_iff.2 ⟨before, after, rfl, fun entry hmem => ?_⟩
  rw [List.map_append, List.nodup_append] at hnames
  have hne : entry.1 ≠ name :=
    hnames.2.2 _ (List.mem_map_of_mem hmem) name List.mem_cons_self
  simpa using hne.symm

theorem get?_eq_none_of_notMem (h : ∀ value, (name, value) ∉ labels) : labels.get? name = none := by
  refine List.lookup_eq_none_iff.2 fun entry hmem => ?_
  have hne : name ≠ entry.1 := fun heq => h entry.2 (heq ▸ hmem)
  simpa using hne

/-! ### Taking apart -/

theorem afterOnlySlash?_append {front : String} (hfront : '/' ∉ front.toList)
    (h : '/' ∉ project.toList) : afterOnlySlash? (front ++ "/" ++ project) = some project := by
  have hspan := Text.span_ne hfront project.toList
  have hpath : (front ++ "/" ++ project).toList = front.toList ++ '/' :: project.toList := by
    simp [String.toList_append]
  have hcount : (front.toList ++ '/' :: project.toList).count '/' = 1 := by
    rw [List.count_append, List.count_cons_self, List.count_eq_zero.2 h,
      List.count_eq_zero.2 hfront]
  rw [afterOnlySlash?, hpath, if_pos hcount, hspan.dropWhile_eq, List.drop_succ_cons,
    List.drop_zero, String.ofList_toList]

theorem afterOnlySlash?_path (h : '/' ∉ project.toList) :
    afterOnlySlash? ("projects/" ++ project) = some project := by
  have hfront : '/' ∉ "projects".toList := by decide
  have hjoin : "projects/" = "projects" ++ "/" := by decide
  rw [hjoin]
  exact afterOnlySlash?_append hfront h

theorem splitLastColon?_append (h : ':' ∉ instanceId.toList) :
    splitLastColon? (project ++ ":" ++ instanceId) = some (project, instanceId) := by
  have hreversed : (project ++ ":" ++ instanceId).toList.reverse =
      instanceId.toList.reverse ++ ':' :: project.toList.reverse := by
    rw [String.toList_append, String.toList_append, List.reverse_append, List.reverse_append]
    rfl
  have hinstance : ':' ∉ instanceId.toList.reverse := by simpa using h
  have hspan := Text.span_ne hinstance project.toList.reverse
  have hmem : ':' ∈ instanceId.toList.reverse ++ ':' :: project.toList.reverse :=
    List.mem_append_right _ List.mem_cons_self
  rw [splitLastColon?, hreversed, if_pos hmem, hspan.takeWhile_eq, hspan.dropWhile_eq,
    List.drop_succ_cons, List.drop_zero, List.reverse_reverse, List.reverse_reverse,
    String.ofList_toList, String.ofList_toList]

/-! ### Routing -/

theorem clusterIds?_of_mem (hnames : (labels.map Prod.fst).Nodup)
    (hcontainer : ("resource_container", "projects/" ++ project) ∈ labels)
    (hcluster : ("cluster_id", instanceId) ∈ labels) (hslash : '/' ∉ project.toList) :
    clusterIds? labels = some (project, instanceId) := by
  rw [clusterIds?, get?_of_mem hnames hcontainer, get?_of_mem hnames hcluster]
  change (afterOnlySlash? ("projects/" ++ project)).bind _ = _
  rw [afterOnlySlash?_path hslash]
  rfl

theorem clusterIds?_eq_none (h : labels.get? "resource_container" = none ∨
    labels.get? "cluster_id" = none) : clusterIds? labels = none := by
  rw [clusterIds?]
  rcases h with h | h
  · rw [h]
    rfl
  · cases labels.get? "resource_container" with
    | none => rfl
    | some container =>
      rw [h]
      change (afterOnlySlash? container).bind (fun _ => none) = none
      rw [Option.bind_fun_none]

theorem databaseIds?_of_mem (hnames : (labels.map Prod.fst).Nodup)
    (hid : ("database_id", project ++ ":" ++ instanceId) ∈ labels)
    (hproject : ∀ value, ("project_id", value) ∈ labels → value = project)
    (hcolon : ':' ∉ instanceId.toList) : databaseIds? labels = some (project, instanceId) := by
  have hlabel : (labels.get? "project_id").getD project = project := by
    cases hget : labels.get? "project_id" with
    | none => rfl
    | some value =>
      obtain ⟨before, after, heq, -⟩ := List.lookup_eq_some_iff.1 hget
      exact hproject value (heq ▸ List.mem_append_right _ List.mem_cons_self)
  rw [databaseIds?, get?_of_mem hnames hid]
  change (splitLastColon? (project ++ ":" ++ instanceId)).bind _ = _
  rw [splitLastColon?_append hcolon]
  exact congrArg (fun p => some (p, instanceId)) hlabel

theorem routingIds?_database (labels : Labels) : routingIds? ⟨databaseKind, labels⟩ =
    (clusterIds? labels <|> databaseIds? labels) := by
  have hne : ¬ databaseKind = clusterKind := by decide
  rw [routingIds?, if_neg hne, if_pos rfl]

theorem routingIds?_of_names (hnames : (labels.map Prod.fst).Nodup)
    (h : Names project instanceId kind labels) :
    routingIds? ⟨kind, labels⟩ = some (project, instanceId) := by
  cases h with
  | cluster hkind hcontainer hcluster hslash =>
    have hids := clusterIds?_of_mem hnames hcontainer hcluster hslash
    rcases hkind with rfl | rfl
    · rw [routingIds?, if_pos rfl, hids]
    · rw [routingIds?_database, hids]
      rfl
  | database hid hproject hcluster hcolon =>
    have hnone : clusterIds? labels = none :=
      clusterIds?_eq_none (hcluster.imp get?_eq_none_of_notMem get?_eq_none_of_notMem)
    rw [routingIds?_database, hnone, databaseIds?_of_mem hnames hid hproject hcolon]
    rfl

end LogRelay.Envelope
