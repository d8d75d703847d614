import LogRelay.Proofs.Layers.Precedence

/-!
What the environment has to do with the servers. Of the variables that lead to a setting or below it the
last one decides, whatever the others say; the servers have no such variable, unless blanks hide the
reserved name when it is looked for and are trimmed afterwards. All other variables leave the servers to
the file.
-/

namespace LogRelay.Layers

variable {files : Files} {path name : String} {env : Environment} {file d : Dict} {s : Settings}
  {u : Value} {v : String × String}

/-! ### The last variable of a setting -/

namespace Setting

variable {f : Setting}

/-- What a variable says about the setting: its value, or a dictionary if it leads below. -/
def saidBy? (f : Setting) (v : String × String) : Option Value :=
  match keysOfVariable? v.1 with
  | some (key :: keys) => if f.name = key then some (nest keys (Notation.ofText v.2)) else none
  | _ => none

/-- What the last variable says that has a say. -/
def said? (f : Setting) (env : Environment) : Option Value := env.reverse.findSome? f.saidBy?

theorem inDict_eq (f : Setting) (d : Dict) (x : f.Content) :
    f.inDict d x = ((Dict.get? f.name d).map f.decode).getD (.ok x) := by
  rw [inDict]
  cases Dict.get? f.name d <;> rfl

theorem map_decode_overlay (f : Setting) (d : Dict) (v : String × String) :
    (Dict.get? f.name (overlay d v)).map f.decode =
      ((f.saidBy? v).or (Dict.get? f.name d)).map f.decode := by
  rw [overlay, saidBy?]
  cases keysOfVariable? v.1 with
  | none => simp only [Option.none_or]
  | some keys =>
    cases keys with
    | nil => simp only [Option.none_or]
    | cons key keys =>
      simp only [Value.get?_layEntries, Dict.get?_cons]
      by_cases hkey : f.name = key
      · rw [if_pos hkey, if_pos hkey, Option.some_or]
        cases Dict.get? f.name d with
        | none => simp only
        | some w => simp only [Option.map_some, decode_lay]
      · simp only [if_neg hkey, Dict.get?_nil, Option.none_or]

theorem map_decode_foldl (f : Setting) (env : Environment) (d : Dict) :
    (Dict.get? f.name (env.foldl overlay d)).map f.decode =
      ((f.said? env).or (Dict.get? f.name d)).map f.decode := by
  induction env generalizing d with
  | nil => rfl
  | cons v env ih =>
    have hlast : f.said? (v :: env) = (f.said? env).or (f.saidBy? v) := by
      simp [said?, List.findSome?_append]
    rw [List.foldl_cons, ih, hlast, Option.or_assoc]
    cases f.said? env with
    | none => rw [Option.none_or, Option.none_or, f.map_decode_overlay]
    | some u => rw [Option.some_or, Option.some_or]

/-- A setting is what the last variable says that leads to it, or what it is in the file. -/
theorem inDict_layEntries_ofEnvironment (f : Setting) (env : Environment) (file : Dict)
    (x : f.Content) : f.inDict (Value.layEntries (ofEnvironment env) file) x =
      ((f.said? env).map f.decode).getD (f.inDict file x) := by
  have hsaid := f.map_decode_foldl env []
  rw [Dict.get?_nil, Option.or_none, ← ofEnvironment_eq_foldl] at hsaid
  rw [inDict_eq, inDict_eq, ← hsaid, Value.get?_layEntries]
  cases Dict.get? f.name (ofEnvironment env) with
  | none => rfl
  | some u =>
    cases Dict.get? f.name file with
    | none => rfl
    | some w => simp only [Option.map_some, Option.getD_some, decode_lay]

end Setting

theorem inDict_of_load (h : load files path env = .ok s) : ∃ file, ofFile files path = .ok file ∧
    ∀ f : Setting, ((f.said? env).map f.decode).getD (f.inDict file f.builtIn) = .ok (f.get s) := by
  rw [load] at h
  cases hfile : ofFile files path with
  | error e =>
    rw [hfile] at h
    cases h
  | ok file =>
    rw [hfile] at h
    have hordered := (isOrdered_of_ofFile hfile).layEntries (ofEnvironment env)
    have hall := (Setting.decodeSettings_eq_ok_iff hordered).1 (combine_eq_ok_iff.1 h).1
    refine ⟨file, rfl, fun f => ?_⟩
    rw [← f.inDict_layEntries_ofEnvironment, hall]

/-! ### Names that lead to the servers -/

/-- What follows the lead is not reserved as it stands, but it is the name of the servers once the blanks
around it are trimmed. -/
def NamesServers (name : String) : Prop :=
  HasLead name ∧ suffix name ∉ reservedNames ∧
    lowercase (Text.trim (String.ofList (name.toList.drop variableLead.toList.length))) = "servers"

instance : DecidablePred NamesServers := fun _ => inferInstanceAs (Decidable (_ ∧ _ ∧ _))

theorem keysOfVariable?_eq_servers_iff :
    keysOfVariable? name = some ["servers"] ↔ NamesServers name := by
  rw [NamesServers]
  by_cases hlead : HasLead name
  · have htake := not_not_intro (hasLead_iff.1 hlead)
    rw [keysOfVariable?]
    simp only [if_neg htake]
    rw [← suffix]
    generalize lowercase (Text.trim _) = trimmed
    by_cases hreserved : suffix name ∈ reservedNames
    · simp [hreserved]
    · simp only [hlead, hreserved, List.contains_eq_mem, decide_false, Bool.false_eq_true, if_false,
        not_false_iff, true_and]
      constructor
      · intro h
        obtain ⟨piece, hsplit, hpiece⟩ :=
          List.map_eq_singleton_iff.1 (Option.some.inj (Option.ite_none_left_eq_some.1 h).2)
        -- the name has no dot, so it is its only piece
        rw [List.splitOn_eq_singleton ((Text.splitOn_eq_singleton_iff hsplit).1 rfl)] at hsplit
        rw [← hpiece, ← List.singleton_inj.1 hsplit, String.ofList_toList]
      · rintro rfl
        decide
  · rw [keysOfVariable?_of_not_hasLead hlead]
    refine iff_of_false (fun h => ?_) fun h => hlead h.1
    cases h

theorem saidBy?_of_namesServers (h : NamesServers v.1) :
    Setting.servers.saidBy? v = some (Notation.ofText v.2) := by
  rw [Setting.saidBy?, keysOfVariable?_eq_servers_iff.2 h]
  rfl

/-- A variable that leads below the servers, or holds anything but a list, says nothing that servers
could be. -/
theorem namesServers_of_saidBy? {servers : List Server} (h : Setting.servers.saidBy? v = some u)
    (hu : decodeServers u = .ok servers) : NamesServers v.1 := by
  rw [Setting.saidBy?] at h
  split at h
  · rename_i key keys hkeys
    obtain ⟨hkey, hsome⟩ := Option.ite_none_right_eq_some.1 h
    obtain rfl := Option.some.inj hsome
    cases keys with
    | nil => exact keysOfVariable?_eq_servers_iff.1 (hkeys.trans (by rw [← hkey]; rfl))
    | cons _ _ => cases hu
  · cases h

/-! ### The servers -/

/-- The servers that the layer of a file lists; where it has no such key, there are none. -/
def listed (file : Dict) : Except Mismatch (List Server) :=
  match Dict.get? "servers" file with
  | some v => decodeServers v
  | none => .ok []

/-- The servers by the last variable that names them, or by the file if there is none. -/
def serversOf (env : Environment) (file : Dict) : Except Mismatch (List Server) :=
  match env.reverse.find? (NamesServers ·.1) with
  | some v => decodeServers (Notation.ofText v.2)
  | none => listed file

theorem servers_of_load (h : load files path env = .ok s) :
    ∃ file, ofFile files path = .ok file ∧ serversOf env file = .ok s.servers := by
  obtain ⟨file, hfile, hsaid⟩ := inDict_of_load h
  refine ⟨file, hfile, ?_⟩
  have hservers : ((Setting.servers.said? env).map decodeServers).getD (listed file) =
    .ok s.servers := hsaid .servers
  rw [serversOf]
  cases hu : Setting.servers.said? env with
  | none =>
    have hnone := List.findSome?_eq_none_iff.1 hu
    have hfind : env.reverse.find? (NamesServers ·.1) = none := by
      refine List.find?_eq_none.2 fun v hv hnames => ?_
      have hsome := saidBy?_of_namesServers (of_decide_eq_true hnames)
      rw [hnone v hv] at hsome
      cases hsome
    rw [hu] at hservers
    rw [hfind]
    exact hservers
  | some u =>
    rw [hu] at hservers
    obtain ⟨later, v, earlier, henv, hv, hlater⟩ := List.findSome?_eq_some_iff.1 hu
    have hnames := namesServers_of_saidBy? hv hservers
    have hfind : env.reverse.find? (NamesServers ·.1) = some v := by
      refine List.find?_eq_some_iff_append.2 ⟨by simpa using hnames, later, earlier, henv, fun w hw => ?_⟩
      have hsilent : ¬ NamesServers w.1 := fun hw' => by
        have hsome := saidBy?_of_namesServers hw'
        rw [hlater w hw] at hsome
        cases hsome
      simpa using hsilent
    rw [saidBy?_of_namesServers hnames] at hv
    obtain rfl := Option.some.inj hv
    rw [hfind]
    exact hservers

/-- Without blanks there is nothing to trim, so a reserved name is seen to be one. -/
theorem not_namesServers (h : ∀ c ∈ name.toList, Text.isBlank c = false) : ¬ NamesServers name := by
  rintro ⟨-, hreserved, hservers⟩
  have hrest : ∀ c ∈ name.toList.drop variableLead.toList.length, Text.isBlank c = false :=
    fun c hc => h c (List.mem_of_mem_drop hc)
  rw [Text.trim, String.toList_ofList, Text.trimWhile_of_forall hrest, ← suffix] at hservers
  rw [hservers] at hreserved
  exact hreserved (by decide)

/-- Settings that are loaded have the servers of the last variable whose name is that of the servers but
for blanks, and where there is none, those of the file. So whatever else is in two environments, dots and
capitals included, the servers are the same. -/
theorem only_padded_names_reach_servers (files : Files) (path : String) :
    (∀ env s, load files path env = .ok s →
      ∃ file, ofFile files path = .ok file ∧ serversOf env file = .ok s.servers) ∧
    (∀ env env' s s', (∀ v ∈ env, ¬ NamesServers v.1) → (∀ v ∈ env', ¬ NamesServers v.1) →
      load files path env = .ok s → load files path env' = .ok s' →
      s.servers = s'.servers ∧
        ∃ file, ofFile files path = .ok file ∧ listed file = .ok s.servers) ∧
    ∀ name : String, (∀ c ∈ name.toList, Text.isBlank c = false) → ¬ NamesServers name := by
  have hlisted : ∀ env s, (∀ v ∈ env, ¬ NamesServers v.1) → load files path env = .ok s →
      ∃ file, ofFile files path = .ok file ∧ listed file = .ok s.servers := by
    intro env s hnone h
    obtain ⟨file, hfile, hservers⟩ := servers_of_load h
    have hfind : env.reverse.find? (NamesServers ·.1) = none :=
      List.find?_eq_none.2 fun v hv => by simpa using hnone v (List.mem_reverse.1 hv)
    rw [serversOf, hfind] at hservers
    exact ⟨file, hfile, hservers⟩
  refine ⟨fun env s => servers_of_load, fun env env' s s' hnone hnone' h h' => ?_,
    fun name => not_namesServers⟩
  obtain ⟨file, hfile, hservers⟩ := hlisted env s hnone h
  obtain ⟨file', hfile', hservers'⟩ := hlisted env' s' hnone' h'
  obtain rfl : file = file' := Except.ok.inj (hfile.symm.trans hfile')
  exact ⟨Except.ok.inj (hservers.symm.trans hservers'), file, hfile, hservers⟩

/-- A file that lists one server. -/
def listingFiles : Files :=
  .only ["srv"] [("dbfleet.yaml", "servers:\n  - name: orders\n".toUTF8.toList)]

/-- Variables of two reserved names in other letters, and one that is a setting. -/
def reservedVariables : Environment :=
  [("dbfleet_Servers", "[]"), ("DBFLEET_CONFIG", "other.yaml"), ("DBFLEET_LOG_LEVEL", "warn")]

theorem only_padded_names_reach_servers_otherLetters :
    load listingFiles "dbfleet.yaml" reservedVariables =
        .ok { logLevel := "warn", servers := [{ name := "orders" }] } ∧
      load listingFiles "dbfleet.yaml" [("DBFLEET_SERVERS", "5")] =
        .ok { servers := [{ name := "orders" }] } ∧
      ∃ file, ofFile listingFiles "dbfleet.yaml" = .ok file ∧
        listed file = .ok [{ name := "orders" }] := by
  have h : load listingFiles "dbfleet.yaml" reservedVariables =
      .ok { logLevel := "warn", servers := [{ name := "orders" }] } := by
    decide +kernel
  have h' : load listingFiles "dbfleet.yaml" [("DBFLEET_SERVERS", "5")] =
      .ok { servers := [{ name := "orders" }] } := by
    decide +kernel
  obtain ⟨-, hsame, -⟩ := only_padded_names_reach_servers listingFiles "dbfleet.yaml"
  exact ⟨h, h', (hsame _ _ _ _ (by decide +kernel) (by decide +kernel) h h').2⟩

/-- A variable with a blank between the lead and the reserved name takes all servers away. -/
theorem padded_name_replaces_servers :
    ¬ ∀ files path env env' s s', load files path env = .ok s → load files path env' = .ok s' →
      s.servers = s'.servers := by
  intro h
  have hplain : load listingFiles "dbfleet.yaml" [] = .ok { servers := [{ name := "orders" }] } := by
    decide +kernel
  have hpadded : load listingFiles "dbfleet.yaml" [("DBFLEET_ SERVERS", "[]")] = .ok {} := by
    decide +kernel
  exact absurd (h _ _ _ _ _ _ hplain hpadded) (by decide)

end LogRelay.Layers
