import LogRelay.Proofs.Layers.Document
import LogRelay.Proofs.Layers.Setting
import LogRelay.Proofs.Layers.Variables
import Mathlib.Data.List.Find

/-!
Which layer decides a setting. The variable of a setting goes before the file and the file before
what is built in, for each setting on its own; servers have no variable, and a variable of no
setting changes nothing, errors included.
-/

namespace LogRelay.Layers

namespace Setting

variable {f : Setting} {env : Environment} {file : Dict}

/-- Whether the environment has a say about the setting. -/
def isGlobal (f : Setting) : Bool := f ≠ servers

/-- Whether a variable of that name is the setting's, in any case. -/
def isNamedBy (f : Setting) (name : String) : Bool :=
  f.isGlobal && lowercase name = lowercase variableLead ++ f.name

/-- The text of the setting's variable. -/
def text? (f : Setting) (env : Environment) : Option String :=
  (env.find? fun v => f.isNamedBy v.1).map (·.2)

/-- The setting by its variable if there is one, else by the file if that has its key, else as it is
built in. -/
def layered (f : Setting) (env : Environment) (file : Dict) : Except Mismatch f.Content :=
  match f.text? env with
  | some text => f.decode (Notation.ofText text)
  | none =>
    match Dict.get? f.name file with
    | some v => f.decode v
    | none => .ok f.builtIn

theorem isGlobal_iff (f : Setting) : f.isGlobal = true ↔ f.name ∉ reservedNames ∧ f.name ≠ "" := by
  cases f <;> decide

theorem isNamedBy_iff {name : String} (h : IsPlainName name) :
    f.isNamedBy name = true ↔ keysOfVariable? name = some [f.name] := by
  rw [keysOfVariable?_eq_singleton_iff h, ← isGlobal_iff, isNamedBy, Bool.and_eq_true,
    decide_eq_true_eq, and_comm]

/-- What the layer of the environment holds of a setting. -/
theorem get?_ofEnvironment_name (h : env.IsPlain) (f : Setting) :
    Dict.get? f.name (ofEnvironment env) = (f.text? env).map Notation.ofText := by
  rw [get?_ofEnvironment h, text?, Option.map_map]
  have hfind : (env.find? fun v => keysOfVariable? v.1 = some [f.name]) =
      env.find? fun v => f.isNamedBy v.1 := by
    refine List.find?_congr fun v hv => ?_
    rw [Bool.eq_iff_iff, decide_eq_true_eq, isNamedBy_iff (h.plain v hv)]
  rw [hfind]
  rfl

theorem inDict_layEntries (h : env.IsPlain) (f : Setting) (file : Dict) :
    f.inDict (Value.layEntries (ofEnvironment env) file) f.builtIn = f.layered env file := by
  rw [inDict, Value.get?_layEntries, get?_ofEnvironment_name h, layered]
  cases f.text? env with
  | none => rfl
  | some text =>
    cases Dict.get? f.name file with
    | none => rfl
    | some v => exact f.decode_lay _ v

/-- A variable that names no setting is the variable of none. -/
theorem text?_append_cons {before after : Environment} {v : String × String}
    (h : f.isNamedBy v.1 = false) : f.text? (before ++ v :: after) = f.text? (before ++ after) := by
  rw [text?, text?, List.find?_append, List.find?_append, List.find?_cons_of_neg (by simp [h])]

end Setting

variable {files : Files} {path name : String} {env env' : Environment} {file d e : Dict} {s : Settings}

theorem combine_of_ok (h : decodeSettings (Value.layEntries e file) = .ok s) :
    combine name file e = s.validate.mapError .invalid := by
  rw [combine, h]

theorem combine_of_error {m : Mismatch} (h : decodeSettings (Value.layEntries e file) = .error m) :
    combine name file e =
      .error (.mismatch m (if holds m.path (.dict e) then .environment else .file name)) := by
  rw [combine, h]

theorem validate_cases (s : Settings) :
    s.validate = .ok s ∨ ∃ fault, s.validate = .error fault := by
  rw [Settings.validate]
  cases s.fault? with
  | none => exact .inl rfl
  | some fault => exact .inr ⟨fault, rfl⟩

theorem combine_eq_ok_iff :
    combine name file e = .ok s ↔
      decodeSettings (Value.layEntries e file) = .ok s ∧ s.validate = .ok s := by
  cases hd : decodeSettings (Value.layEntries e file) with
  | error m =>
    rw [combine_of_error hd]
    exact iff_of_false nofun (fun h => nomatch h.1)
  | ok t =>
    rw [combine_of_ok hd, Except.ok.injEq]
    obtain ht | ⟨fault, ht⟩ := validate_cases t
    · rw [ht]
      refine ⟨?_, fun h => congrArg _ h.1⟩
      rintro ⟨⟩
      exact ⟨rfl, ht⟩
    · rw [ht]
      refine iff_of_false nofun ?_
      rintro ⟨rfl, hs⟩
      cases ht.symm.trans hs

/-- Settings that are loaded are the layered ones, and they have been checked. -/
theorem load_eq_ok_iff (h : env.IsPlain) :
    load files path env = .ok s ↔
      s.validate = .ok s ∧ ∃ file, ofFile files path = .ok file ∧
        ∀ f : Setting, f.layered env file = .ok (f.get s) := by
  rw [load]
  cases hfile : ofFile files path with
  | error e => exact iff_of_false nofun fun ⟨_, _, herror, _⟩ => nomatch herror
  | ok file =>
    have hordered : (Value.layEntries (ofEnvironment env) file).IsOrdered :=
      (isOrdered_of_ofFile hfile).layEntries _
    simp only [combine_eq_ok_iff]
    rw [Setting.decodeSettings_eq_ok_iff hordered, and_comm]
    simp only [Setting.inDict_layEntries h, Except.ok.injEq, exists_eq_left']

theorem validate_of_load (h : load files path env = .ok s) : s.validate = .ok s := by
  rw [load] at h
  cases hfile : ofFile files path with
  | error e =>
    rw [hfile] at h
    cases h
  | ok file =>
    rw [hfile] at h
    exact (combine_eq_ok_iff.1 h).2

/-- Only the entries that are settings matter, also to where a mismatch is said to lie. -/
theorem combine_congr (hfile : file.IsOrdered)
    (h : ∀ f : Setting, Dict.get? f.name d = Dict.get? f.name e) :
    combine name file d = combine name file e := by
  have hdecode : decodeSettings (Value.layEntries d file) =
      decodeSettings (Value.layEntries e file) := by
    refine Setting.decodeSettings_congr (hfile.layEntries d) (hfile.layEntries e) fun f => ?_
    rw [Value.get?_layEntries, Value.get?_layEntries, h f]
  cases hm : decodeSettings (Value.layEntries e file) with
  | error m =>
    obtain ⟨f, path, hpath⟩ := Setting.exists_path_of_foldlM_enter hm
    have hholds : holds m.path (.dict d) = holds m.path (.dict e) := by
      rw [hpath, holds, holds, h f]
    rw [combine_of_error hm, combine_of_error (hdecode.trans hm), hholds]
  | ok s => rw [combine_of_ok hm, combine_of_ok (hdecode.trans hm)]

/-- Only the variables of settings matter. -/
theorem load_congr (h : env.IsPlain) (h' : env'.IsPlain)
    (hsame : ∀ f : Setting, f.text? env = f.text? env') :
    load files path env = load files path env' := by
  rw [load, load]
  cases hfile : ofFile files path with
  | error e => rfl
  | ok file =>
    refine combine_congr (isOrdered_of_ofFile hfile) fun f => ?_
    rw [Setting.get?_ofEnvironment_name h, Setting.get?_ofEnvironment_name h', hsame f]

/-- Settings that are loaded have been checked. Where variables are named plainly, each setting is
what its variable says, else what the file says that the path leads to, else what is built in; the
variable of one never changes another, and a variable of none changes nothing. -/
theorem variables_override_file_key_by_key (files : Files) (path : String) (env : Environment) :
    (∀ s, load files path env = .ok s → s.validate = .ok s) ∧
    (env.IsPlain →
      (∀ s, load files path env = .ok s ↔
        s.validate = .ok s ∧ ∃ file, FileLayer files path file ∧
          ∀ f : Setting, f.layered env file = .ok (f.get s)) ∧
      (∀ env' s s', env'.IsPlain → load files path env = .ok s → load files path env' = .ok s' →
        ∀ f : Setting, f.text? env = f.text? env' → f.get s = f.get s') ∧
      ∀ before v after, env = before ++ v :: after → (∀ f : Setting, f.isNamedBy v.1 = false) →
        load files path (before ++ after) = load files path env) := by
  refine ⟨fun s => validate_of_load, fun h => ⟨fun s => ?_, ?_, ?_⟩⟩
  · simp only [load_eq_ok_iff h, ofFile_eq_ok_iff]
  · intro env' s s' h' hs hs' f hsame
    obtain ⟨-, file, hfile, hlayered⟩ := (load_eq_ok_iff h).1 hs
    obtain ⟨-, file', hfile', hlayered'⟩ := (load_eq_ok_iff h').1 hs'
    obtain rfl : file = file' := Except.ok.inj (hfile.symm.trans hfile')
    have hf := hlayered f
    rw [Setting.layered, hsame] at hf
    exact Except.ok.inj (hf.symm.trans (hlayered' f))
  · rintro before v after rfl hnone
    have hsub : (before ++ after).Sublist (before ++ v :: after) :=
      (List.sublist_cons_self v after).append_left before
    exact load_congr (h.sublist hsub) h fun f => (Setting.text?_append_cons (hnone f)).symm

/-- A machine with a file of a level, a rest and a key that is no setting, and one with a window above the
directory that the program runs in. -/
def layeredFiles : Files :=
  .only ["srv", "relay"] [
    ("/etc/dbfleet/dbfleet.yaml",
      "log_level: debug\nretry_interval_secs: 30\nregion: north\n".toUTF8.toList),
    ("/srv/dbfleet.yaml", "freshness_window_secs: 90\n".toUTF8.toList)]

/-- Variables of a level, of a size and of two reserved names, not all in capitals, after one that does
not count. -/
def layeredVariables (level : String) : Environment :=
  [("PATH", "/usr/bin:/bin"), ("dbfleet_Log_Level", level), ("DBFLEET_CONFIG", "other.yaml"),
    ("DBFLEET_SERVERS", "[]"), ("DBFLEET_LOG_STREAM_BUFFER_LEN", "64")]

/-- What the first file and the variables come to. -/
def layeredSettings (level : String) : Settings where
  logLevel := level
  streamCapacity := 64
  retryIntervalSecs := 30

theorem variables_override_file_key_by_key_otherLevel :
    load layeredFiles "/etc/dbfleet/dbfleet.yaml" (layeredVariables "warn") =
      .ok (layeredSettings "warn") ∧
    (layeredSettings "warn").validate = .ok (layeredSettings "warn") ∧
    (∃ file, FileLayer layeredFiles "/etc/dbfleet/dbfleet.yaml" file ∧
      Setting.retryIntervalSecs.layered (layeredVariables "warn") file = .ok (30 : Nat)) ∧
    (∃ file, FileLayer layeredFiles "dbfleet.yaml" file ∧
      Setting.freshnessWindowSecs.layered (layeredVariables "warn") file = .ok (90 : Nat)) ∧
    load layeredFiles "/etc/dbfleet/dbfleet.yaml" (layeredVariables "error") =
      .ok (layeredSettings "error") ∧
    (∀ f : Setting, f ≠ .logLevel →
      f.get (layeredSettings "warn") = f.get (layeredSettings "error")) ∧
    load layeredFiles "/etc/dbfleet/dbfleet.yaml" ((layeredVariables "warn").eraseIdx 2) =
      .ok (layeredSettings "warn") ∧
    load layeredFiles "/etc/dbfleet/dbfleet.yaml" ((layeredVariables "warn").eraseIdx 3) =
      .ok (layeredSettings "warn") := by
  have hwarn : load layeredFiles "/etc/dbfleet/dbfleet.yaml" (layeredVariables "warn") =
      .ok (layeredSettings "warn") := by
    decide +kernel
  have herror : load layeredFiles "/etc/dbfleet/dbfleet.yaml" (layeredVariables "error") =
      .ok (layeredSettings "error") := by
    decide +kernel
  have habove : load layeredFiles "dbfleet.yaml" (layeredVariables "warn") =
      .ok { logLevel := "warn", streamCapacity := 64, freshnessWindowSecs := 90 } := by
    decide +kernel
  have hplain : (layeredVariables "warn").IsPlain := ⟨by decide, by decide⟩
  have hplain' : (layeredVariables "error").IsPlain := ⟨by decide, by decide⟩
  obtain ⟨hvalid, h⟩ := variables_override_file_key_by_key layeredFiles
    "/etc/dbfleet/dbfleet.yaml" (layeredVariables "warn")
  obtain ⟨hlayered, hframe, hnone⟩ := h hplain
  obtain ⟨-, file, hfile, hall⟩ := (hlayered _).1 hwarn
  obtain ⟨hlayered', -⟩ := (variables_override_file_key_by_key layeredFiles "dbfleet.yaml"
    (layeredVariables "warn")).2 hplain
  obtain ⟨-, file', hfile', hall'⟩ := (hlayered' _).1 habove
  refine ⟨hwarn, hvalid _ hwarn, ⟨file, hfile, hall .retryIntervalSecs⟩,
    ⟨file', hfile', hall' .freshnessWindowSecs⟩, herror, ?_, ?_, ?_⟩
  · intro f hf
    refine hframe _ _ _ hplain' hwarn herror f ?_
    cases f <;> first | rfl | exact absurd rfl hf
  · refine (hnone ((layeredVariables "warn").take 2) ("DBFLEET_CONFIG", "other.yaml")
      ((layeredVariables "warn").drop 3) rfl fun f => ?_).trans hwarn
    cases f <;> decide
  · refine (hnone ((layeredVariables "warn").take 3) ("DBFLEET_SERVERS", "[]")
      ((layeredVariables "warn").drop 4) rfl fun f => ?_).trans hwarn
    cases f <;> decide

end LogRelay.Layers
