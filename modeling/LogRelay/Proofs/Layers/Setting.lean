import LogRelay.Layers.Decode
import LogRelay.Proofs.Layers.Dict

/-!
The settings one by one. Reading them from a dictionary gives each what is found at its name, or
what it was before; the rest of the dictionary plays no part, and of a mismatch the first key is the
name of a setting.
-/

namespace LogRelay.Layers

/-- What can be set. -/
inductive Setting where
  | logLevel
  | testRun
  | streamCapacity
  | freshnessWindowSecs
  | retryIntervalSecs
  | maxMessages
  | endpoint
  | servers
  deriving DecidableEq

namespace Setting

variable {f g : Setting} {d e : Dict} {s t : Settings} {v w : Value} {key : String}

/-- What the setting is a choice of. -/
@[reducible] def Content : Setting → Type
  | logLevel => String
  | testRun => Bool
  | streamCapacity | freshnessWindowSecs | retryIntervalSecs | maxMessages => Nat
  | endpoint => Option String
  | servers => List Server

/-- The name of the setting in every layer. -/
def name : Setting → String
  | logLevel => "log_level"
  | testRun => "test_run"
  | streamCapacity => "log_stream_buffer_len"
  | freshnessWindowSecs => "freshness_window_secs"
  | retryIntervalSecs => "retry_interval_secs"
  | maxMessages => "gcp_pubsub_max_messages"
  | endpoint => "gcp_pubsub_endpoint"
  | servers => "servers"

/-- What the setting is where no layer says otherwise. -/
def builtIn : (f : Setting) → f.Content
  | logLevel => "info"
  | testRun => false
  | streamCapacity => (1000 : Nat)
  | freshnessWindowSecs => (60 : Nat)
  | retryIntervalSecs => (60 : Nat)
  | maxMessages => (100 : Nat)
  | endpoint => none
  | servers => []

/-- The value of a layer as the setting. -/
def decode : (f : Setting) → Value → Except Mismatch f.Content
  | logLevel, v => v.toText
  | testRun, v => v.toTruth
  | streamCapacity, v => v.toCount 64 "usize"
  | freshnessWindowSecs, v => v.toCount 64 "u64"
  | retryIntervalSecs, v => v.toCount 64 "u64"
  | maxMessages, v => v.toCount 32 "u32"
  | endpoint, v => v.toText?
  | servers, v => decodeServers v

/-- The setting in a record of all of them. -/
def get : (f : Setting) → Settings → f.Content
  | logLevel, s => s.logLevel
  | testRun, s => s.testRun
  | streamCapacity, s => s.streamCapacity
  | freshnessWindowSecs, s => s.freshnessWindowSecs
  | retryIntervalSecs, s => s.retryIntervalSecs
  | maxMessages, s => s.maxMessages
  | endpoint, s => s.endpoint
  | servers, s => s.servers

/-- The record with this setting changed. -/
def put : (f : Setting) → Settings → f.Content → Settings
  | logLevel, s, x => { s with logLevel := x }
  | testRun, s, x => { s with testRun := x }
  | streamCapacity, s, x => { s with streamCapacity := x }
  | freshnessWindowSecs, s, x => { s with freshnessWindowSecs := x }
  | retryIntervalSecs, s, x => { s with retryIntervalSecs := x }
  | maxMessages, s, x => { s with maxMessages := x }
  | endpoint, s, x => { s with endpoint := x }
  | servers, s, x => { s with servers := x }

@[simp] theorem get_put (f : Setting) (s : Settings) (x : f.Content) : f.get (f.put s x) = x := by
  cases f <;> rfl

theorem get_put_of_ne (h : g ≠ f) (s : Settings) (x : f.Content) : g.get (f.put s x) = g.get s := by
  cases f <;> cases g <;> first | rfl | exact absurd rfl h

theorem get_default (f : Setting) : f.get {} = f.builtIn := by
  cases f <;> rfl

theorem ext_get (h : ∀ f : Setting, f.get s = f.get t) : s = t := by
  cases s
  cases t
  rw [Settings.mk.injEq]
  exact ⟨h logLevel, h testRun, h streamCapacity, h freshnessWindowSecs, h retryIntervalSecs,
    h maxMessages, h endpoint, h servers⟩

theorem name_injective (h : f.name = g.name) : f = g := by
  revert h
  cases f <;> cases g <;> decide

/-! ### One key of a dictionary -/

theorem setField_name (f : Setting) (v : Value) (s : Settings) :
    setField f.name v s = (f.decode v).map (f.put s) := by
  cases f <;> rfl

theorem setField_of_forall_ne (h : ∀ f : Setting, key ≠ f.name) (v : Value) (s : Settings) :
    setField key v s = .ok s := by
  unfold setField
  split
  · exact absurd rfl (h logLevel)
  · exact absurd rfl (h testRun)
  · exact absurd rfl (h streamCapacity)
  · exact absurd rfl (h freshnessWindowSecs)
  · exact absurd rfl (h retryIntervalSecs)
  · exact absurd rfl (h maxMessages)
  · exact absurd rfl (h endpoint)
  · exact absurd rfl (h servers)
  · rfl

/-- No setting is a dictionary, so what is below an upper value makes no difference. -/
theorem decode_lay (f : Setting) (v w : Value) : f.decode (Value.lay v w) = f.decode v := by
  cases v with
  | dict d =>
    cases w with
    | dict e => cases f <;> rfl
    | _ => rfl
  | _ => rfl

/-- The settings with one entry of a dictionary. -/
def enter (s : Settings) (x : String × Value) : Except Mismatch Settings :=
  (setField x.1 x.2 s).mapError (·.inside x.1)

theorem decodeSettings_eq_foldlM (d : Dict) : decodeSettings d = d.foldlM enter {} := rfl

theorem enter_of_forall_ne (h : ∀ f : Setting, key ≠ f.name) : enter s (key, v) = .ok s := by
  rw [enter, setField_of_forall_ne h]
  rfl

theorem enter_of_ok {x : f.Content} (h : f.decode v = .ok x) :
    enter s (f.name, v) = .ok (f.put s x) := by
  rw [enter, setField_name, h]
  rfl

theorem enter_of_error {m : Mismatch} (h : f.decode v = .error m) :
    enter s (f.name, v) = .error (m.inside f.name) := by
  rw [enter, setField_name, h]
  rfl

/-! ### The whole dictionary -/

/-- The setting as a dictionary has it, or what it was before. -/
def inDict (f : Setting) (d : Dict) (x : f.Content) : Except Mismatch f.Content :=
  match Dict.get? f.name d with
  | some v => f.decode v
  | none => .ok x

theorem inDict_cons_of_ne (h : f.name ≠ key) (x : f.Content) :
    f.inDict ((key, v) :: d) x = f.inDict d x := by
  rw [inDict, Dict.get?_cons, if_neg h, inDict]

theorem inDict_cons_self (x : f.Content) : f.inDict ((f.name, v) :: d) x = f.decode v := by
  rw [inDict, Dict.get?_cons, if_pos rfl]

/-- A setting whose entry comes first is not found again behind it. -/
theorem inDict_put {x : g.Content} (hd : Dict.IsOrdered ((g.name, v) :: d))
    (hv : g.decode v = .ok x) (f : Setting) (s : Settings) :
    f.inDict d (f.get (g.put s x)) = f.inDict ((g.name, v) :: d) (f.get s) := by
  by_cases hf : f = g
  · subst hf
    have hrest : Dict.get? f.name d = none :=
      Dict.get?_eq_none_of_not_lt hd (String.lt_irrefl _)
    rw [inDict_cons_self, hv, inDict, hrest, get_put]
  · rw [inDict_cons_of_ne (mt name_injective hf), get_put_of_ne hf]

theorem foldlM_enter_eq_ok_iff (hd : d.IsOrdered) :
    d.foldlM enter s = .ok t ↔ ∀ f : Setting, f.inDict d (f.get s) = .ok (f.get t) := by
  induction d generalizing s with
  | nil =>
    refine ⟨?_, fun h => congrArg _ (ext_get fun f => Except.ok.inj (h f))⟩
    rintro ⟨⟩ f
    rfl
  | cons x d ih =>
    obtain ⟨key, v⟩ := x
    have htail := List.Pairwise.of_cons hd
    rw [List.foldlM_cons]
    -- An entry either is passed over, or changes one setting and is the only one that does.
    by_cases hkey : ∃ g : Setting, key = g.name
    · obtain ⟨g, rfl⟩ := hkey
      cases hv : g.decode v with
      | error m =>
        rw [enter_of_error hv]
        refine iff_of_false nofun fun h => ?_
        have hg := h g
        rw [inDict_cons_self, hv] at hg
        cases hg
      | ok x =>
        rw [enter_of_ok hv]
        refine (ih htail).trans (forall_congr' fun f => ?_)
        rw [inDict_put hd hv]
    · have hne := not_exists.1 hkey
      rw [enter_of_forall_ne hne]
      refine (ih htail).trans (forall_congr' fun f => ?_)
      rw [inDict_cons_of_ne (Ne.symm (hne f))]

/-- Each setting is read by itself. -/
theorem decodeSettings_eq_ok_iff (hd : d.IsOrdered) :
    decodeSettings d = .ok s ↔ ∀ f : Setting, f.inDict d f.builtIn = .ok (f.get s) := by
  rw [decodeSettings_eq_foldlM, foldlM_enter_eq_ok_iff hd]
  simp only [get_default]

/-- A mismatch lies at a setting or below it. -/
theorem exists_path_of_foldlM_enter {m : Mismatch} (h : d.foldlM enter s = .error m) :
    ∃ (f : Setting) (path : List String), m.path = f.name :: path := by
  induction d generalizing s with
  | nil => cases h
  | cons x d ih =>
    obtain ⟨key, v⟩ := x
    rw [List.foldlM_cons] at h
    by_cases hkey : ∃ g : Setting, key = g.name
    · obtain ⟨g, rfl⟩ := hkey
      cases hv : g.decode v with
      | error m' =>
        rw [enter_of_error hv] at h
        cases h
        exact ⟨g, m'.path, rfl⟩
      | ok x =>
        rw [enter_of_ok hv] at h
        exact ih h
    · rw [enter_of_forall_ne (not_exists.1 hkey)] at h
      exact ih h

/-- Whether a key is the name of a setting. -/
def isName (key : String) : Bool :=
  [logLevel, testRun, streamCapacity, freshnessWindowSecs, retryIntervalSecs, maxMessages, endpoint,
    servers].any fun f => key = f.name

theorem isName_iff : isName key = true ↔ ∃ f : Setting, key = f.name := by
  rw [isName, List.any_eq_true]
  refine exists_congr fun f => ?_
  have hmem : f ∈ [logLevel, testRun, streamCapacity, freshnessWindowSecs, retryIntervalSecs,
      maxMessages, endpoint, servers] := by
    cases f <;> decide
  simp [hmem]

/-- Entries that are no settings are passed over. -/
theorem foldlM_enter_filter (d : Dict) (s : Settings) :
    (d.filter fun x => isName x.1).foldlM enter s = d.foldlM enter s := by
  induction d generalizing s with
  | nil => rfl
  | cons x d ih =>
    obtain ⟨key, v⟩ := x
    by_cases hkey : isName key
    · rw [List.filter_cons, if_pos hkey, List.foldlM_cons, List.foldlM_cons]
      exact congrArg _ (funext ih)
    · have hne := not_exists.1 (mt isName_iff.2 hkey)
      rw [List.filter_cons, if_neg hkey, List.foldlM_cons, enter_of_forall_ne hne]
      exact ih s

theorem decodeSettings_congr (hd : d.IsOrdered) (he : e.IsOrdered)
    (h : ∀ f : Setting, Dict.get? f.name d = Dict.get? f.name e) :
    decodeSettings d = decodeSettings e := by
  have hknown : (d.filter fun x => isName x.1) = e.filter fun x => isName x.1 := by
    refine (hd.filter _).ext (he.filter _) fun k => ?_
    rw [Dict.get?_filter, Dict.get?_filter]
    by_cases hk : isName k
    · obtain ⟨f, rfl⟩ := isName_iff.1 hk
      rw [h f]
    · rw [if_neg hk, if_neg hk]
  rw [decodeSettings_eq_foldlM, decodeSettings_eq_foldlM, ← foldlM_enter_filter d,
    ← foldlM_enter_filter e, hknown]

end Setting

end LogRelay.Layers
