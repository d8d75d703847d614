import LogRelay.Proofs.Agent.Run
import LogRelay.Proofs.Json.Value
import LogRelay.Proofs.Postgres.Grammar
import LogRelay.Proofs.Time.Stamp
import Mathlib.Data.List.Forall2

/-!
The output of the program, byte by byte. Every routed line is put out as one line, which is a JSON
text; cut at the line ends and parsed, the output gives back everything that the lines say. So two
lines that say different things never look the same, and no text within a line can end it, or pass
for another one.
-/

namespace LogRelay

open Json (Value ReadsBack byte)

/-- The value of a key in the object that another key has. -/
def Json.Value.within? (outer key : String) (v : Value) : Option Value :=
  (v.get? outer).bind (Value.get? key)

namespace RoutedLine

/-- The parts of the line have their sizes: a process id has 32 bits with its sign, and nanoseconds
go as far as a leap second does. -/
structure Fits (r : RoutedLine) : Prop where
  pid : ∀ n ∈ r.line.backendPid, -(Nat.pow 2 31 : Int) ≤ n ∧ n < Nat.pow 2 31
  nano : ∀ t ∈ r.line.occurredAt, t.nano < 2 * Time.nanosPerSecond

/-- The leap second is at the end of a minute, if the line is from one. -/
def IsRegular (r : RoutedLine) : Prop :=
  ∀ t ∈ r.line.occurredAt, Time.nanosPerSecond ≤ t.nano → t.second % 60 = 59

/-- The line with its time settled. -/
def settled (r : RoutedLine) : RoutedLine where
  identity := r.identity
  line := { r.line with occurredAt := r.line.occurredAt.map Time.Instant.settled }

/-- The JSON value says when, if that is known. -/
inductive SaysTime : Value → Option Time.Instant → Prop
  | unknown : SaysTime .null none
  | known {text : String} {t : Time.Instant} (h : Time.Rfc3339.Stamps text t.settled) :
      SaysTime (.text text) (some t)

/-- The JSON value says everything about the line. -/
structure Tells (v : Value) (r : RoutedLine) : Prop where
  systemId : v.within? "identifier" "system_id" = some (.text r.identity.systemId)
  systemType : v.within? "identifier" "system_type" = some (.text r.identity.systemType)
  systemScope : v.within? "identifier" "system_scope" = some (.text r.identity.systemScope)
  occurredAt : ∃ time, v.within? "log_line" "occurred_at" = some time ∧
    SaysTime time r.line.occurredAt
  level : v.within? "log_line" "log_level" = some (.text r.line.level.name)
  backendPid : v.within? "log_line" "backend_pid" =
    some ((r.line.backendPid.map Value.integer).getD .null)
  database : v.within? "log_line" "database" = some (.ofText? r.line.database)
  username : v.within? "log_line" "username" = some (.ofText? r.line.username)
  content : v.within? "log_line" "content" = some (.text r.line.content)

/-- The bytes are a JSON text, and the value of the text says everything about the line. -/
def ParsesAs (text : List UInt8) (r : RoutedLine) : Prop :=
  ∃ v, Value.parse text = .ok v ∧ Tells v r

/-- The bytes are a line for each item, in their order: a JSON text that says everything about the
item, and the line end after it. -/
structure AreLines (bytes : List UInt8) (items : List RoutedLine) : Prop where
  ends : bytes.count (byte '\n') = items.length
  texts : ∃ texts, bytes.splitOn (byte '\n') = texts ++ [[]] ∧ List.Forall₂ ParsesAs texts items

variable {r r' : RoutedLine} {v x : Value} {time time' : Option Time.Instant}
  {items items' : List RoutedLine} {bytes text : List UInt8} {texts : List (List UInt8)}

/-! ### What a JSON value says -/

theorem SaysTime.unique (h : SaysTime x time) (h' : SaysTime x time') :
    time.map Time.Instant.settled = time'.map Time.Instant.settled := by
  cases h with
  | unknown =>
    cases h'
    rfl
  | known h =>
    cases h' with
    | known h' => exact congrArg some (h.unique h')

theorem ofText?_injective {s s' : Option String} (h : Value.ofText? s = Value.ofText? s') :
    s = s' := by
  cases s <;> cases s' <;> cases h <;> rfl

theorem integer_injective {n n' : Option Int}
    (h : (n.map Value.integer).getD .null = (n'.map Value.integer).getD .null) : n = n' := by
  cases n <;> cases n' <;> cases h <;> rfl

/-- A value says everything about one line only. -/
theorem Tells.unique (h : Tells v r) (h' : Tells v r') : r.settled = r'.settled := by
  obtain ⟨⟨systemId, systemType, systemScope⟩, time, level, pid, database, username, content⟩ := r
  obtain ⟨⟨systemId', systemType', systemScope'⟩, time', level', pid', database', username',
    content'⟩ := r'
  obtain ⟨x, hx, hsays⟩ := h.occurredAt
  obtain ⟨x', hx', hsays'⟩ := h'.occurredAt
  obtain rfl := Option.some.inj (hx.symm.trans hx')
  have htext : ∀ {s s' : String} {o : Option Value}, o = some (.text s) → o = some (.text s') →
      s = s' := fun h h' => Value.text.inj (Option.some.inj (h.symm.trans h'))
  have hid := htext h.systemId h'.systemId
  have htype := htext h.systemType h'.systemType
  have hscope := htext h.systemScope h'.systemScope
  have hlevel := Postgres.Level.name_injective (htext h.level h'.level)
  have hpid := integer_injective (Option.some.inj (h.backendPid.symm.trans h'.backendPid))
  have hdatabase := ofText?_injective (Option.some.inj (h.database.symm.trans h'.database))
  have husername := ofText?_injective (Option.some.inj (h.username.symm.trans h'.username))
  have hcontent := htext h.content h'.content
  have htime := hsays.unique hsays'
  dsimp only at hid htype hscope hlevel hpid hdatabase husername hcontent htime
  simp only [settled, hid, htype, hscope, hlevel, hpid, hdatabase, husername, hcontent, htime]

theorem settled_of_isRegular (h : r.IsRegular) : r.settled = r := by
  obtain ⟨identity, time, level, pid, database, username, content⟩ := r
  have htime : time.map Time.Instant.settled = time := by
    cases time with
    | none => rfl
    | some t =>
      have hleap : ¬ (Time.nanosPerSecond ≤ t.nano ∧ t.second % 60 ≠ 59) := fun hleap =>
        hleap.2 (h t rfl hleap.1)
      rw [Option.map_some, Time.Instant.settled, if_neg hleap]
  simp only [settled, htime]

/-! ### The text of a line -/

theorem tells_json (h : r.Fits) : Tells r.json r where
  systemId := by simp [Value.within?, Value.get?, json, Identity.json]
  systemType := by simp [Value.within?, Value.get?, json, Identity.json]
  systemScope := by simp [Value.within?, Value.get?, json, Identity.json]
  occurredAt := by
    refine ⟨.ofText? (r.line.occurredAt.map Time.Rfc3339.render), ?_, ?_⟩
    · simp [Value.within?, Value.get?, json, Postgres.Line.json]
    · cases htime : r.line.occurredAt with
      | none => exact .unknown
      | some t => exact .known (Time.Rfc3339.stamps_render (h.nano t htime))
  level := by simp [Value.within?, Value.get?, json, Postgres.Line.json]
  backendPid := by simp [Value.within?, Value.get?, json, Postgres.Line.json]
  database := by simp [Value.within?, Value.get?, json, Postgres.Line.json]
  username := by simp [Value.within?, Value.get?, json, Postgres.Line.json]
  content := by simp [Value.within?, Value.get?, json, Postgres.Line.json]

theorem readsBack_json (h : r.Fits) : ReadsBack Json.maxDepth r.json := by
  have hpid : ReadsBack 125 ((r.line.backendPid.map Value.integer).getD .null) := by
    cases hpid : r.line.backendPid with
    | none => exact Json.readsBack_null
    | some n =>
      obtain ⟨hlow, hhigh⟩ := h.pid n hpid
      have hbits : Nat.pow 2 31 ≤ Nat.pow 2 63 ∧ Nat.pow 2 31 ≤ Nat.pow 2 64 := by decide
      exact Json.readsBack_integer (by omega) (by omega)
  have hidentity : ReadsBack 126 r.identity.json := by
    refine Json.readsBack_object ?_
    simp only [List.forall_mem_cons]
    exact ⟨Json.readsBack_text _, Json.readsBack_text _, Json.readsBack_text _, nofun⟩
  have hline : ReadsBack 126 r.line.json := by
    refine Json.readsBack_object ?_
    simp only [List.forall_mem_cons]
    exact ⟨Json.readsBack_ofText? _, Json.readsBack_text _, hpid, Json.readsBack_ofText? _,
      Json.readsBack_ofText? _, Json.readsBack_text _, nofun⟩
  refine Json.readsBack_object ?_
  simp only [List.forall_mem_cons]
  exact ⟨hidentity, hline, nofun⟩

theorem parsesAs_text (h : r.Fits) : ParsesAs (Text.Utf8.encode r.text) r :=
  ⟨r.json, Json.parse_render (readsBack_json h), tells_json h⟩

theorem newline_notMem_json (r : RoutedLine) : '\n' ∉ r.json.write := by
  have hpid : '\n' ∉ ((r.line.backendPid.map Value.integer).getD .null).write := by
    cases r.line.backendPid with
    | none => exact Json.newline_notMem_ofText? none
    | some n => exact Json.newline_notMem_integer n
  have htext : ∀ s, '\n' ∉ (Value.text s).write := fun s => Json.newline_notMem_ofText? (some s)
  have hidentity : '\n' ∉ r.identity.json.write := by
    refine Json.newline_notMem_object ?_
    simp only [List.forall_mem_cons]
    exact ⟨htext _, htext _, htext _, nofun⟩
  have hline : '\n' ∉ r.line.json.write := by
    refine Json.newline_notMem_object ?_
    simp only [List.forall_mem_cons]
    exact ⟨Json.newline_notMem_ofText? _, htext _, hpid, Json.newline_notMem_ofText? _,
      Json.newline_notMem_ofText? _, htext _, nofun⟩
  refine Json.newline_notMem_object ?_
  simp only [List.forall_mem_cons]
  exact ⟨hidentity, hline, nofun⟩

theorem newline_notMem_text (r : RoutedLine) : byte '\n' ∉ Text.Utf8.encode r.text := by
  rw [text, Value.render, Json.encode_ofList, Json.newline_mem_utf8]
  exact r.newline_notMem_json

theorem bytes_eq (r : RoutedLine) : r.bytes = Text.Utf8.encode r.text ++ [byte '\n'] := by
  rw [bytes, Text.Utf8.encode_append]
  rfl

/-! ### Lines -/

theorem splitOn_bytes (items : List RoutedLine) :
    (items.flatMap RoutedLine.bytes).splitOn (byte '\n') =
      items.map (fun r => Text.Utf8.encode r.text) ++ [[]] := by
  induction items with
  | nil => exact List.splitOn_nil _
  | cons r items ih =>
    rw [List.flatMap_cons, bytes_eq, List.append_assoc, List.singleton_append,
      List.splitOn_append_cons_self_of_not_mem r.newline_notMem_text, ih]
    rfl

theorem areLines_bytes (h : ∀ r ∈ items, r.Fits) :
    AreLines (items.flatMap RoutedLine.bytes) items where
  ends := by
    have hone : ∀ r : RoutedLine, r.bytes.count (byte '\n') = 1 := fun r => by
      rw [bytes_eq, List.count_append, List.count_eq_zero.2 r.newline_notMem_text]
      rfl
    simp [List.count_flatMap, Function.comp_def, hone]
  texts := by
    refine ⟨_, splitOn_bytes items, ?_⟩
    rw [List.forall₂_map_left_iff]
    exact List.forall₂_same.2 fun r hr => parsesAs_text (h r hr)

theorem ParsesAs.unique (h : ParsesAs text r) (h' : ParsesAs text r') : r.settled = r'.settled := by
  obtain ⟨v, hv, htells⟩ := h
  obtain ⟨v', hv', htells'⟩ := h'
  obtain rfl := Except.ok.inj (hv.symm.trans hv')
  exact htells.unique htells'

theorem settled_eq_of_bytes (h : r.Fits) (h' : r'.Fits) (hbytes : r.bytes = r'.bytes) :
    r.settled = r'.settled := by
  rw [bytes_eq, bytes_eq] at hbytes
  have hparses := parsesAs_text h
  rw [List.append_cancel_right hbytes] at hparses
  exact hparses.unique (parsesAs_text h')

/-- The time of a line is written as it is settled. -/
theorem bytes_settled (h : r.Fits) : r.settled.bytes = r.bytes := by
  have htime : (r.line.occurredAt.map Time.Instant.settled).map Time.Rfc3339.render =
      r.line.occurredAt.map Time.Rfc3339.render := by
    cases hoccurred : r.line.occurredAt with
    | none => rfl
    | some t => exact congrArg some (Time.Rfc3339.render_settled (h.nano t hoccurred))
  simp only [bytes, text, json, Postgres.Line.json, settled, htime]

theorem bytes_eq_iff (h : r.Fits) (h' : r'.Fits) : r.bytes = r'.bytes ↔ r.settled = r'.settled :=
  ⟨settled_eq_of_bytes h h', fun heq => by rw [← bytes_settled h, ← bytes_settled h', heq]⟩

theorem flatMap_bytes_settled (h : ∀ r ∈ items, r.Fits) :
    (items.map settled).flatMap RoutedLine.bytes = items.flatMap RoutedLine.bytes := by
  rw [List.flatMap_map]
  exact List.flatMap_congr fun r hr => bytes_settled (h r hr)

theorem map_settled_eq (h : List.Forall₂ ParsesAs texts items)
    (h' : List.Forall₂ ParsesAs texts items') : items.map settled = items'.map settled := by
  induction h generalizing items' with
  | nil =>
    cases h'
    rfl
  | cons hfirst _ ih =>
    cases h' with
    | cons hfirst' hmore' => rw [List.map_cons, List.map_cons, hfirst.unique hfirst', ih hmore']

/-- The whole of the output says what its items are, up to how their times are told. -/
theorem AreLines.unique (h : AreLines bytes items) (h' : AreLines bytes items') :
    items.map settled = items'.map settled := by
  obtain ⟨texts, hsplit, htexts⟩ := h.texts
  obtain ⟨texts', hsplit', htexts'⟩ := h'.texts
  obtain rfl := List.append_cancel_right (hsplit.symm.trans hsplit')
  exact map_settled_eq htexts htexts'

/-! ### Lines that are routed -/

theorem pid_of_parseLine {lead text : String} {line : Postgres.Line} {n : Int}
    (h : Postgres.parseLine lead text = some line) (hn : n ∈ line.backendPid) :
    0 ≤ n ∧ n < Nat.pow 2 31 := by
  obtain ⟨body, header, level, message, -, -, hline⟩ := Postgres.parseLine_eq_some_iff.1 h
  have hpid := (Postgres.ofParts_eq_iff.1 hline).backendPid
  rw [Option.mem_def.1 hn] at hpid
  obtain ⟨before, field, after, -, ⟨digits, -, -, hvalue, hlt⟩, -⟩ := hpid
  exact ⟨hvalue ▸ Int.natCast_nonneg _, hlt⟩

/-- Lines fit and are regular whatever the records hold that they come from. -/
theorem fits_of_mem_route {router : Router} {record : Record} {timestamp : String}
    (hparser : router.parser = Postgres.parseLine)
    (htime : record.occurredAt = Time.Rfc3339.parse? timestamp) (hr : r ∈ router.route record) :
    r.Fits ∧ r.IsRegular := by
  rw [Router.route] at hr
  cases hline : router.line? record with
  | none => simp [hline] at hr
  | some line =>
    obtain ⟨s, -, rfl⟩ : ∃ s, s ∈ matchingServers router.servers record ∧
        (⟨s.identity, line⟩ : RoutedLine) = r := by
      simp only [hline] at hr
      split at hr
      · cases hr
      · exact List.mem_map.1 hr
    rw [Router.line?, hparser] at hline
    obtain ⟨parsed, hparsed, rfl⟩ := Option.map_eq_some_iff.1 hline
    have hinstant : ∀ t ∈ record.occurredAt, t.nano < 2 * Time.nanosPerSecond ∧
        (Time.nanosPerSecond ≤ t.nano → t.second % 60 = 59) := by
      intro t ht
      rw [htime] at ht
      exact (Time.Rfc3339.parse?_eq_some_iff.1 ht).isRegular
    refine ⟨⟨fun n hn => ?_, fun t ht => (hinstant t ht).1⟩, fun t ht => (hinstant t ht).2⟩
    obtain ⟨hlow, hhigh⟩ := pid_of_parseLine hparsed hn
    exact ⟨by omega, hhigh⟩

end RoutedLine

namespace Agent

/-- The bytes that are put out. -/
def output (effects : List Effect) : List UInt8 := (written effects).flatMap RoutedLine.bytes

namespace System

variable {s s' : System} {effects : List Effect} {items : List RoutedLine}

/-- The writer puts out all the lines on the sink, if no write fails. -/
theorem exists_runs_write (hw : s.writer = .writing) (hitems : s.pipeline.sink.items = items) :
    ∃ s' effects, Runs act? s (List.replicate items.length (.write none)) effects s' ∧
      s'.pipeline.sink.items = [] ∧ written effects = items := by
  induction items generalizing s with
  | nil => exact ⟨s, [], .nil s, hitems, rfl⟩
  | cons r items ih =>
    have htake : s.pipeline.sink.take? = some (r, { s.pipeline.sink with items }) :=
      Channel.take?_eq_some_iff.2 ⟨items, hitems, rfl⟩
    have hstep := act?_eq_some_iff.2 (.wrote hw htake)
    obtain ⟨s', effects, hruns, hempty, hwritten⟩ :=
      ih (s := { s with pipeline := { s.pipeline with sink := { s.pipeline.sink with items } } }) hw rfl
    refine ⟨s', _, .cons hstep hruns, hempty, ?_⟩
    rw [written_append, hwritten]
    rfl

/-- One routed line is one line of output. However the tasks take turns, what has been put out at
any time, if no write has failed, is a line for each of the first items, and the other items wait on
the sink; and all of them can be put out. Each line is a JSON text that says all that its item says.
Two items have one line, and two lists of items one output, exactly if they are the same but for a
second that runs on for one of its own; so items whose leap seconds are all at the end of a minute have
lines of their own, and those that are routed from log entries are such. -/
theorem puts_out_one_json_line_each (items : List RoutedLine) (hfits : ∀ r ∈ items, r.Fits) :
    (∀ (s : System) (actions : List Action) (s' : System) (effects : List Effect),
      s.run? actions = some (s', effects) → s.pipeline.sink.closed = false → losses effects = [] →
      s.pipeline.sink.items ++ placed effects = items →
      ∃ done, items = done ++ s'.pipeline.sink.items ∧ RoutedLine.AreLines (output effects) done) ∧
    (∀ s : System, s.writer = .writing → s.pipeline.sink.items = items →
      ∃ (s' : System) (effects : List Effect),
        s.run? (List.replicate items.length (.write none)) = some (s', effects) ∧
          s'.pipeline.sink.items = [] ∧ RoutedLine.AreLines (output effects) items) ∧
    (∀ r ∈ items, ∀ r' ∈ items, (r.bytes = r'.bytes ↔ r.settled = r'.settled) ∧
      (r.IsRegular → r'.IsRegular → r.bytes = r'.bytes → r = r')) ∧
    (∀ items' : List RoutedLine, (∀ r ∈ items', r.Fits) →
      (items.flatMap RoutedLine.bytes = items'.flatMap RoutedLine.bytes ↔
        items.map RoutedLine.settled = items'.map RoutedLine.settled)) ∧
    ∀ (router : Router) (record : Record) (timestamp : String),
      router.parser = Postgres.parseLine → record.occurredAt = Time.Rfc3339.parse? timestamp →
      ∀ r ∈ router.route record, r.Fits ∧ r.IsRegular := by
  refine ⟨fun s actions s' effects hrun hopen hlosses hitems => ?_, fun s hw hitems => ?_,
    fun r hr r' hr' => ?_, fun items' hfits' => ⟨fun hbytes => ?_, fun hsettled => ?_⟩,
    fun router record timestamp hparser htime r hr => RoutedLine.fits_of_mem_route hparser htime hr⟩
  · have hlines := lines_of_runs (run?_eq_some_iff.1 hrun) hopen hlosses
    rw [hitems] at hlines
    refine ⟨written effects, hlines.symm, RoutedLine.areLines_bytes fun r hr => hfits r ?_⟩
    exact hlines ▸ List.mem_append_left _ hr
  · obtain ⟨s', effects, hruns, hempty, hwritten⟩ := exists_runs_write hw hitems
    refine ⟨s', effects, run?_eq_some_iff.2 hruns, hempty, ?_⟩
    rw [output, hwritten]
    exact RoutedLine.areLines_bytes hfits
  · have hiff := RoutedLine.bytes_eq_iff (hfits r hr) (hfits r' hr')
    refine ⟨hiff, fun hregular hregular' hbytes => ?_⟩
    rw [← RoutedLine.settled_of_isRegular hregular, hiff.1 hbytes,
      RoutedLine.settled_of_isRegular hregular']
  · have hlines' := RoutedLine.areLines_bytes hfits'
    rw [← hbytes] at hlines'
    exact (RoutedLine.areLines_bytes hfits).unique hlines'
  · rw [← RoutedLine.flatMap_bytes_settled hfits, hsettled, RoutedLine.flatMap_bytes_settled hfits']

/-- The writer at work on some items, while nothing else is. -/
def writing (items : List RoutedLine) : System where
  pipeline := {
    router := ⟨[], Postgres.parseLine, .earliest⟩
    subscriptions := []
    stream := { capacity := 1 }
    sink := { capacity := 2, items }
    now := 0 }

/-- An item that holds what could end its line, or begin another: line ends, quotes and braces. -/
def forging : RoutedLine where
  identity := ⟨"p:i\"\n", "\\", ""⟩
  line := ⟨some ⟨327403379999, 1500000000⟩, .error, some (-1), none, some "\x00", "\"\x7d\x7d\n\x7b\n"⟩

/-- An item with little in it. -/
def plain : RoutedLine where
  identity := ⟨"", "", ""⟩
  line := ⟨none, .log, none, none, none, ""⟩

theorem puts_out_one_json_line_each_forging :
    (∀ r ∈ [forging, plain], r.Fits) ∧ forging.bytes ≠ plain.bytes ∧ ∃ s' effects,
      (writing [forging, plain]).run? [.write none, .write none] = some (s', effects) ∧
        RoutedLine.AreLines (output effects) [forging, plain] := by
  have hforging : forging.Fits := ⟨by simp [forging], by simp [forging, Time.nanosPerSecond]⟩
  have hplain : plain.Fits := ⟨by simp [plain], by simp [plain]⟩
  have hfits : ∀ r ∈ [forging, plain], r.Fits := by simp [hforging, hplain]
  obtain ⟨-, hrun, hdistinct, -⟩ := puts_out_one_json_line_each [forging, plain] hfits
  obtain ⟨s', effects, hwrites, -, hlines⟩ := hrun (writing [forging, plain]) rfl rfl
  refine ⟨hfits, fun hbytes => ?_, s', effects, hwrites, hlines⟩
  have hsettled := (hdistinct forging (by simp) plain (by simp)).1.1 hbytes
  simp [RoutedLine.settled, forging, plain] at hsettled

/-- An item of half a second after the second, which is told as that or as a second and a half after the
second before. -/
def halfPast (time : Time.Instant) : RoutedLine where
  identity := ⟨"p:i", "google_cloudsql", ""⟩
  line := ⟨some time, .log, none, none, none, "ready"⟩

/-- A second that runs on within a minute has the line of the second after it. -/
theorem run_on_second_shares_its_line :
    ¬ ∀ r r' : RoutedLine, r.Fits → r'.Fits → r ≠ r' → r.bytes ≠ r'.bytes := by
  intro h
  have hrunsOn : (halfPast ⟨30, 1500000000⟩).Fits :=
    ⟨by simp [halfPast], by simp [halfPast, Time.nanosPerSecond]⟩
  have hnext : (halfPast ⟨31, 500000000⟩).Fits :=
    ⟨by simp [halfPast], by simp [halfPast, Time.nanosPerSecond]⟩
  exact h _ _ hrunsOn hnext (by decide) ((RoutedLine.bytes_eq_iff hrunsOn hnext).2 (by decide))

end System

end Agent

end LogRelay
