import LogRelay.Proofs.Postgres.Grammar

/-!
Entries as a Cloud SQL server writes them, and that parsing undoes the writing. No text in the names
or in the message can pass for another field or for the marker: the words of the header do not begin
like a level, and each field is taken as a whole.
-/

namespace LogRelay.Postgres

/-- A database or user name that can be told from what stands around it. -/
structure Name where
  text : String
  nonempty : text ≠ ""
  allowed : ∀ c ∈ text.toList, c ≠ ',' ∧ c ≠ ']' ∧ Text.isBlank c = false

/-- What a server has to write. -/
structure ServerEntry where
  pid : Nat
  /-- The counter of the session is of two numbers. -/
  counter : String
  subcounter : String
  database : Name
  username : Name
  level : Level
  message : String
  pid_lt : pid < Nat.pow 2 31
  counter_decimal : ∀ c ∈ counter.toList, Text.isDecimalDigit c = true
  subcounter_decimal : ∀ c ∈ subcounter.toList, Text.isDecimalDigit c = true
  /-- A carriage return before the line feed would count as part of the line end. -/
  noReturn : message.toList.getLast? ≠ some '\r'

namespace ServerEntry

/-- Everything in front of the level. -/
def header (e : ServerEntry) : String :=
  "[" ++ toString e.pid ++ "]: [" ++ e.counter ++ "-" ++ e.subcounter ++ "] db=" ++
    e.database.text ++ ",user=" ++ e.username.text

/-- The text of the entry with its line end. -/
def render (e : ServerEntry) : String :=
  e.header ++ " " ++ e.level.name ++ ":  " ++ e.message ++ "\n"

/-- The entry as it is to be read; spaces and tabs in front of the message are lost. -/
def line (e : ServerEntry) : Line where
  occurredAt := none
  level := e.level
  backendPid := some e.pid
  database := some e.database.text
  username := some e.username.text
  content := String.ofList (e.message.toList.dropWhile isGap)

end ServerEntry

variable {word text rest : List Char} {c : Char} {fields : List HeaderField}

/-! ### Words before the marker -/

theorem isUpper_of_head?_name {level : Level} (h : level.name.toList.head? = some c) :
    c.isUpper = true := by
  have hall : level.name.toList.head?.all Char.isUpper = true := by
    cases level <;> decide
  rw [h] at hall
  exact hall

theorem name_ne_nil (level : Level) : level.name.toList ≠ [] := by
  cases level <;> decide

/-- Every level begins with a capital letter. -/
theorem markerHere?_eq_none_of_head (hc : c.isUpper = false) : markerHere? (c :: rest) = none := by
  cases hfound : markerHere? (c :: rest) with
  | none => rfl
  | some found =>
    obtain ⟨level, message⟩ := found
    obtain ⟨tail, gaps, htext, -, -⟩ := markerHere?_eq_some_iff.1 hfound
    obtain ⟨first, more, hname⟩ := List.exists_cons_of_ne_nil (name_ne_nil level)
    have hhead : level.name.toList.head? = some first := by
      rw [hname]
      rfl
    have hupper : first.isUpper = true := isUpper_of_head?_name hhead
    rw [hname, List.cons_append] at htext
    rw [(List.cons.inj htext).1, hupper] at hc
    cases hc

theorem isInner_of_isDecimalDigit (h : Text.isDecimalDigit c = true) : isInner c = true := by
  have hne : ∀ d, Text.isDecimalDigit d = false → c ≠ d := by
    rintro d hd rfl
    rw [h] at hd
    cases hd
  simp [isInner, isGap, hne ' ' (by decide), hne '\t' (by decide), hne '\n' (by decide)]

theorem isInner_of_isBlank (h : Text.isBlank c = false) : isInner c = true := by
  have hne : ∀ d, Text.isBlank d = true → c ≠ d := by
    rintro d hd rfl
    rw [h] at hd
    cases hd
  simp [isInner, isGap, hne ' ' (by decide), hne '\t' (by decide), hne '\n' (by decide)]

theorem markerAfterGap?_append (hword : ∀ c ∈ word, isInner c = true) :
    markerAfterGap? (word ++ rest) =
      (markerAfterGap? rest).map fun (header, found) => (word ++ header, found) := by
  induction word with
  | nil => simp
  | cons c word ih =>
    obtain ⟨hgap, hline⟩ := isInner_iff.1 (hword c List.mem_cons_self)
    rw [List.cons_append, markerAfterGap?, if_neg hline, hgap, if_neg Bool.false_ne_true]
    rw [ih fun d hd => hword d (List.mem_cons_of_mem c hd), Option.map_map]
    rfl

/-- The search passes over a word and the gap after it, unless a marker follows that gap. -/
theorem markerAfterGap?_word {header : List Char} {found : Level × List Char}
    (hword : ∀ c ∈ word, isInner c = true) (hgap : isGap c = true) (hnone : markerHere? rest = none)
    (hrest : markerAfterGap? rest = some (header, found)) :
    markerAfterGap? (word ++ c :: rest) = some (word ++ c :: header, found) := by
  have hstep : markerAfterGap? (c :: rest) = some (c :: header, found) := by
    rw [markerAfterGap?, if_neg (isGap_ne_newline hgap), if_pos hgap, hnone, hrest]
    rfl
  rw [markerAfterGap?_append hword, hstep]
  rfl

/-- The search stops at a word if a marker follows the gap after it. -/
theorem markerAfterGap?_lastWord {found : Level × List Char} (hword : ∀ c ∈ word, isInner c = true)
    (hgap : isGap c = true) (hfound : markerHere? rest = some found) :
    markerAfterGap? (word ++ c :: rest) = some (word, found) := by
  have hstep : markerAfterGap? (c :: rest) = some ([], found) := by
    rw [markerAfterGap?, if_neg (isGap_ne_newline hgap), if_pos hgap, hfound]
  rw [markerAfterGap?_append hword, hstep]
  exact congrArg (fun header => some (header, found)) (List.append_nil word)

theorem markerHere?_name (level : Level) (message : List Char) :
    markerHere? (level.name.toList ++ ':' :: ' ' :: ' ' :: message) =
      some (level, message.dropWhile isGap) :=
  markerHere?_eq_some_iff.2 (beginsMarker_iff.2 ⟨' ', ' ' :: message, rfl, rfl, rfl⟩)

/-! ### Fields -/

theorem not_token_of_head (hbracket : c ≠ '[') (hd : c ≠ 'd') (hu : c ≠ 'u') (field : HeaderField)
    (rest : List Char) : ¬ Token field (c :: text) rest := by
  intro h
  cases h with
  | pid => exact hbracket rfl
  | database => exact hd rfl
  | username => exact hu rfl

/-- Characters that begin no field are passed over. -/
theorem Scan.append_of_heads (word : List Char) (hword : ∀ c ∈ word, c ≠ '[' ∧ c ≠ 'd' ∧ c ≠ 'u')
    (h : Scan rest fields) : Scan (word ++ rest) fields := by
  induction word with
  | nil => exact h
  | cons c word ih =>
    obtain ⟨hbracket, hd, hu⟩ := hword c List.mem_cons_self
    have hrest := ih fun d hd => hword d (List.mem_cons_of_mem c hd)
    exact .skip (not_token_of_head hbracket hd hu) hrest

/-- Digits in brackets are a process id only if nothing else is in the brackets. -/
theorem not_token_of_counter {digits : List Char}
    (hdigits : ∀ c ∈ digits, Text.isDecimalDigit c = true) (field : HeaderField)
    (rest : List Char) : ¬ Token field ('[' :: (digits ++ '-' :: text)) rest := by
  intro h
  generalize htext : '[' :: (digits ++ '-' :: text) = whole at h
  cases h with
  | pid nonempty decimal =>
    have hspan := Text.span_append_cons hdigits (c := '-') (by decide) text
    have hspan' := Text.span_append_cons decimal (c := ']') (by decide) rest
    have hdrop := hspan.dropWhile_eq
    rw [(List.cons.inj htext).2, hspan'.dropWhile_eq] at hdrop
    exact absurd (List.cons.inj hdrop).1 (by decide)
  | database => exact absurd (List.cons.inj htext).1 (by decide)
  | username => exact absurd (List.cons.inj htext).1 (by decide)

/-! ### The whole entry -/

namespace ServerEntry

variable (e : ServerEntry)

/-- The first word: the process id. -/
def pidWord : List Char := '[' :: (Nat.toDigits 10 e.pid ++ [']', ':'])

/-- The second word: the session. -/
def counterWord : List Char := '[' :: (e.counter.toList ++ '-' :: (e.subcounter.toList ++ [']']))

/-- The third word: database and user. -/
def nameWord : List Char :=
  ['d', 'b', '='] ++ (e.database.text.toList ++
    ([',', 'u', 's', 'e', 'r', '='] ++ e.username.text.toList))

theorem toList_header : e.header.toList =
    e.pidWord ++ ' ' :: (e.counterWord ++ ' ' :: e.nameWord) := by
  simp [header, pidWord, counterWord, nameWord, String.toList_append]

theorem toList_render : e.render.toList =
    e.header.toList ++ ' ' :: (e.level.name.toList ++ ':' :: ' ' :: ' ' :: e.message.toList) ++
      ['\n'] := by
  simp [render, String.toList_append]

theorem isDecimalDigit_of_mem_pid : ∀ c ∈ Nat.toDigits 10 e.pid, Text.isDecimalDigit c = true := by
  intro c hc
  exact Text.isDecimalDigit_of_isDigit (Nat.isDigit_of_mem_toDigits (by decide) (by decide) hc)

theorem isInner_of_mem_pidWord : ∀ c ∈ e.pidWord, isInner c = true := by
  have hpid : ∀ c ∈ Nat.toDigits 10 e.pid, isInner c = true := fun c hc =>
    isInner_of_isDecimalDigit (e.isDecimalDigit_of_mem_pid c hc)
  simp only [pidWord, List.forall_mem_cons, List.forall_mem_append]
  exact ⟨rfl, hpid, rfl, rfl, nofun⟩

theorem isInner_of_mem_counterWord : ∀ c ∈ e.counterWord, isInner c = true := by
  have hcounter : ∀ c ∈ e.counter.toList, isInner c = true := fun c hc =>
    isInner_of_isDecimalDigit (e.counter_decimal c hc)
  have hsub : ∀ c ∈ e.subcounter.toList, isInner c = true := fun c hc =>
    isInner_of_isDecimalDigit (e.subcounter_decimal c hc)
  simp only [counterWord, List.forall_mem_cons, List.forall_mem_append]
  exact ⟨rfl, hcounter, rfl, hsub, rfl, nofun⟩

theorem isInner_of_mem_nameWord : ∀ c ∈ e.nameWord, isInner c = true := by
  have hdatabase : ∀ c ∈ e.database.text.toList, isInner c = true := fun c hc =>
    isInner_of_isBlank (e.database.allowed c hc).2.2
  have husername : ∀ c ∈ e.username.text.toList, isInner c = true := fun c hc =>
    isInner_of_isBlank (e.username.allowed c hc).2.2
  simp only [nameWord, List.forall_mem_append]
  exact ⟨List.all_eq_true.1 rfl, hdatabase, List.all_eq_true.1 rfl, husername⟩

/-- The leftmost marker is the one that was written. -/
theorem marker?_header : marker? (e.header.toList ++
      ' ' :: (e.level.name.toList ++ ':' :: ' ' :: ' ' :: e.message.toList)) =
    some (e.header.toList, e.level, e.message.toList.dropWhile isGap) := by
  have hfound := markerHere?_name e.level e.message.toList
  generalize e.level.name.toList ++ ':' :: ' ' :: ' ' :: e.message.toList = marked at hfound ⊢
  have hnames := markerAfterGap?_lastWord (c := ' ') e.isInner_of_mem_nameWord rfl hfound
  have hcounter := markerAfterGap?_word (c := ' ') e.isInner_of_mem_counterWord rfl
    (markerHere?_eq_none_of_head (by decide)) hnames
  have hpid := markerAfterGap?_word (c := ' ') e.isInner_of_mem_pidWord rfl
    (markerHere?_eq_none_of_head (by decide)) hcounter
  rw [toList_header, List.append_assoc, List.cons_append, List.append_assoc, List.cons_append]
  rw [marker?, pidWord, List.cons_append, markerHere?_eq_none_of_head (by decide)]
  exact hpid

theorem scan_nameWord : Scan e.nameWord
    [.database e.database.text.toList, .username e.username.text.toList] := by
  have hnames : ∀ name : Name,
      name.text.toList ≠ [] ∧ ∀ c ∈ name.text.toList, isNameChar c = true := by
    intro name
    refine ⟨by simpa using name.nonempty, fun c hc => ?_⟩
    obtain ⟨hcomma, hbracket, hblank⟩ := name.allowed c hc
    simp [isNameChar, hcomma, hbracket, hblank]
  obtain ⟨hdatabase, hinside⟩ := hnames e.database
  obtain ⟨husername, hinside'⟩ := hnames e.username
  have huser : Text.Span isNameChar e.username.text.toList e.username.text.toList [] :=
    ⟨(List.append_nil _).symm, hinside', nofun⟩
  refine .token (.database (Text.span_append_cons hinside rfl _) hdatabase) ?_
  exact Scan.append_of_heads [','] (by simp) (.token (.username huser husername) .nil)

theorem scan_counterWord {rest : List Char} {fields : List HeaderField} (h : Scan rest fields) :
    Scan (e.counterWord ++ rest) fields := by
  have hdigits : ∀ c, Text.isDecimalDigit c = true → c ≠ '[' ∧ c ≠ 'd' ∧ c ≠ 'u' := by
    intro c hc
    refine ⟨?_, ?_, ?_⟩ <;> (rintro rfl; exact absurd hc (by decide))
  have hword : ∀ c ∈ e.counter.toList ++ '-' :: (e.subcounter.toList ++ [']']),
      c ≠ '[' ∧ c ≠ 'd' ∧ c ≠ 'u' := by
    simp only [List.forall_mem_cons, List.forall_mem_append]
    exact ⟨fun c hc => hdigits c (e.counter_decimal c hc), by decide,
      fun c hc => hdigits c (e.subcounter_decimal c hc), by simp⟩
  rw [counterWord, List.cons_append]
  refine .skip (fun field rest' => ?_) (.append_of_heads _ hword h)
  rw [List.append_assoc]
  exact not_token_of_counter e.counter_decimal field rest'

/-- The fields are those that were written. -/
theorem headerFields_header : headerFields e.header.toList =
    [.pid (Nat.toDigits 10 e.pid), .database e.database.text.toList,
      .username e.username.text.toList] := by
  rw [headerFields_eq_iff, toList_header, pidWord, List.cons_append, List.append_assoc]
  have hnames := Scan.append_of_heads [' '] (by simp) e.scan_nameWord
  exact .token (.pid Nat.toDigits_ne_nil e.isDecimalDigit_of_mem_pid)
    (Scan.append_of_heads [':', ' '] (by simp) (e.scan_counterWord hnames))

theorem ofParts_header :
    Line.ofParts e.header.toList e.level (e.message.toList.dropWhile isGap) = e.line := by
  have hpid : pidOfDigits? (Nat.toDigits 10 e.pid) = some e.pid :=
    pidOfDigits?_eq_some_iff.2 ⟨fun c hc => Nat.isDigit_of_mem_toDigits (by decide) (by decide) hc,
      Nat.ofDigitChars_toDigits (by decide) (by decide), e.pid_lt⟩
  rw [Line.ofParts, headerFields_header]
  simp [List.findSome?, HeaderField.pid?, HeaderField.database?, HeaderField.username?, hpid, line]

/-- Nothing but the line end is taken off the end of the message. -/
theorem body?_render : body? [] e.render.toList = some (e.header.toList ++
    ' ' :: (e.level.name.toList ++ ':' :: ' ' :: ' ' :: e.message.toList)) := by
  have hlast : ∀ front : List Char,
      (front ++ ' ' :: e.message.toList).getLast? ≠ some '\r' := by
    intro front
    have hnoReturn := e.noReturn
    cases hmessage : e.message.toList with
    | nil => simp
    | cons c rest =>
      rw [hmessage] at hnoReturn
      simpa [List.getLast?_append, List.getLast?_cons] using hnoReturn
  have hbody := hlast (e.header.toList ++ ' ' :: (e.level.name.toList ++ [':', ' ']))
  simp only [List.append_assoc, List.cons_append, List.nil_append] at hbody
  rw [toList_render]
  exact body?_lineFeed hbody

end ServerEntry

/-- Parsing gives back what was written, whatever the names and the message hold. -/
theorem parse_undoes_render (e : ServerEntry) : parseLine "" e.render = some e.line :=
  parseLine_eq_some_iff.2 ⟨_, _, _, _, e.body?_render, e.marker?_header, e.ofParts_header⟩

/-- An entry whose names and message are full of other fields and markers. -/
def lookalikes : ServerEntry where
  pid := 2147483647
  counter := "3"
  subcounter := "1"
  database := ⟨"user=x;[7", by decide, by simp [Text.isBlank]⟩
  username := ⟨"db=ERROR:", by decide, by simp [Text.isBlank]⟩
  level := .statement
  message := "\t ERROR:  [8] user=y\nLOG: z\r\n"
  pid_lt := by decide
  counter_decimal := List.all_eq_true.1 rfl
  subcounter_decimal := List.all_eq_true.1 rfl
  noReturn := by decide

theorem parse_undoes_render_lookalikes :
    parseLine "" ("[2147483647]: [3-1] db=user=x;[7,user=db=ERROR: STATEMENT:  " ++
        "\t ERROR:  [8] user=y\nLOG: z\r\n\n") =
      some ⟨none, .statement, some 2147483647, some "user=x;[7", some "db=ERROR:",
        "ERROR:  [8] user=y\nLOG: z\r\n"⟩ :=
  parse_undoes_render lookalikes

end LogRelay.Postgres
