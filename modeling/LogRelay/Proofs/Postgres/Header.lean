import LogRelay.Postgres.Parser
import LogRelay.Proofs.Text

/-!
What the header of a log entry says. Its tokens are read from left to right: where one begins it is
taken whole, and a character is passed over only if no token begins with it. Each header has one such
reading (`headerFields_eq_iff`), and of each kind the first usable token counts.
-/

namespace LogRelay.Postgres

/-- The text begins with a token of the field, as long as it can be; the rest follows it. -/
inductive Token : HeaderField → List Char → List Char → Prop
  | pid {digits rest : List Char} (nonempty : digits ≠ [])
      (decimal : ∀ c ∈ digits, Text.isDecimalDigit c = true) :
      Token (.pid digits) ('[' :: (digits ++ ']' :: rest)) rest
  | database {text value rest : List Char} (span : Text.Span isNameChar text value rest)
      (nonempty : value ≠ []) :
      Token (.database value) ('d' :: 'b' :: '=' :: text) rest
  | username {text value rest : List Char} (span : Text.Span isNameChar text value rest)
      (nonempty : value ≠ []) :
      Token (.username value) ('u' :: 's' :: 'e' :: 'r' :: '=' :: text) rest

/-- The tokens of a text from left to right, none overlapping another. -/
inductive Scan : List Char → List HeaderField → Prop
  | nil : Scan [] []
  | token {field : HeaderField} {text rest : List Char} {fields : List HeaderField}
      (token : Token field text rest) (more : Scan rest fields) : Scan text (field :: fields)
  | skip {c : Char} {text : List Char} {fields : List HeaderField}
      (none : ∀ field rest, ¬ Token field (c :: text) rest) (more : Scan text fields) :
      Scan (c :: text) fields

/-- The outcome is the value of the first field that has one, and nothing if no field has one. -/
def IsFirst {α : Type} (hasValue : HeaderField → α → Prop) (fields : List HeaderField)
    (outcome : Option α) : Prop :=
  match outcome with
  | some value => ∃ before field after, fields = before ++ field :: after ∧ hasValue field value ∧
      ∀ other ∈ before, ∀ value', ¬ hasValue other value'
  | none => ∀ field ∈ fields, ∀ value, ¬ hasValue field value

/-- The field holds the process id `n`: its digits are those of ASCII, and the number they write fits
a signed 32-bit integer. -/
def HasPid (field : HeaderField) (n : Int) : Prop :=
  ∃ digits, field = .pid digits ∧ (∀ c ∈ digits, c.isDigit = true) ∧
    (Nat.ofDigitChars 10 digits 0 : Int) = n ∧ n < Nat.pow 2 31

/-- The field names the database. -/
def HasDatabase (field : HeaderField) (name : String) : Prop :=
  ∃ value, field = .database value ∧ String.ofList value = name

/-- The field names the user. -/
def HasUsername (field : HeaderField) (name : String) : Prop :=
  ∃ value, field = .username value ∧ String.ofList value = name

variable {text rest header value : List Char} {field : HeaderField} {fields : List HeaderField}

/-! ### One token -/

theorem name?_eq_some_iff : name? text = some value ↔
    Text.Span isNameChar text value (text.dropWhile isNameChar) ∧ value ≠ [] := by
  rw [Text.span_iff, name?]
  cases hvalue : text.takeWhile isNameChar with
  | nil => simp [eq_comm]
  | cons c more =>
    rw [List.isEmpty_cons, if_neg Bool.false_ne_true, Option.some.injEq]
    exact ⟨fun h => ⟨⟨h, rfl⟩, h ▸ List.cons_ne_nil c more⟩, fun h => h.1.1⟩

theorem name?_of_span (span : Text.Span isNameChar text value rest) (nonempty : value ≠ []) :
    name? text = some value :=
  name?_eq_some_iff.2 ⟨span.dropWhile_eq.symm ▸ span, nonempty⟩

/-- A token has at least one character. -/
theorem fieldHere?_of_token (h : Token field text rest) :
    ∃ c piece, text = c :: (piece ++ rest) ∧ fieldHere? text = some (field, piece.length + 1) := by
  cases h with
  | @pid digits _ nonempty decimal =>
    have hbracket : Text.isDecimalDigit ']' = false := by decide
    have hrun := (Text.span_append_cons decimal hbracket rest).takeWhile_eq
    refine ⟨'[', digits ++ [']'], by simp, ?_⟩
    simp [fieldHere?, hrun, nonempty]
  | @database text value _ span nonempty =>
    refine ⟨'d', 'b' :: '=' :: value, by rw [span.split]; rfl, ?_⟩
    rw [fieldHere?, name?_of_span span nonempty]
    rfl
  | @username text value _ span nonempty =>
    refine ⟨'u', 's' :: 'e' :: 'r' :: '=' :: value, by rw [span.split]; rfl, ?_⟩
    rw [fieldHere?, name?_of_span span nonempty]
    rfl

theorem exists_token_of_fieldHere? {size : Nat} (h : fieldHere? text = some (field, size)) :
    ∃ rest, Token field text rest := by
  unfold fieldHere? at h
  split at h
  · rename_i rest
    dsimp only at h
    split at h
    · rename_i hdigits
      cases h
      have hspan := Text.span_takeWhile Text.isDecimalDigit rest
      generalize rest.takeWhile Text.isDecimalDigit = digits at hdigits hspan ⊢
      simp only [Bool.and_eq_true, Bool.not_eq_true', List.isEmpty_eq_false_iff,
        decide_eq_true_eq] at hdigits
      obtain ⟨hne, hclose⟩ := hdigits
      rw [hspan.split, List.drop_left] at hclose
      obtain ⟨after, hafter⟩ := List.head?_eq_some_iff.1 hclose
      have htext : rest = digits ++ ']' :: after := hafter ▸ hspan.split
      exact ⟨after, htext ▸ .pid hne hspan.inside⟩
    · cases h
  · obtain ⟨v, hv, heq⟩ := Option.map_eq_some_iff.1 h
    cases heq
    obtain ⟨hspan, hne⟩ := name?_eq_some_iff.1 hv
    exact ⟨_, .database hspan hne⟩
  · obtain ⟨v, hv, heq⟩ := Option.map_eq_some_iff.1 h
    cases heq
    obtain ⟨hspan, hne⟩ := name?_eq_some_iff.1 hv
    exact ⟨_, .username hspan hne⟩
  · cases h

theorem fieldHere?_eq_none_iff :
    fieldHere? text = none ↔ ∀ field rest, ¬ Token field text rest := by
  constructor
  · intro h field rest htoken
    obtain ⟨c, piece, -, hsome⟩ := fieldHere?_of_token htoken
    rw [h] at hsome
    cases hsome
  · intro h
    cases hfound : fieldHere? text with
    | none => rfl
    | some found =>
      obtain ⟨rest, htoken⟩ := exists_token_of_fieldHere? hfound
      exact absurd htoken (h _ rest)

/-! ### The whole header -/

theorem fieldsFrom_append (piece rest : List Char) :
    fieldsFrom piece.length (piece ++ rest) = fieldsFrom 0 rest := by
  induction piece with
  | nil => rfl
  | cons c piece ih => exact ih

theorem fieldsFrom_of_token (h : Token field text rest) :
    fieldsFrom 0 text = field :: fieldsFrom 0 rest := by
  obtain ⟨c, piece, rfl, hfound⟩ := fieldHere?_of_token h
  rw [fieldsFrom, hfound]
  exact congrArg (field :: ·) (fieldsFrom_append piece rest)

theorem fieldsFrom_of_scan (h : Scan text fields) : fieldsFrom 0 text = fields := by
  induction h with
  | nil => rfl
  | token token _ ih => rw [fieldsFrom_of_token token, ih]
  | skip none _ ih => rw [fieldsFrom, fieldHere?_eq_none_iff.2 none, ih]

theorem scan_fieldsFrom (text : List Char) : Scan text (fieldsFrom 0 text) := by
  -- on the length, since a token takes more than one character
  induction hn : text.length using Nat.strongRecOn generalizing text with
  | ind n ih =>
    cases text with
    | nil => exact .nil
    | cons c text =>
      cases hfound : fieldHere? (c :: text) with
      | none =>
        have hfields : fieldsFrom 0 (c :: text) = fieldsFrom 0 text := by rw [fieldsFrom, hfound]
        rw [hfields]
        exact .skip (fieldHere?_eq_none_iff.1 hfound) (ih text.length (by simp [← hn]) text rfl)
      | some found =>
        obtain ⟨rest, htoken⟩ := exists_token_of_fieldHere? hfound
        obtain ⟨d, piece, hsplit, -⟩ := fieldHere?_of_token htoken
        have hlt : rest.length < n := by
          rw [← hn, hsplit, List.length_cons, List.length_append]
          omega
        rw [fieldsFrom_of_token htoken]
        exact .token htoken (ih rest.length hlt rest rfl)

/-- Every header has exactly one reading. -/
theorem headerFields_eq_iff : headerFields header = fields ↔ Scan header fields :=
  ⟨fun h => h ▸ scan_fieldsFrom header, fieldsFrom_of_scan⟩

/-! ### The first usable token -/

theorem isFirst_findSome? {α : Type} {get? : HeaderField → Option α}
    {hasValue : HeaderField → α → Prop}
    (h : ∀ field value, get? field = some value ↔ hasValue field value)
    {outcome : Option α} : fields.findSome? get? = outcome ↔ IsFirst hasValue fields outcome := by
  have hnone : ∀ field, get? field = none ↔ ∀ value, ¬ hasValue field value := fun field => by
    simp only [Option.eq_none_iff_forall_ne_some, ne_eq, h]
  cases outcome with
  | none => simp only [List.findSome?_eq_none_iff, hnone, IsFirst]
  | some value => simp only [List.findSome?_eq_some_iff, h, hnone, IsFirst]

theorem pidOfDigits?_eq_some_iff {digits : List Char} {n : Nat} : pidOfDigits? digits = some n ↔
    (∀ c ∈ digits, c.isDigit = true) ∧ Nat.ofDigitChars 10 digits 0 = n ∧ n < Nat.pow 2 31 := by
  have hvalue : digits.foldl (fun n c => 10 * n + (c.toNat - 48)) 0 =
      Nat.ofDigitChars 10 digits 0 := rfl
  rw [pidOfDigits?, hvalue, ← List.all_eq_true]
  simp only [Option.ite_none_right_eq_some, Option.some.injEq]
  refine and_congr_right fun _ => ⟨?_, ?_⟩
  · rintro ⟨hlt, rfl⟩
    exact ⟨rfl, hlt⟩
  · rintro ⟨rfl, hlt⟩
    exact ⟨hlt, rfl⟩

theorem pid?_eq_some_iff {n : Int} : field.pid? = some n ↔ HasPid field n := by
  cases field with
  | pid digits =>
    simp only [HeaderField.pid?, HasPid, Option.map_eq_some_iff, pidOfDigits?_eq_some_iff]
    constructor
    · rintro ⟨m, ⟨hdigits, rfl, hlt⟩, rfl⟩
      exact ⟨digits, rfl, hdigits, rfl, Int.ofNat_lt.2 hlt⟩
    · rintro ⟨_, ⟨⟩, hdigits, rfl, hlt⟩
      exact ⟨_, ⟨hdigits, rfl, Int.ofNat_lt.1 hlt⟩, rfl⟩
  | _ => simp [HeaderField.pid?, HasPid]

theorem database?_eq_some_iff {name : String} :
    field.database? = some name ↔ HasDatabase field name := by
  cases field with
  | database value => simp [HeaderField.database?, HasDatabase]
  | _ => simp [HeaderField.database?, HasDatabase]

theorem username?_eq_some_iff {name : String} :
    field.username? = some name ↔ HasUsername field name := by
  cases field with
  | username value => simp [HeaderField.username?, HasUsername]
  | _ => simp [HeaderField.username?, HasUsername]

end LogRelay.Postgres
