import LogRelay.Proofs.Postgres.Header
import LogRelay.Proofs.Postgres.Marker

/-!
The grammar of server log entries, and that the default line parser reads it: a text is an entry
exactly if it has a body with a marker on its first physical line, and the entry is made of the
leftmost one, of what follows it, and of the tokens in front of it.
-/

namespace LogRelay.Postgres

/-- The body stands between `lead` and a line terminator, which is as long as it can be. -/
inductive HasBody (lead : List Char) : List Char → List Char → Prop
  | lineFeed {body : List Char} (noReturn : (lead ++ body).getLast? ≠ some '\r') :
      HasBody lead (lead ++ body ++ ['\n']) body
  | carriageReturn {body : List Char} : HasBody lead (lead ++ body ++ ['\r', '\n']) body

/-- The line is what the tokens of its header, its level and its message make it. -/
structure HasParts (line : Line) (fields : List HeaderField) (level : Level)
    (message : List Char) : Prop where
  occurredAt : line.occurredAt = none
  level : line.level = level
  backendPid : IsFirst HasPid fields line.backendPid
  database : IsFirst HasDatabase fields line.database
  username : IsFirst HasUsername fields line.username
  content : line.content = String.ofList message

/-- The line is the entry that the text holds. Its header is what stands before the leftmost marker,
without the gap that separates them. -/
def IsEntry (lead text : String) (line : Line) : Prop :=
  ∃ body before level message fields, HasBody lead.toList text.toList body ∧
    LeftmostMarker body before level message ∧ Scan before.dropLast fields ∧
    HasParts line fields level message

variable {lead text body header message : List Char} {level : Level} {line : Line}

theorem stripLast?_eq_some_iff {c : Char} {rest : List Char} :
    stripLast? c text = some rest ↔ text = rest ++ [c] := by
  rw [stripLast?]
  constructor
  · intro h
    split at h
    · rename_i hlast
      obtain ⟨front, rfl⟩ := List.getLast?_eq_some_iff.1 hlast
      rw [List.dropLast_concat] at h
      rw [Option.some.inj h]
    · cases h
  · rintro rfl
    rw [if_pos List.getLast?_concat, List.dropLast_concat]

theorem stripLast?_eq_none_iff {c : Char} : stripLast? c text = none ↔ text.getLast? ≠ some c := by
  rw [stripLast?]
  split <;> simp [*]

theorem body?_eq_some_iff : body? lead text = some body ↔ HasBody lead text body := by
  constructor
  · intro h
    obtain ⟨line, hline, hbody⟩ := Option.bind_eq_some_iff.1 h
    obtain rfl := stripLast?_eq_some_iff.1 hline
    cases hreturn : stripLast? '\r' line with
    | none =>
      rw [hreturn, Option.getD_none, stripLead?_eq_some_iff] at hbody
      subst hbody
      exact .lineFeed (stripLast?_eq_none_iff.1 hreturn)
    | some front =>
      obtain rfl := stripLast?_eq_some_iff.1 hreturn
      rw [hreturn, Option.getD_some, stripLead?_eq_some_iff] at hbody
      subst hbody
      rw [List.append_assoc]
      exact .carriageReturn
  · intro h
    cases h with
    | lineFeed noReturn =>
      refine Option.bind_eq_some_iff.2 ⟨lead ++ body, stripLast?_eq_some_iff.2 rfl, ?_⟩
      rw [stripLast?_eq_none_iff.2 noReturn, Option.getD_none, stripLead?_eq_some_iff]
    | carriageReturn =>
      refine Option.bind_eq_some_iff.2 ⟨lead ++ body ++ ['\r'], stripLast?_eq_some_iff.2 ?_, ?_⟩
      · simp
      · rw [stripLast?_eq_some_iff.2 rfl, Option.getD_some, stripLead?_eq_some_iff]

/-- A body that has no carriage return at its end keeps all its characters. -/
theorem body?_lineFeed (h : body.getLast? ≠ some '\r') :
    body? [] (body ++ ['\n']) = some body := by
  have hbody : HasBody [] ([] ++ body ++ ['\n']) body := .lineFeed h
  exact body?_eq_some_iff.2 hbody

theorem ofParts_eq_iff : Line.ofParts header level message = line ↔
    HasParts line (headerFields header) level message := by
  constructor
  · rintro rfl
    exact ⟨rfl, rfl, (isFirst_findSome? fun _ _ => pid?_eq_some_iff).1 rfl,
      (isFirst_findSome? fun _ _ => database?_eq_some_iff).1 rfl,
      (isFirst_findSome? fun _ _ => username?_eq_some_iff).1 rfl, rfl⟩
  · intro h
    have hpid := (isFirst_findSome? fun _ _ => pid?_eq_some_iff).2 h.backendPid
    have hdatabase := (isFirst_findSome? fun _ _ => database?_eq_some_iff).2 h.database
    have husername := (isFirst_findSome? fun _ _ => username?_eq_some_iff).2 h.username
    cases line
    rw [Line.ofParts, hpid, hdatabase, husername, ← h.occurredAt, ← h.level, ← h.content]

theorem parseLine_eq_some_iff {lead text : String} : parseLine lead text = some line ↔
    ∃ body header level message, body? lead.toList text.toList = some body ∧
      marker? body = some (header, level, message) ∧ Line.ofParts header level message = line := by
  simp only [parseLine, Option.bind_eq_bind, Option.bind_eq_some_iff, Prod.exists,
    Option.pure_def, Option.some.injEq]
  constructor
  · rintro ⟨body, hbody, header, level, message, hmarker, hline⟩
    exact ⟨body, header, level, message, hbody, hmarker, hline⟩
  · rintro ⟨body, header, level, message, hbody, hmarker, hline⟩
    exact ⟨body, hbody, header, level, message, hmarker, hline⟩

/-- The default parser reads exactly the grammar: it gives an entry if and only if the text has a
body with a marker on its first physical line, and then the one that the grammar says. -/
theorem parses_leftmost_marker (lead text : String) :
    ((parseLine lead text).isSome = true ↔ ∃ body before level message,
      HasBody lead.toList text.toList body ∧ MarkerAt body before level message) ∧
    ∀ line, parseLine lead text = some line ↔ IsEntry lead text line := by
  refine ⟨?_, fun line => ?_⟩
  · rw [Option.isSome_iff_exists]
    constructor
    · rintro ⟨line, hline⟩
      obtain ⟨body, header, level, message, hbody, hmarker, -⟩ := parseLine_eq_some_iff.1 hline
      obtain ⟨before, hleft, -⟩ := marker?_eq_some_iff.1 hmarker
      exact ⟨body, before, level, message, body?_eq_some_iff.1 hbody, hleft.marker⟩
    · rintro ⟨body, before, level, message, hbody, hmarker⟩
      obtain ⟨⟨header, level', message'⟩, hfound⟩ := Option.isSome_iff_exists.1
        (isSome_marker?_iff.2 ⟨before, level, message, hmarker⟩)
      exact ⟨_, parseLine_eq_some_iff.2
        ⟨body, header, level', message', body?_eq_some_iff.2 hbody, hfound, rfl⟩⟩
  · rw [parseLine_eq_some_iff]
    constructor
    · rintro ⟨body, header, level, message, hbody, hmarker, hline⟩
      obtain ⟨before, hleft, rfl⟩ := marker?_eq_some_iff.1 hmarker
      exact ⟨body, before, level, message, _, body?_eq_some_iff.1 hbody, hleft,
        headerFields_eq_iff.1 rfl, ofParts_eq_iff.1 hline⟩
    · rintro ⟨body, before, level, message, fields, hbody, hleft, hscan, hline⟩
      obtain rfl := headerFields_eq_iff.2 hscan
      exact ⟨body, before.dropLast, level, message, body?_eq_some_iff.2 hbody,
        marker?_eq_some_iff.2 ⟨before, hleft, rfl⟩, ofParts_eq_iff.2 hline⟩

/-- A number too large for a process id is passed over; a second marker belongs to the message. -/
example : (parseLine "" "[2147483648] [7]: db=a,user=b LOG: \t LOG:  x\nERROR: y\r\n").map
    (fun line => (line.level, line.backendPid, line.content)) =
      some (.log, some 7, "LOG:  x\nERROR: y") := by decide +kernel

end LogRelay.Postgres
