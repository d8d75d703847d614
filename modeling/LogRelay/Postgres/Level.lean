/-!
The severities of a PostgreSQL log line, including the secondary kinds such as `DETAIL` and `HINT`
that belong to a primary entry. A level and its name determine each other (`ofName?_eq_some_iff`).
-/

namespace LogRelay.Postgres

inductive Level where
  | debug5 | debug4 | debug3 | debug2 | debug1
  | info | notice | warning | error | log | fatal | panic
  | detail | hint | context | statement | query | location
  deriving DecidableEq, Repr

namespace Level

def all : List Level :=
  [debug5, debug4, debug3, debug2, debug1, info, notice, warning, error, log, fatal, panic, detail,
    hint, context, statement, query, location]

/-- The word the server writes for the level. -/
def name : Level → String
  | debug5 => "DEBUG5"
  | debug4 => "DEBUG4"
  | debug3 => "DEBUG3"
  | debug2 => "DEBUG2"
  | debug1 => "DEBUG1"
  | info => "INFO"
  | notice => "NOTICE"
  | warning => "WARNING"
  | error => "ERROR"
  | log => "LOG"
  | fatal => "FATAL"
  | panic => "PANIC"
  | detail => "DETAIL"
  | hint => "HINT"
  | context => "CONTEXT"
  | statement => "STATEMENT"
  | query => "QUERY"
  | location => "LOCATION"

/-- The level of that exact name; case matters. -/
def ofName? (word : String) : Option Level :=
  all.find? (·.name == word)

theorem mem_all (l : Level) : l ∈ all := by
  cases l <;> decide

theorem name_injective {a b : Level} (h : a.name = b.name) : a = b := by
  cases a <;> cases b <;> first | rfl | exact absurd h (by decide)

theorem ofName?_name (l : Level) : ofName? l.name = some l := by
  cases l <;> decide

theorem ofName?_eq_some_iff {word : String} {l : Level} : ofName? word = some l ↔ l.name = word := by
  constructor
  · intro h
    simpa using List.find?_some h
  · rintro rfl
    exact ofName?_name l

end Level

end LogRelay.Postgres
