import LogRelay.Event
import LogRelay.Output
import LogRelay.Proofs.Text

/-!
The lines of the text of an event. The mark stands in front of the first one; the others are those of
what the event embeds, just as they are.
-/

namespace LogRelay

namespace Text

/-- What stands between the line ends of a text. -/
def lines (s : String) : List (List Char) := s.toList.splitOn '\n'

variable {s : String}

theorem newline_mem_visibleChar {c : Char} : '\n' ∈ visibleChar c ↔ c = '\n' := by
  rw [visibleChar]
  split
  · rename_i hspecial
    simp only [List.mem_cons, List.not_mem_nil, or_false] at hspecial
    rcases hspecial with rfl | rfl | rfl | rfl | rfl <;> decide
  · split
    · rename_i hrange
      have hlow := digitChar_ne_newline (n := c.toNat % 16) (Nat.mod_lt _ (by decide))
      have hhigh := digitChar_ne_newline (n := c.toNat / 16) (by omega)
      have hne : c ≠ '\n' := by
        rintro rfl
        exact absurd hrange.1 (by decide)
      simp [hne, hlow.symm, hhigh.symm]
    · rw [List.mem_singleton, eq_comm]

/-- What is shown of a text has the line ends of the text. -/
theorem newline_mem_visible : '\n' ∈ (visible s).toList ↔ '\n' ∈ s.toList := by
  simp only [visible, String.toList_ofList, List.mem_flatMap, newline_mem_visibleChar]
  exact ⟨fun ⟨c, hc, heq⟩ => heq ▸ hc, fun h => ⟨'\n', h, rfl⟩⟩

end Text

namespace Event

variable {level : String} {e : Event}

/-- What the text of an event begins with. -/
def heading (e : Event) : String := mark ++ " | " ++ e.happening.severity.name ++ " | "

/-- What follows the heading: the server and the message. -/
def body (level : String) (e : Event) : String :=
  scope level e.server ++ Text.visible e.happening.message

theorem render_eq (level : String) (e : Event) : e.render level = e.heading ++ e.body level :=
  String.append_assoc

theorem newline_not_mem_heading (e : Event) : '\n' ∉ e.heading.toList := by
  rw [heading]
  cases e.happening.severity <;> decide

/-- The heading stands in front of the first line of what follows it. -/
theorem lines_render {first : List Char} {rest : List (List Char)}
    (h : Text.lines (e.body level) = first :: rest) :
    Text.lines (e.render level) = (e.heading.toList ++ first) :: rest := by
  rw [Text.lines, render_eq, String.toList_append]
  exact Text.splitOn_append e.newline_not_mem_heading h

theorem newline_mem_body : '\n' ∈ (e.body level).toList ↔
    (Severity.info.isShownAt level = true ∧ ∃ name, e.server = some name ∧ '\n' ∈ name.toList) ∨
      '\n' ∈ e.happening.message.toList := by
  rw [body, String.toList_append, List.mem_append, Text.newline_mem_visible]
  refine or_congr_left ?_
  cases e.server with
  | none => simp [scope]
  | some name => cases hlevel : Severity.info.isShownAt level <;> simp [scope, hlevel]

/-- A line that is shown as it is, in the middle of a text that is no entry, is a line of the event. -/
theorem mem_lines_render_unparsable {line : String} (hline : '\n' ∉ line.toList)
    (hvisible : line.toList.flatMap Text.visibleChar = line.toList) (level front back : String) :
    line.toList ∈
      Text.lines (render level ⟨.unparsable (front ++ "\n" ++ line ++ "\n" ++ back), none⟩) := by
  have hmessage : Happening.message (.unparsable (front ++ "\n" ++ line ++ "\n" ++ back)) =
      "Can't parse log line: \"" ++ (front ++ "\n" ++ line ++ "\n" ++ back) ++ "\"" := rfl
  have htext : (body level ⟨.unparsable (front ++ "\n" ++ line ++ "\n" ++ back), none⟩).toList =
      ("Can't parse log line: \"" ++ front).toList.flatMap Text.visibleChar ++
        '\n' :: (line.toList ++ '\n' :: (back ++ "\"").toList.flatMap Text.visibleChar) := by
    have hnewline : ("\n".toList).flatMap Text.visibleChar = ['\n'] := by decide
    simp only [body, scope, hmessage, Text.visible, String.toList_append, String.toList_ofList,
      List.flatMap_append, hvisible, hnewline, String.toList_empty, List.nil_append,
      List.append_assoc, List.cons_append]
  rw [Text.lines, render_eq, String.toList_append, htext, ← List.append_assoc]
  exact Text.mem_splitOn_of_between hline _ _

/-- A line of the output does not begin as an event does. -/
theorem not_heading_isPrefix (e : Event) (r : RoutedLine) : ¬ e.heading.toList <+: r.text.toList := by
  rintro ⟨tail, htail⟩
  have hhead : e.heading.toList.head? = some 'D' := by
    rw [heading, String.toList_append, String.toList_append, String.toList_append]
    rfl
  have htext : r.text.toList.head? = some '\x7b' := by
    simp [RoutedLine.text, RoutedLine.json, Json.Value.render, Json.Value.write]
  rw [← htail, List.head?_append, hhead] at htext
  cases htext

end Event

end LogRelay
