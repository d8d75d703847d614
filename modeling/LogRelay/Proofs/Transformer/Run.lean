import LogRelay.Proofs.Runs
import LogRelay.Proofs.Transformer.Path
import LogRelay.Transformer.System

/-!
Runs of the transformer by itself, between writers of its stream and a reader of its sink that go at
any pace. A run is a path of the transformer, and what is put on a queue is taken from it or still
there.
-/

namespace LogRelay.Transformer

/-- The record that an action puts on the stream. -/
def Action.record? : Action → Option Record
  | .put record => some record
  | _ => none

/-- The records that are put on the stream. -/
def puts (actions : List Action) : List Record := actions.filterMap Action.record?

/-- Whether the action leaves the transformer to its work. -/
def Action.isCalm : Action → Bool
  | .cancel => false
  | .close => false
  | _ => true

namespace System

/-- The transformer before its first move, with an empty stream and an empty sink. -/
def start (streamCapacity sinkCapacity : Nat) : System :=
  { stream := { capacity := streamCapacity }, sink := { capacity := sinkCapacity } }

/-- The line that an action takes off the sink. -/
def takes (s : System) : Action → List RoutedLine
  | .take => (s.sink.take?.map (·.1)).toList
  | _ => []

/-- The lines that the reader of the sink takes. -/
def taken (router : Router) (s : System) (actions : List Action) : List RoutedLine :=
  gather (act? router) takes s actions

/-- Nobody has called the transformer off, and its sink has a reader. -/
structure Undisturbed (s : System) : Prop where
  live : s.cancelled = false
  isRead : s.sink.closed = false

variable {router : Router} {s s' : System} {a : Action} {actions : List Action}
  {effects : List Effect}

theorem run?_eq_some_iff :
    s.run? router actions = some (s', effects) ↔ Runs (act? router) s actions effects s' :=
  Runs.of_recursion (fun _ => rfl) fun _ _ _ => rfl

theorem act?_move_iff :
    s.act? router .move = some (s', effects) ↔ ∃ stream,
      Step router s.cancelled s.isOpen s.stream s.sink s.state s'.state stream s'.sink effects ∧
        s'.stream = (if s'.state.isLive then stream else stream.close) ∧ s'.isOpen = s.isOpen ∧
        s'.cancelled = s.cancelled := by
  simp only [act?, Option.map_eq_some_iff, Prod.exists, move?_eq_some_iff, Prod.mk.injEq]
  constructor
  · rintro ⟨state, stream, sink, es, h, rfl, rfl⟩
    exact ⟨stream, h, rfl, rfl, rfl⟩
  · rintro ⟨stream, h, hst, ho, hc⟩
    exact ⟨_, stream, _, _, h, by rw [← hst, ← ho, ← hc], rfl⟩

theorem act?_put_iff {record : Record} :
    s.act? router (.put record) = some (s', effects) ↔
      s.isOpen = true ∧ ∃ stream, s.stream.send record = .sent stream ∧ s' = { s with stream } ∧
        effects = [] := by
  cases ho : s.isOpen with
  | false => simp [act?, ho]
  | true =>
    cases hsend : s.stream.send record with
    | sent stream => simp [act?, ho, hsend, eq_comm]
    | full => simp [act?, ho, hsend]
    | closed => simp [act?, ho, hsend]

theorem act?_take_iff :
    s.act? router .take = some (s', effects) ↔
      ∃ line sink, s.sink.take? = some (line, sink) ∧ s' = { s with sink } ∧ effects = [] := by
  constructor
  · intro h
    obtain ⟨⟨line, sink⟩, htake, hs⟩ := Option.map_eq_some_iff.1 h
    cases hs
    exact ⟨line, sink, htake, rfl, rfl⟩
  · rintro ⟨line, sink, htake, rfl, rfl⟩
    simp [act?, htake]

/-- An action is a move of the transformer, or it neither moves the transformer nor is seen. -/
theorem act?_cases (h : s.act? router a = some (s', effects)) :
    (a = .move ∧ ∃ stream, Step router s.cancelled s.isOpen s.stream s.sink s.state s'.state stream
        s'.sink effects ∧ s'.cancelled = s.cancelled) ∨
      (a ≠ .move ∧ s'.state = s.state ∧ effects = []) := by
  cases a with
  | move =>
    obtain ⟨stream, hstep, -, -, hc⟩ := act?_move_iff.1 h
    exact .inl ⟨rfl, stream, hstep, hc⟩
  | put record =>
    obtain ⟨-, stream, -, rfl, rfl⟩ := act?_put_iff.1 h
    exact .inr ⟨nofun, rfl, rfl⟩
  | take =>
    obtain ⟨line, sink, -, rfl, rfl⟩ := act?_take_iff.1 h
    exact .inr ⟨nofun, rfl, rfl⟩
  | finish => cases h; exact .inr ⟨nofun, rfl, rfl⟩
  | close => cases h; exact .inr ⟨nofun, rfl, rfl⟩
  | cancel => cases h; exact .inr ⟨nofun, rfl, rfl⟩

theorem Undisturbed.act? (hs : s.Undisturbed) (hcalm : a.isCalm)
    (h : s.act? router a = some (s', effects)) : s'.Undisturbed := by
  cases a with
  | move =>
    obtain ⟨stream, hstep, -, -, hc⟩ := act?_move_iff.1 h
    exact ⟨hc.trans hs.live, hstep.sink_closed.trans hs.isRead⟩
  | put record =>
    obtain ⟨-, stream, -, rfl, -⟩ := act?_put_iff.1 h
    exact ⟨hs.live, hs.isRead⟩
  | take =>
    obtain ⟨line, sink, htake, rfl, -⟩ := act?_take_iff.1 h
    exact ⟨hs.live, (Channel.take?_closed htake).trans hs.isRead⟩
  | finish => cases h; exact ⟨hs.live, hs.isRead⟩
  | close => cases hcalm
  | cancel => cases hcalm

/-- Without interference the runs of the transformer are calm paths. -/
theorem path_of_runs (h : Runs (System.act? router) s actions effects s')
    (hcalm : ∀ a ∈ actions, a.isCalm) (hs : s.Undisturbed) :
    Path router True s.state effects s'.state := by
  induction h with
  | nil => exact .rest _
  | @cons s mid s' a actions first more ha _ ih =>
    have hrest := ih (fun b hb => hcalm b (List.mem_cons_of_mem a hb))
      (hs.act? (hcalm a List.mem_cons_self) ha)
    rcases act?_cases ha with ⟨-, stream, hstep, -⟩ | ⟨-, hstate, rfl⟩
    · exact .move hstep (fun _ => ⟨hs.live, hs.isRead⟩) hrest
    · rwa [hstate] at hrest

theorem undisturbed_of_runs (h : Runs (System.act? router) s actions effects s')
    (hcalm : ∀ a ∈ actions, a.isCalm) (hs : s.Undisturbed) : s'.Undisturbed := by
  induction h with
  | nil => exact hs
  | @cons _ _ _ a _ _ _ ha _ ih =>
    exact ih (fun b hb => hcalm b (List.mem_cons_of_mem a hb))
      (hs.act? (hcalm a List.mem_cons_self) ha)

theorem items_of_act? (hs : s.Undisturbed) (hcalm : a.isCalm)
    (h : s.act? router a = some (s', effects)) :
    consumed effects ++ s'.stream.items = s.stream.items ++ a.record?.toList := by
  cases a with
  | move =>
    obtain ⟨stream, hstep, hstream, -⟩ := act?_move_iff.1 h
    rw [hstream, hstep.items_eq hs.live hs.isRead]
    exact (List.append_nil _).symm
  | put record =>
    obtain ⟨-, stream, hsend, rfl, rfl⟩ := act?_put_iff.1 h
    obtain ⟨-, -, rfl⟩ := Channel.send_eq_sent_iff.1 hsend
    rfl
  | take =>
    obtain ⟨line, sink, -, rfl, rfl⟩ := act?_take_iff.1 h
    exact (List.append_nil _).symm
  | finish => cases h; exact (List.append_nil _).symm
  | close => cases hcalm
  | cancel => cases hcalm

/-- Without interference no record is lost, not even with the end of the transformer. -/
theorem items_of_runs (h : Runs (System.act? router) s actions effects s')
    (hcalm : ∀ a ∈ actions, a.isCalm) (hs : s.Undisturbed) :
    consumed effects ++ s'.stream.items = s.stream.items ++ puts actions := by
  induction h with
  | nil => exact (List.append_nil _).symm
  | @cons s mid s' a actions first more ha _ ih =>
    have hfirst := hcalm a List.mem_cons_self
    have hputs : puts (a :: actions) = a.record?.toList ++ puts actions := by
      cases a <;> rfl
    have hrest := ih (fun b hb => hcalm b (List.mem_cons_of_mem a hb)) (hs.act? hfirst ha)
    rw [consumed_append, List.append_assoc, hrest, ← List.append_assoc, items_of_act? hs hfirst ha,
      hputs, List.append_assoc]

/-- What was put on the sink and what was taken from it keep adding up. -/
theorem sink_accounts_of_runs {sent read : List RoutedLine}
    (h : Runs (System.act? router) s actions effects s') (hs : s.sink.Accounts sent read) :
    s'.sink.Accounts (sent ++ emitted effects) (read ++ s.taken router actions) := by
  induction h generalizing sent read with
  | nil => exact hs.unchanged
  | @cons s mid s' a actions first more ha _ ih =>
    rw [taken, gather_cons ha, emitted_append, ← List.append_assoc, ← List.append_assoc]
    refine ih ?_
    cases a with
    | move =>
      obtain ⟨stream, hstep, -⟩ := act?_move_iff.1 ha
      exact (List.append_nil read).symm ▸ hstep.sink_accounts hs
    | put record =>
      obtain ⟨-, stream, -, rfl, rfl⟩ := act?_put_iff.1 ha
      exact hs.unchanged
    | take =>
      obtain ⟨line, sink, htake, rfl, rfl⟩ := act?_take_iff.1 ha
      simpa [emitted, takes, htake] using hs.take htake
    | finish => cases ha; exact hs.unchanged
    | close => cases ha; exact hs.close.unchanged
    | cancel => cases ha; exact hs.unchanged

end System

end LogRelay.Transformer
