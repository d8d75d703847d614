import LogRelay.Proofs.Worker.Run

/-!
What a worker delivers. It puts the records of confirmed batches on the stream, all of them, in their
order and each once; it acknowledges a batch as soon as it has it and once, and asks for more only
when nothing of the last batch is left.
-/

namespace LogRelay.Worker

variable {w : Worker} {state state' : State} {ms : List Move} {effects : List Effect}

/-- A look around confirms nothing. -/
theorem confirmedFrom_snoc_resume (held : Option (List Message)) (ms : List Move) :
    confirmedFrom held (ms ++ [.resume]) = confirmedFrom held ms := by
  have hnone : confirmedFrom (ms.foldl heldAfter held) [.resume] = [] := by
    cases ms.foldl heldAfter held <;> rfl
  rw [confirmedFrom_append, hnone, List.append_nil]

/-- From its first turn on, what a worker has done for messages is the beginning of the handling of
the batches that were confirmed. -/
theorem Path.handled_isPrefix (h : Path w .starting ms effects state) :
    effects.filter Effect.isHandling <+: w.handling (confirmed ms).flatten := by
  obtain ⟨rest, heq, -⟩ := h.handling_eq none nofun
  exact ⟨rest, heq⟩

theorem Path.handled_of_receiving (h : Path w .starting ms effects .receiving) :
    effects.filter Effect.isHandling = w.handling (confirmed ms).flatten := by
  obtain ⟨rest, heq, hrest⟩ := h.handling_eq none nofun
  rw [hrest nofun] at heq
  simpa [due, confirmed] using heq

theorem Path.emitted_isPrefix (h : Path w .starting ms effects state) :
    emitted effects <+: (confirmed ms).flatMap w.accepted := by
  have hp := h.handled_isPrefix.filterMap Effect.record?
  rwa [← emitted, ← emitted, emitted_filter, emitted_handling, accepted_flatten] at hp

theorem Path.complaints_isPrefix (h : Path w .starting ms effects state) :
    complaints effects <+: (confirmed ms).flatMap w.undecodable := by
  have hp := h.handled_isPrefix.filterMap Effect.undecodable?
  rwa [← complaints, ← complaints, complaints_filter, complaints_handling, undecodable_flatten] at hp

theorem Path.emitted_of_receiving (h : Path w .starting ms effects .receiving) :
    emitted effects = (confirmed ms).flatMap w.accepted := by
  have he := congrArg emitted h.handled_of_receiving
  rwa [emitted_filter, emitted_handling, accepted_flatten] at he

theorem Path.complaints_of_receiving (h : Path w .starting ms effects .receiving) :
    complaints effects = (confirmed ms).flatMap w.undecodable := by
  have he := congrArg complaints h.handled_of_receiving
  rwa [complaints_filter, complaints_handling, undecodable_flatten] at he

theorem Step.resume_of_emitted {cancelled : Bool} {now : Nat} {stream stream' : Channel Record}
    {m : Move} (h : Step w cancelled now stream state m state' stream' effects)
    (he : emitted effects ≠ []) : m = .resume := by
  cases h with
  | acknowledged => exact absurd (emitted_proceed _) he
  | sent => rfl
  | _ => exact absurd rfl he

namespace System

variable {s s' : System} {a : Action} {actions : List Action} {new : List Effect}

theorem moves_snoc : moves (actions ++ [a]) = moves actions ++ a.ownMove?.toList := by
  cases a <;> simp [moves, Action.ownMove?]

/-- Nothing is put on the stream before its batch is confirmed. -/
theorem confirmed_of_emitted (ha : s.act? w a = some (s', new)) (he : emitted new ≠ []) :
    confirmed (moves (actions ++ [a])) = confirmed (moves actions) := by
  rcases act?_cases ha with ⟨m, rfl, hstep⟩ | ⟨-, -, rfl⟩
  · rw [moves_snoc, hstep.resume_of_emitted he]
    exact confirmedFrom_snoc_resume none _
  · exact absurd rfl he

end System

/-- Over every run of a worker, with any room on its stream. The records it has put on the stream are
the beginning of those of the confirmed batches, and its reader gets them in that order. Messages are
passed over with a complaint each, and every batch that came is acknowledged once and whole, in the
move that brought it. A record is put on the stream only after its batch is confirmed. When the worker
asks for more, nothing of the confirmed batches is left. -/
theorem delivers_confirmed_batches (w : Worker) (capacity now : Nat) (actions : List Action)
    {s : System} {effects : List Effect}
    (hrun : (System.start capacity now).run? w actions = some (s, effects)) :
    emitted effects <+: (confirmed (moves actions)).flatMap w.accepted ∧
    complaints effects <+: (confirmed (moves actions)).flatMap w.undecodable ∧
    acknowledgements effects <+: (batches (moves actions)).map (·.map (·.ackId)) ∧
    s.stream.Accounts (emitted effects) ((System.start capacity now).taken w actions) ∧
    ∀ a s' new, s.act? w a = some (s', new) →
      (∀ ids, .acknowledge ids ∈ new → ∃ batch, a = .move (.received (.ok batch)) ∧ batch ≠ [] ∧
        ids = batch.map (·.ackId) ∧ new = [.acknowledge ids]) ∧
      (emitted new ≠ [] →
        emitted (effects ++ new) <+: (confirmed (moves actions)).flatMap w.accepted) ∧
      (.receive ∈ new →
        emitted (effects ++ new) = (confirmed (moves (actions ++ [a]))).flatMap w.accepted ∧
        complaints (effects ++ new) =
          (confirmed (moves (actions ++ [a]))).flatMap w.undecodable) := by
  have hruns := System.run?_eq_some_iff.1 hrun
  have hpath := System.path_of_runs hruns
  obtain ⟨rest, hacks, -⟩ := hpath.acknowledgements_eq
  refine ⟨hpath.emitted_isPrefix, hpath.complaints_isPrefix, ⟨rest, hacks⟩, ?_, ?_⟩
  · exact System.accounts_of_runs hruns (Channel.accounts_start capacity)
  intro a s' new ha
  have hnext := System.path_of_runs (hruns.snoc ha)
  rcases System.act?_cases ha with ⟨m, rfl, hstep⟩ | ⟨-, -, rfl⟩
  · refine ⟨fun ids hids => ?_, fun he => ?_, fun hr => ?_⟩
    · obtain ⟨batch, rfl, hb⟩ := hstep.of_acknowledge hids
      exact ⟨batch, rfl, hb⟩
    · rw [← System.confirmed_of_emitted ha he]
      exact hnext.emitted_isPrefix
    · rw [hstep.of_receive hr] at hnext
      exact ⟨hnext.emitted_of_receiving, hnext.complaints_of_receiving⟩
  · exact ⟨nofun, fun he => absurd rfl he, nofun⟩

/-- Two batches, of which the second is never confirmed. -/
def lostSecondBatch : List Action :=
  [.move .resume, .move (.received (.ok [⟨"a1", [65]⟩, ⟨"a2", [0, 0]⟩, ⟨"a3", []⟩, ⟨"a4", [66]⟩])),
    .move (.acknowledged (.ok ())), .move .resume, .take, .move .resume,
    .move (.received (.ok [⟨"b1", [67]⟩])),
    .move (.acknowledged (.error (.transport "reset by peer"))), .tick 60000, .move .resume]

theorem delivers_confirmed_batches_lostSecondBatch :
    ∃ s effects, (System.start 1 0).run? byteWorker lostSecondBatch = some (s, effects) ∧
      emitted effects = [⟨"p", "i", none, "A"⟩, ⟨"p", "i", none, "B"⟩] ∧
      emitted effects <+: (confirmed (moves lostSecondBatch)).flatMap byteWorker.accepted ∧
      acknowledgements effects = [["a1", "a2", "a3", "a4"], ["b1"]] ∧
      s.stream.Accounts (emitted effects) ((System.start 1 0).taken byteWorker lostSecondBatch) := by
  have h := delivers_confirmed_batches byteWorker 1 0 lostSecondBatch rfl
  exact ⟨_, _, rfl, rfl, h.1, rfl, h.2.2.2.1⟩

end LogRelay.Worker
