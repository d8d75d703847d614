import LogRelay.Proofs.Worker.Pacing

/-!
How many calls for messages fit into a stretch of time. Calls that fail keep the distance that the
settings ask for, and calls that bring nothing keep a second, so a provider that answers at once
cannot make a worker spin.
-/

namespace LogRelay.Worker

namespace Sight

/-- Whether a call, for messages or to acknowledge some, comes back as failed. -/
def isFailure : Sight → Bool
  | moved (.received (.error (.transport _))) => true
  | moved (.acknowledged (.error (.transport _))) => true
  | _ => false

/-- Whether a call for messages comes back with none. -/
def isEmptyBatch : Sight → Bool
  | moved (.received (.ok [])) => true
  | _ => false

end Sight

namespace Call

/-- When something of a kind came of the call, if it did. -/
def endedAt? (kind : Sight → Bool) (c : Call) : Option Nat :=
  (c.events.find? (kind ·.2)).map (·.1)

/-- Whether something of a kind came of the call, not before `first`, and the call was made by
`last`. -/
def meets (kind : Sight → Bool) (first last : Nat) (c : Call) : Bool :=
  (c.endedAt? kind).any fun u => first ≤ u && c.start ≤ last

/-- The next call comes no earlier than a gap after something of a kind came of this one. -/
structure Spaced (kind : Sight → Bool) (gap : Nat) (c d : Call) : Prop where
  start_le : c.start ≤ d.start
  after : ∀ u, c.endedAt? kind = some u → c.start ≤ u ∧ u + gap ≤ d.start

variable {kind : Sight → Bool} {gap first last : Nat} {c : Call} {cs : List Call}

instance : Trans (Spaced kind gap) (Spaced kind gap) (Spaced kind gap) where
  trans h h' := ⟨Nat.le_trans h.start_le h'.start_le, fun u hu =>
    ⟨(h.after u hu).1, Nat.le_trans (h.after u hu).2 h'.start_le⟩⟩

theorem meets_iff : c.meets kind first last ↔
    ∃ u, c.endedAt? kind = some u ∧ first ≤ u ∧ c.start ≤ last := by
  cases h : c.endedAt? kind <;> simp [meets, h]

/-- Calls of one kind that follow one another take up the gaps between them. -/
theorem start_add_gaps_le (hs : (c :: cs).Pairwise (Spaced kind gap))
    (hm : ∀ d ∈ c :: cs, d.meets kind first last) : c.start + cs.length * gap ≤ last := by
  induction cs generalizing c with
  | nil =>
    obtain ⟨u, -, -, hc⟩ := meets_iff.1 (hm c List.mem_cons_self)
    simpa using hc
  | cons d cs ih =>
    obtain ⟨hc, hs⟩ := List.pairwise_cons.1 hs
    obtain ⟨u, hu, -, -⟩ := meets_iff.1 (hm c List.mem_cons_self)
    obtain ⟨hstart, hgap⟩ := (hc d List.mem_cons_self).after u hu
    have hrest := ih hs fun e he => hm e (List.mem_cons_of_mem c he)
    rw [List.length_cons, Nat.succ_mul]
    omega

/-- Within a stretch of time there is at most one call of a kind more than gaps. The first may have
begun before, and the last may end later. -/
theorem length_filter_meets_le (hs : cs.Pairwise (Spaced kind gap)) (first span : Nat) :
    ((cs.filter (meets kind first (first + span))).length - 1) * gap ≤ span := by
  have hm : ∀ d ∈ cs.filter (meets kind first (first + span)),
      d.meets kind first (first + span) := fun d hd => (List.mem_filter.1 hd).2
  have hf := hs.filter (meets kind first (first + span))
  match h : cs.filter (meets kind first (first + span)) with
  | [] => simp
  | [_] => simp
  | c :: d :: rest =>
    rw [h] at hm hf
    obtain ⟨hc, hd⟩ := List.pairwise_cons.1 hf
    obtain ⟨u, hu, hfirst, -⟩ := meets_iff.1 (hm c List.mem_cons_self)
    have hgap := ((hc d List.mem_cons_self).after u hu).2
    have hrest := start_add_gaps_le hd fun e he => hm e (List.mem_cons_of_mem c he)
    rw [List.length_cons, List.length_cons, Nat.add_sub_cancel, Nat.succ_mul]
    omega

theorem length_filter_meets_le_div (hs : cs.Pairwise (Spaced kind gap)) (hgap : 0 < gap)
    (first span : Nat) :
    (cs.filter (meets kind first (first + span))).length ≤ span / gap + 1 := by
  have h := (Nat.le_div_iff_mul_le hgap).2 (length_filter_meets_le hs first span)
  omega

end Call

/-! ### The distance between calls -/

variable {w : Worker} {kind : Sight → Bool} {t t' : Nat} {messages left : List Message}
  {l : Timeline} {c d : Call}

/-- Going through a batch ends no call. -/
theorem Handled.find?_eq_none (hmove : kind (.moved .resume) = false)
    (hseen : ∀ e, kind (.seen e) = false) (h : Handled w t messages l left t') :
    l.find? (kind ·.2) = none := by
  induction h with
  | rest => rfl
  | passedOver _ _ ih => exact ih
  | undecodable _ _ ih => simp [hseen, ih]
  | sent _ _ _ ih => simp [hmove, hseen, ih]

theorem Round.spaced_of_failure (h : Round w c.start c.events d.start) :
    c.Spaced Sight.isFailure (1000 * w.retrySecs) d := by
  obtain ⟨t, events⟩ := c
  obtain ⟨t', _⟩ := d
  dsimp only at h
  cases h with
  | receiveFailed hu hrest =>
    refine ⟨by dsimp only; omega, fun x hx => ?_⟩
    obtain rfl : _ = x := by simpa [Call.endedAt?, Sight.isFailure] using hx
    exact ⟨hu, hrest⟩
  | empty hu hrest =>
    exact ⟨by dsimp only; omega, fun x hx => by simp [Call.endedAt?, Sight.isFailure] at hx⟩
  | acknowledgeFailed hu _ hv hrest =>
    refine ⟨by dsimp only; omega, fun x hx => ?_⟩
    obtain rfl : _ = x := by simpa [Call.endedAt?, Sight.isFailure] using hx
    exact ⟨Nat.le_trans hu hv, hrest⟩
  | @delivered _ _ _ _ l hu _ hv hh =>
    have hle := hh.le
    refine ⟨by dsimp only; omega, fun x hx => ?_⟩
    change (l.find? (Sight.isFailure ·.2)).map (·.1) = some x at hx
    rw [hh.find?_eq_none rfl fun _ => rfl] at hx
    cases hx

theorem Round.spaced_of_emptyBatch (h : Round w c.start c.events d.start) :
    c.Spaced Sight.isEmptyBatch emptyBatchPause d := by
  obtain ⟨t, events⟩ := c
  obtain ⟨t', _⟩ := d
  dsimp only at h
  cases h with
  | receiveFailed hu hrest =>
    exact ⟨by dsimp only; omega, fun x hx => by
      simp [Call.endedAt?, Sight.isEmptyBatch, failure] at hx⟩
  | empty hu hrest =>
    refine ⟨by dsimp only; omega, fun x hx => ?_⟩
    obtain rfl : _ = x := by simpa [Call.endedAt?, Sight.isEmptyBatch] using hx
    exact ⟨hu, hrest⟩
  | @acknowledgeFailed _ _ _ batch _ hu hb hv hrest =>
    obtain ⟨first, rest, rfl⟩ := List.exists_cons_of_ne_nil hb
    exact ⟨by dsimp only; omega, fun x hx => by
      simp [Call.endedAt?, Sight.isEmptyBatch, failure] at hx⟩
  | @delivered _ _ _ batch l hu hb hv hh =>
    obtain ⟨first, rest, rfl⟩ := List.exists_cons_of_ne_nil hb
    have hle := hh.le
    refine ⟨by dsimp only; omega, fun x hx => ?_⟩
    change (l.find? (Sight.isEmptyBatch ·.2)).map (·.1) = some x at hx
    rw [hh.find?_eq_none rfl fun _ => rfl] at hx
    cases hx

/-- Over every run of a worker, however its calls end and whatever time they take. From each call for
messages to the next there is one of the four rounds, with all that happens in it; what happens after
the last call is the beginning of one. A failure is told once, at the time of the failure. In every
stretch of time there is at most one call that fails more than there are rests in it, and one that
brings nothing more than there are seconds in it. -/
theorem paces_calls_for_messages (w : Worker) (capacity now : Nat) (actions : List Action)
    {s : System} {effects : List Effect}
    (hrun : (System.start capacity now).run? w actions = some (s, effects)) :
    ((System.start capacity now).timeline w actions).filterMap (·.2.effect?) = effects ∧
    ((System.start capacity now).callsMade w actions).IsChain
      (fun c d : Call => Round w c.start c.events d.start) ∧
    (∀ c, ((System.start capacity now).callsMade w actions).getLast? = some c →
      s.state = .ended ∨ ∃ u ≤ s.now, Since w c.start c.events s.state u) ∧
    (∀ cause, w.failure cause =
        .seen (.report (.receiveFailed w.subscription w.retrySecs (.transport cause))) ∧
      (Happening.receiveFailed w.subscription w.retrySecs (.transport cause)).severity = .error ∧
      (Happening.receiveFailed w.subscription w.retrySecs (.transport cause)).message =
        "Failed to receive from " ++ w.subscription ++ ", retrying in " ++
          toString w.retrySecs ++ "s: " ++ cause) ∧
    ∀ first span,
      ((((System.start capacity now).callsMade w actions).filter
        (Call.meets Sight.isFailure first (first + span))).length - 1) * (1000 * w.retrySecs) ≤
          span ∧
      (0 < w.retrySecs → (((System.start capacity now).callsMade w actions).filter
        (Call.meets Sight.isFailure first (first + span))).length ≤
          span / (1000 * w.retrySecs) + 1) ∧
      (((System.start capacity now).callsMade w actions).filter
        (Call.meets Sight.isEmptyBatch first (first + span))).length ≤ span / 1000 + 1 := by
  have hruns := System.run?_eq_some_iff.1 hrun
  obtain ⟨hchain, hlast⟩ := System.rounds_of_starting hruns rfl
  have hfailures : ((System.start capacity now).callsMade w actions).Pairwise
      (Call.Spaced Sight.isFailure (1000 * w.retrySecs)) :=
    (hchain.imp fun _ _ h => h.spaced_of_failure).pairwise
  have hempty : ((System.start capacity now).callsMade w actions).Pairwise
      (Call.Spaced Sight.isEmptyBatch emptyBatchPause) :=
    (hchain.imp fun _ _ h => h.spaced_of_emptyBatch).pairwise
  refine ⟨System.filterMap_timeline hruns, hchain, hlast, fun _ => ⟨rfl, rfl, rfl⟩, ?_⟩
  intro first span
  refine ⟨Call.length_filter_meets_le hfailures first span, fun hretry => ?_, ?_⟩
  · exact Call.length_filter_meets_le_div hfailures (by omega) first span
  · exact Call.length_filter_meets_le_div hempty (by decide) first span

/-- A call that fails, one that brings nothing, a batch that waits for room, and a batch that cannot
be acknowledged. -/
def unevenProvider : List Action :=
  [.move .resume, .tick 5, .move (.received (.error (.transport "reset by peer"))), .tick 60000,
    .move .resume, .move (.received (.ok [])), .tick 1000,
    .move .resume, .move (.received (.ok [⟨"a1", [65]⟩, ⟨"a2", [0, 0]⟩, ⟨"a3", [66]⟩])), .tick 7,
    .move (.acknowledged (.ok ())), .move .resume, .take, .tick 100, .move .resume,
    .move (.received (.ok [⟨"b1", [67]⟩])), .move (.acknowledged (.error (.transport "timeout")))]

theorem paces_calls_for_messages_unevenProvider :
    ∃ s effects, (System.start 1 0).run? byteWorker unevenProvider = some (s, effects) ∧
      s.state = .coolingDown 121112 ∧
      ((System.start 1 0).callsMade byteWorker unevenProvider).map
        (fun c => (c.start, c.endedAt? Sight.isFailure, c.endedAt? Sight.isEmptyBatch)) =
        [(0, some 5, none), (60005, none, some 60005), (61005, none, none),
          (61112, some 61112, none)] ∧
      ((System.start 1 0).callsMade byteWorker unevenProvider).IsChain
        (fun c d : Call => Round byteWorker c.start c.events d.start) ∧
      (((System.start 1 0).callsMade byteWorker unevenProvider).filter
        (Call.meets Sight.isFailure 0 (0 + 61112))).length ≤ 61112 / (1000 * 60) + 1 := by
  have h := paces_calls_for_messages byteWorker 1 0 unevenProvider rfl
  exact ⟨_, _, rfl, rfl, rfl, h.2.1, (h.2.2.2.2 0 61112).2.1 (by decide)⟩

end LogRelay.Worker
