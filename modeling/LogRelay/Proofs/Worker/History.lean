import LogRelay.Proofs.Worker.Step

/-!
The life of a worker as a list of moves with their effects, whatever its surroundings do in between.
Messages are accounted for one by one: what a worker has done for them and what it still owes is
always the whole handling of the batches whose acknowledgement came through.
-/

namespace LogRelay.Worker

/-! ### What is seen of a worker -/

namespace Effect

def record? : Effect → Option Record
  | emit record => some record
  | _ => none

def undecodable? : Effect → Option Envelope.Error
  | report (.undecodable cause) => some cause
  | _ => none

def acknowledgedIds? : Effect → Option (List String)
  | acknowledge ids => some ids
  | _ => none

/-- Whether the effect is what becomes of one message. -/
def isHandling (e : Effect) : Bool := e.record?.isSome || e.undecodable?.isSome

end Effect

/-- The records put on the stream. -/
def emitted (effects : List Effect) : List Record := effects.filterMap Effect.record?

/-- The errors told about messages that cannot be decoded. -/
def complaints (effects : List Effect) : List Envelope.Error := effects.filterMap Effect.undecodable?

/-- What the calls to acknowledge carried. -/
def acknowledgements (effects : List Effect) : List (List String) :=
  effects.filterMap Effect.acknowledgedIds?

/-- The batches that the calls for messages brought, empty ones left out. -/
def batches (moves : List Move) : List (List Message) :=
  moves.filterMap fun
    | .received (.ok (first :: rest)) => some (first :: rest)
    | _ => none

/-- The batch that is held after a move: the one that the last call brought, if that call was one for
messages. -/
def heldAfter : Option (List Message) → Move → Option (List Message)
  | _, .received (.ok batch) => some batch
  | held, .resume => held
  | _, _ => none

/-- The held batch, if its acknowledgement comes through with a move. -/
def confirms : Option (List Message) → Move → List (List Message)
  | some batch, .acknowledged (.ok ()) => [batch]
  | _, _ => []

def confirmedFrom (held : Option (List Message)) : List Move → List (List Message)
  | [] => []
  | m :: moves => confirms held m ++ confirmedFrom (heldAfter held m) moves

theorem confirmedFrom_append (held : Option (List Message)) (xs ys : List Move) :
    confirmedFrom held (xs ++ ys) =
      confirmedFrom held xs ++ confirmedFrom (xs.foldl heldAfter held) ys := by
  induction xs generalizing held with
  | nil => rfl
  | cons m xs ih =>
    rw [List.cons_append, confirmedFrom, confirmedFrom, ih, List.append_assoc]
    rfl

/-- The batches whose acknowledgement came through. -/
def confirmed (moves : List Move) : List (List Message) := confirmedFrom none moves

/-! ### What is to be done for messages -/

/-- The records that messages hold. -/
def accepted (w : Worker) (messages : List Message) : List Record :=
  messages.filterMap fun m =>
    match w.decode m.data with
    | .ok record? => record?
    | .error _ => none

/-- The errors of the messages that cannot be decoded. -/
def undecodable (w : Worker) (messages : List Message) : List Envelope.Error :=
  messages.filterMap fun m =>
    match w.decode m.data with
    | .ok _ => none
    | .error cause => some cause

/-- What is to be done for messages, in their order. -/
def handling (w : Worker) (messages : List Message) : List Effect :=
  messages.flatMap fun m =>
    match w.decode m.data with
    | .ok (some record) => [.emit record]
    | .ok none => []
    | .error cause => [.report (.undecodable cause)]

/-- What is still to be done for messages that are acknowledged. -/
def due (w : Worker) : State → List Effect
  | .sending record rest => .emit record :: w.handling rest
  | _ => []

variable {w : Worker} {cancelled : Bool} {now : Nat} {stream stream' : Channel Record}
  {state state' : State} {m : Move} {moves : List Move} {effects : List Effect}

theorem handling_append (xs ys : List Message) :
    w.handling (xs ++ ys) = w.handling xs ++ w.handling ys := List.flatMap_append

theorem emitted_append (xs ys : List Effect) : emitted (xs ++ ys) = emitted xs ++ emitted ys :=
  List.filterMap_append

theorem accepted_flatten (batches : List (List Message)) :
    w.accepted batches.flatten = batches.flatMap w.accepted :=
  List.filterMap_flatten

theorem undecodable_flatten (batches : List (List Message)) :
    w.undecodable batches.flatten = batches.flatMap w.undecodable :=
  List.filterMap_flatten

/-- Whatever is looked for in the handling of messages is found message by message. -/
theorem filterMap_handling {α : Type} (f : Effect → Option α) (messages : List Message) :
    (w.handling messages).filterMap f = messages.filterMap fun m =>
      match w.decode m.data with
      | .ok (some record) => f (.emit record)
      | .ok none => none
      | .error cause => f (.report (.undecodable cause)) := by
  induction messages with
  | nil => rfl
  | cons m rest ih =>
    rw [handling] at ih ⊢
    rw [List.flatMap_cons, List.filterMap_append, List.filterMap_cons, ih]
    match w.decode m.data with
    | .ok (some record) => cases hf : f (.emit record) <;> simp [hf]
    | .ok none => rfl
    | .error cause => cases hf : f (.report (.undecodable cause)) <;> simp [hf]

theorem emitted_handling (messages : List Message) :
    emitted (w.handling messages) = w.accepted messages := by
  rw [emitted, filterMap_handling, accepted]
  congr 1
  funext m
  match w.decode m.data with
  | .ok (some record) => rfl
  | .ok none => rfl
  | .error cause => rfl

theorem complaints_handling (messages : List Message) :
    complaints (w.handling messages) = w.undecodable messages := by
  rw [complaints, filterMap_handling, undecodable]
  congr 1
  funext m
  match w.decode m.data with
  | .ok (some record) => rfl
  | .ok none => rfl
  | .error cause => rfl

theorem isHandling_of_mem {messages : List Message} {e : Effect} (he : e ∈ w.handling messages) :
    e.isHandling = true := by
  obtain ⟨m, -, hm⟩ := List.mem_flatMap.1 he
  split at hm
  · rw [List.mem_singleton.1 hm]; rfl
  · simp at hm
  · rw [List.mem_singleton.1 hm]; rfl

theorem filter_handling (messages : List Message) :
    (w.handling messages).filter Effect.isHandling = w.handling messages :=
  List.filter_eq_self.2 fun _ he => isHandling_of_mem he

theorem emitted_filter (effects : List Effect) :
    emitted (effects.filter Effect.isHandling) = emitted effects := by
  rw [emitted, List.filterMap_filter]
  congr 1
  funext e
  cases e <;> simp [Effect.isHandling, Effect.record?]

theorem complaints_filter (effects : List Effect) :
    complaints (effects.filter Effect.isHandling) = complaints effects := by
  rw [complaints, List.filterMap_filter]
  congr 1
  funext e
  cases e with
  | report happening => cases happening <;> rfl
  | _ => rfl

/-- A worker goes through acknowledged messages up to the next record; without one it asks for
messages again. All that it passes over has been dealt with by then. -/
theorem proceed_cases (w : Worker) (messages : List Message) :
    (∃ passed m record rest, messages = passed ++ m :: rest ∧ w.accepted passed = [] ∧
      w.decode m.data = .ok (some record) ∧
      w.proceed false messages = (.sending record rest, w.handling passed)) ∨
    (w.accepted messages = [] ∧
      w.proceed false messages = (.receiving, w.handling messages ++ [.receive])) := by
  induction messages with
  | nil => exact .inr ⟨rfl, rfl⟩
  | cons m rest ih =>
    match hm : w.decode m.data with
    | .ok (some record) =>
      exact .inl ⟨[], m, record, rest, rfl, rfl, hm, by simp [proceed, hm, handling]⟩
    | .ok none =>
      rcases ih with ⟨passed, m', record, rest', rfl, hp, hm', hr⟩ | ⟨ha, hr⟩
      · exact .inl ⟨m :: passed, m', record, rest', rfl, by simpa [accepted, hm] using hp, hm',
          by simp [proceed, hm, hr, handling]⟩
      · exact .inr ⟨by simpa [accepted, hm] using ha, by simp [proceed, hm, hr, handling]⟩
    | .error cause =>
      rcases ih with ⟨passed, m', record, rest', rfl, hp, hm', hr⟩ | ⟨ha, hr⟩
      · exact .inl ⟨m :: passed, m', record, rest', rfl, by simpa [accepted, hm] using hp, hm',
          by simp [proceed, hm, hr, handling]⟩
      · exact .inr ⟨by simpa [accepted, hm] using ha, by simp [proceed, hm, hr, handling]⟩

theorem proceed_ne_ended (messages : List Message) : (w.proceed false messages).1 ≠ .ended := by
  rcases proceed_cases w messages with ⟨passed, m, record, rest, -, -, -, hr⟩ | ⟨-, hr⟩ <;> simp [hr]

theorem proceed_ne_acknowledging (messages batch : List Message) :
    (w.proceed false messages).1 ≠ .acknowledging batch := by
  rcases proceed_cases w messages with ⟨passed, m, record, rest, -, -, -, hr⟩ | ⟨-, hr⟩ <;> simp [hr]

/-- Going through messages loses none of them and makes none up. -/
theorem handling_eq_proceed (messages : List Message) :
    (w.proceed false messages).2.filter Effect.isHandling ++ w.due (w.proceed false messages).1 =
      w.handling messages := by
  rcases proceed_cases w messages with ⟨passed, m, record, rest, rfl, -, hm, hr⟩ | ⟨-, hr⟩
  · have hcons : w.handling (m :: rest) = .emit record :: w.handling rest := by simp [handling, hm]
    rw [hr, handling_append, hcons, filter_handling]
    rfl
  · rw [hr, List.filter_append, filter_handling]
    simp [due, Effect.isHandling, Effect.record?, Effect.undecodable?]

/-- What is seen besides the handling of messages is a call for more, at the very end. -/
theorem proceed_of_mem {messages : List Message} {e : Effect}
    (he : e ∈ (w.proceed false messages).2) (hn : e.isHandling = false) :
    e = .receive ∧ (w.proceed false messages).1 = .receiving := by
  rcases proceed_cases w messages with ⟨passed, m, record, rest, -, -, -, hr⟩ | ⟨-, hr⟩
  · rw [hr] at he
    simp [isHandling_of_mem he] at hn
  · rw [hr] at he ⊢
    rcases List.mem_append.1 he with he | he
    · simp [isHandling_of_mem he] at hn
    · exact ⟨List.mem_singleton.1 he, rfl⟩

theorem emitted_proceed (messages : List Message) : emitted (w.proceed false messages).2 = [] := by
  rcases proceed_cases w messages with ⟨passed, m, record, rest, -, hp, -, hr⟩ | ⟨ha, hr⟩
  · rw [hr, emitted_handling, hp]
  · rw [hr, emitted_append, emitted_handling, ha]
    rfl

theorem acknowledgements_proceed (messages : List Message) :
    acknowledgements (w.proceed false messages).2 = [] := by
  refine List.filterMap_eq_nil_iff.2 fun e he => ?_
  cases e with
  | acknowledge ids => exact absurd (proceed_of_mem he rfl).1 nofun
  | _ => rfl

end LogRelay.Worker
