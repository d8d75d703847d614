import LogRelay.Proofs.Json.List
import LogRelay.Proofs.PubSub.Demand
import LogRelay.PubSub.Client

/-!
What answers bring. A pull brings the messages of a successful answer, in the order in which the
service writes them and with their data untouched, or none at all when it times out; an
acknowledgement needs no more than a successful answer.
-/

namespace LogRelay.PubSub

open Json (Value ReadsMembers textMembers utf8)

/-! ### Deliveries as they are written -/

/-- A delivery as the service writes it. -/
structure Delivery where
  ackId : String
  /-- The message: its data, where there is any, and its other members, which are texts. -/
  message : Option (Option String × List (String × String))
  /-- Other members, which are texts. -/
  others : List (String × String)

namespace Delivery

/-- The members of a message. -/
def messageMembers (data : Option String) (others : List (String × String)) :
    List (String × Value) :=
  (data.map fun s => ("data", Value.text s)).toList ++ textMembers others

/-- The members of a delivery. -/
def members (d : Delivery) : List (String × Value) :=
  ("ackId", Value.text d.ackId) ::
    ((d.message.map fun m => ("message", Value.object (messageMembers m.1 m.2))).toList ++
      textMembers d.others)

/-- The message that is handed on: its data is the text as it stands, and empty if there is none. -/
def received (d : Delivery) : Message :=
  ⟨d.ackId, Text.Utf8.encode ((d.message.bind (·.1)).getD "")⟩

/-- The other members go by other names. -/
structure WellFormed (d : Delivery) : Prop where
  message : ∀ m, d.message = some m → "data" ∉ m.2.map Prod.fst
  others : "ackId" ∉ d.others.map Prod.fst ∧ "message" ∉ d.others.map Prod.fst

variable {d : Delivery} {data : Option String} {others : List (String × String)}

theorem read_message (h : "data" ∉ others.map Prod.fst) (rest : List UInt8) :
    Client.messageSchema.read (utf8 (Value.object (messageMembers data others)).write ++ rest) =
      .ok (data, rest) := by
  have hdata : ReadsMembers Client.messageSchema.readMember none
      (data.map fun s => ("data", Value.text s)).toList data := by
    cases data with
    | none => exact .nil none
    | some s =>
      refine .cons (fun rest => Json.readMember_known rfl rfl ?_) (.nil _)
      dsimp only
      rw [Json.readText_text]
      rfl
  have hothers : ReadsMembers Client.messageSchema.readMember data (textMembers others) data := by
    refine Json.readsMembers_unknown fun key hkey => ?_
    have hne : "data" ≠ key := by
      rintro rfl
      exact h hkey
    simp [Client.messageSchema, hne]
  exact Json.read_object (hdata.append hothers) rfl rest

/-- What is read of a delivery, field by field. -/
def draft (d : Delivery) : Client.Draft :=
  ⟨some d.ackId, d.message.bind (·.1), d.message.isSome⟩

theorem readsMembers_members (h : d.WellFormed) :
    ReadsMembers Client.deliverySchema.readMember {} d.members d.draft := by
  have hmessage : ReadsMembers Client.deliverySchema.readMember { ackId := some d.ackId }
      (d.message.map fun m => ("message", Value.object (messageMembers m.1 m.2))).toList d.draft := by
    rw [draft]
    cases hm : d.message with
    | none => exact .nil _
    | some m =>
      refine .cons (fun rest => Json.readMember_known rfl rfl ?_) (.nil _)
      dsimp only
      rw [read_message (h.message m hm)]
      rfl
  have hothers : ReadsMembers Client.deliverySchema.readMember d.draft (textMembers d.others)
      d.draft := by
    refine Json.readsMembers_unknown fun key hkey => ?_
    have hack : "ackId" ≠ key := by
      rintro rfl
      exact h.others.1 hkey
    have hne : "message" ≠ key := by
      rintro rfl
      exact h.others.2 hkey
    simp [Client.deliverySchema, hack, hne]
  refine .cons (fun rest => Json.readMember_known rfl rfl ?_) (hmessage.append hothers)
  dsimp only
  rw [Json.readText_text]
  rfl

theorem readMessage_members (h : d.WellFormed) (rest : List UInt8) :
    Client.readMessage (utf8 (Value.object d.members).write ++ rest) = .ok (d.received, rest) := by
  rw [Client.readMessage, Json.read_object (readsMembers_members h) rfl]
  rfl

end Delivery

/-- The answer to a pull as the service writes it; without deliveries there may be no list at all. -/
def pullAnswer (deliveries : Option (List Delivery)) : String :=
  (Value.object (deliveries.map fun ds =>
    ("receivedMessages", Value.list (Json.objects Delivery.members ds))).toList).render

/-- The messages of an answer, in the order in which they are written. -/
theorem read_pullAnswer {deliveries : Option (List Delivery)}
    (h : ∀ ds, deliveries = some ds → ∀ d ∈ ds, d.WellFormed) :
    Json.readWhole Client.pullSchema.read (Text.Utf8.encode (pullAnswer deliveries)) =
      .ok (deliveries.map (·.map Delivery.received)) := by
  have hread : ReadsMembers Client.pullSchema.readMember none (deliveries.map fun ds =>
      ("receivedMessages", Value.list (Json.objects Delivery.members ds))).toList
      (deliveries.map (·.map Delivery.received)) := by
    cases deliveries with
    | none => exact .nil none
    | some ds =>
      refine .cons (fun rest => Json.readMember_known rfl rfl ?_) (.nil _)
      dsimp only
      rw [Json.readList_objects fun d hd => Delivery.readMessage_members (h ds rfl d hd)]
      rfl
  have hobject := Json.read_object hread rfl []
  rw [List.append_nil] at hobject
  rw [pullAnswer, Value.render, Json.encode_ofList, Json.readWhole, hobject]
  rfl

/-! ### What a reply brings -/

/-- The messages that the reply to a pull brings. -/
inductive Brings : Http.Reply → List Message → Prop
  | answered {status time : Nat} {body : List UInt8} {found : Option (List Message)}
      (hs : 200 ≤ status ∧ status < 300) (hread : Json.readWhole Client.pullSchema.read
        (if Http.Status.hasBody status then body else []) = .ok found) :
      Brings ⟨.answered status body, time⟩ (found.getD [])
  | timedOut {time : Nat} : Brings ⟨.timedOut, time⟩ []

/-- The reply is an answer with a status of success, whatever its body. -/
def Accepts (reply : Http.Reply) : Prop :=
  ∃ status, (200 ≤ status ∧ status < 300) ∧
    ((∃ body, reply.outcome = .answered status body) ∨ reply.outcome = .cutOff status)

variable {reply : Http.Reply} {url : Http.Url} {messages : List Message}

theorem isSuccess_iff {status : Nat} :
    Http.Status.isSuccess status = true ↔ 200 ≤ status ∧ status < 300 := by
  simp [Http.Status.isSuccess]

/-- What a pull makes of a body, which may not come to its end. -/
def readPulled (body : Option (List UInt8)) : Option (List Message) :=
  (body.bind fun bytes => (Json.readWhole Client.pullSchema.read bytes).toOption).map (·.getD [])

theorem pulled_ok (answer : Http.Answer) :
    (Client.pulled (.ok answer)).toOption =
      if Http.Status.isSuccess answer.status then readPulled answer.body else none := by
  obtain ⟨url, status, body, time⟩ := answer
  by_cases hs : Http.Status.isSuccess status = true
  · simp only [Client.pulled, Client.checked, hs, if_true, readPulled]
    cases body with
    | none => rfl
    | some bytes =>
      cases hread : Json.readWhole Client.pullSchema.read bytes with
      | error cause =>
        simp only [bind, Except.bind, Http.Answer.read, hread, Option.bind_some]
        rfl
      | ok found =>
        simp only [bind, Except.bind, Http.Answer.read, hread, Option.bind_some]
        rfl
  · simp only [Client.pulled, Client.checked, hs]
    rfl

theorem readPulled_nil : readPulled (some []) = none := rfl

theorem toOption_pulled (url : Http.Url) : (Client.pulled (reply.answer url)).toOption = some messages ↔
    Brings reply messages := by
  obtain ⟨outcome, time⟩ := reply
  cases outcome with
  | answered status body =>
    simp only [Http.Reply.answer, pulled_ok, Option.ite_none_right_eq_some, isSuccess_iff, readPulled,
      Option.bind_some, Option.map_eq_some_iff, toOption_eq_some_iff]
    constructor
    · rintro ⟨hs, found, hread, rfl⟩
      exact .answered hs hread
    · intro h
      cases h with
      | answered hs hread => exact ⟨hs, _, hread, rfl⟩
  | cutOff status =>
    have hnone : (Client.pulled (Http.Reply.answer ⟨.cutOff status, time⟩ url)).toOption = none := by
      simp only [Http.Reply.answer, pulled_ok, ite_eq_right_iff]
      intro
      split
      · rfl
      · exact readPulled_nil
    rw [hnone]
    exact ⟨fun h => (by cases h), fun h => (by cases h)⟩
  | lost =>
    exact ⟨fun h => (by cases h), fun h => (by cases h)⟩
  | timedOut =>
    constructor
    · intro h
      cases h
      exact .timedOut
    · intro h
      cases h
      rfl

theorem pulled_eq_ok_iff : Client.pulled (reply.answer url) = .ok messages ↔ Brings reply messages := by
  rw [← toOption_pulled url, toOption_eq_some_iff]

theorem acknowledged_eq_ok_iff :
    Client.acknowledged (reply.answer url) = .ok () ↔ Accepts reply := by
  have hchecked : ∀ answer : Http.Answer, Client.acknowledged (.ok answer) = .ok () ↔
      200 ≤ answer.status ∧ answer.status < 300 := by
    intro answer
    rw [← isSuccess_iff]
    by_cases hs : Http.Status.isSuccess answer.status = true
    · simp [Client.acknowledged, Client.checked, hs, Except.map]
    · simp [Client.acknowledged, Client.checked, hs, Except.map]
  obtain ⟨outcome, time⟩ := reply
  cases outcome with
  | answered status body => simp [Http.Reply.answer, hchecked, Accepts]
  | cutOff status => simp [Http.Reply.answer, hchecked, Accepts]
  | lost => simp [Http.Reply.answer, Client.acknowledged, Accepts]
  | timedOut => simp [Http.Reply.answer, Client.acknowledged, Accepts]

end LogRelay.PubSub
