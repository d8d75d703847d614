import LogRelay.Proofs.PubSub.Calls
import LogRelay.Proofs.PubSub.PullAnswer
import LogRelay.Proofs.Worker.Ending
import LogRelay.PubSub.Start

/-!
A worker at its client goes on whatever becomes of its requests. A call of the client ends in one of
its own ways and never as one that was called off, so the worker can always take its end, and only
whoever calls it off, or leaves the stream, ends it.
-/

namespace LogRelay.PubSub

open Http (Call Exchanged)
open Client (Authorised Comes)

/-! ### Ends of calls -/

/-- How a call for an operation can end. -/
inductive Operation.Ends : Operation → Worker.Move → Prop
  | received (messages : List Message) : Ends .pull (.received (.ok messages))
  | receiveFailed (cause : String) : Ends .pull (.received (.error (.transport cause)))
  | acknowledged (ids : List String) : Ends (.acknowledge ids) (.acknowledged (.ok ()))
  | acknowledgeFailed (ids : List String) (cause : String) :
      Ends (.acknowledge ids) (.acknowledged (.error (.transport cause)))

variable {op : Operation} {c client : Client} {read : Http.Url.Reader} {kept : Option Token} {now : Nat}
  {tokens service : List Exchanged}

theorem Operation.ends_fails (op : Operation) (f : Failure) : op.Ends (op.fails f) := by
  cases op with
  | pull => exact .receiveFailed f.message
  | acknowledge ids => exact .acknowledgeFailed ids f.message

theorem Operation.ends_concludes (op : Operation) (result : Except Http.Error Http.Answer) :
    op.Ends (op.concludes result) := by
  cases op with
  | pull =>
    rw [concludes]
    cases Client.pulled result with
    | error f => exact .receiveFailed f.message
    | ok messages => exact .received messages
  | acknowledge ids =>
    rw [concludes]
    cases Client.acknowledged result with
    | error f => exact .acknowledgeFailed ids f.message
    | ok => exact .acknowledged ids

theorem Client.Comes.ends {ending : Worker.Move × Option Token}
    (h : Comes c read kept now op tokens service (some ending)) : op.Ends ending.1 := by
  cases h with
  | unauthorised => exact op.ends_fails _
  | unmade => exact op.ends_concludes _
  | answered => exact op.ends_concludes _

/-- A call ends in one of its own ways, whatever its requests come to. -/
theorem Client.always_ends (c : Client) (read : Http.Url.Reader) (kept : Option Token) (now : Nat)
    (op : Operation) :
    (c.perform read kept now op).Always fun ending => op.Ends ending.1 := by
  intro xs ending htrace
  obtain ⟨_, _, -, hcomes⟩ := Client.comes_of_trace htrace
  exact hcomes.ends

/-- What a call comes to that is over: success exactly if it is authorised and its own request, which
is the last, gets a `good` reply; and otherwise a failure of the transport. -/
structure Settles {α : Type} (c : Client) (read : Http.Url.Reader) (v : Visit)
    (good : Http.Reply → α → Prop) (outcome : Except ReceiveError α) : Prop where
  ok_iff : ∀ a, outcome = .ok a ↔ ∃ tokens r reply bearer next,
    v.exchanges = tokens ++ [⟨r, some reply⟩] ∧
      Authorised c read v.kept v.now tokens bearer next ∧ good reply a
  transport : ∀ e, outcome = .error e → ∃ cause, e = .transport cause

theorem mapError_eq_ok_iff {α ε ε' : Type} {f : ε → ε'} {x : Except ε α} {a : α} :
    x.mapError f = .ok a ↔ x = .ok a := by
  cases x with
  | error e => exact ⟨fun h => (by cases h), fun h => (by cases h)⟩
  | ok b => exact ⟨fun h => congrArg _ (Except.ok.inj h), fun h => congrArg _ (Except.ok.inj h)⟩

theorem transport_of_mapError {α : Type} {x : Except Failure α} {e : ReceiveError}
    (h : x.mapError (·.toReceiveError) = .error e) : ∃ cause, e = .transport cause := by
  cases x with
  | error f =>
    cases h
    exact ⟨f.message, rfl⟩
  | ok a => cases h

section Settles

variable {α : Type} {v : Visit} {good : Http.Reply → α → Prop} {outcome : Except ReceiveError α}
  {ending : Option (Worker.Move × Option Token)} {bearer : Option String} {next : Option Token}
  {r : Http.Request} {reply : Http.Reply}

/-- A call without a request of its own fails. -/
theorem settles_of_unsent (hv : v.exchanges = tokens ++ [])
    (h : Comes c read v.kept v.now op tokens [] ending) (hnone : ∀ a, outcome ≠ .ok a)
    (htransport : ∀ e, outcome = .error e → ∃ cause, e = .transport cause) :
    Settles c read v good outcome := by
  refine ⟨fun a => ⟨fun hok => absurd hok (hnone a), ?_⟩, htransport⟩
  rintro ⟨tokens', r, reply, bearer, next, hv', hauth, -⟩
  exact absurd (h.split_eq hauth (hv.symm.trans hv')).2.symm (List.cons_ne_nil _ _)

/-- A call comes to what the reply to its own request says. -/
theorem settles_of_replied (hv : v.exchanges = tokens ++ [⟨r, some reply⟩])
    (h : Comes c read v.kept v.now op tokens [⟨r, some reply⟩] ending)
    (hauth : Authorised c read v.kept v.now tokens bearer next)
    (hgood : ∀ a, outcome = .ok a ↔ good reply a)
    (htransport : ∀ e, outcome = .error e → ∃ cause, e = .transport cause) :
    Settles c read v good outcome := by
  refine ⟨fun a => ⟨fun hok => ?_, ?_⟩, htransport⟩
  · exact ⟨tokens, r, reply, bearer, next, hv, hauth, (hgood a).1 hok⟩
  · rintro ⟨tokens', r', reply', bearer', next', hv', hauth', hgood'⟩
    obtain ⟨-, hservice⟩ := h.split_eq hauth' (hv.symm.trans hv')
    obtain ⟨-, hreply⟩ := Exchanged.mk.inj (List.cons.inj hservice).1
    rw [← Option.some.inj hreply] at hgood'
    exact (hgood a).2 hgood'

end Settles

theorem settles_pull {v : Visit} {next : Option Token} {move : Worker.Move}
    (hv : v.exchanges = tokens ++ service)
    (h : Comes c read v.kept v.now .pull tokens service (some (move, next))) :
    ∃ outcome, move = .received outcome ∧ Settles c read v Brings outcome := by
  have hcomes := h
  cases h with
  | @unauthorised _ f h =>
    refine ⟨_, rfl, settles_of_unsent hv hcomes (fun _ => nofun) fun e he => ?_⟩
    cases he
    exact ⟨f.message, rfl⟩
  | @unmade _ bearer next cause h ha hcause =>
    have hfails : Client.pulled (.error cause) = .error (.http cause) := by
      cases cause with
      | timedOut url => exact absurd rfl (hcause url)
      | _ => rfl
    refine ⟨_, rfl, settles_of_unsent hv hcomes (fun a => ?_) fun e => transport_of_mapError⟩
    rw [hfails]
    nofun
  | @answered _ bearer next r reply h ha =>
    refine ⟨_, rfl, settles_of_replied hv hcomes h (fun messages => ?_)
      fun e => transport_of_mapError⟩
    rw [mapError_eq_ok_iff, pulled_eq_ok_iff]

theorem settles_acknowledge {v : Visit} {ids : List String} {next : Option Token}
    {move : Worker.Move} (hv : v.exchanges = tokens ++ service)
    (h : Comes c read v.kept v.now (.acknowledge ids) tokens service (some (move, next))) :
    ∃ outcome, move = .acknowledged outcome ∧
      Settles c read v (fun reply (_ : Unit) => Accepts reply) outcome := by
  have hcomes := h
  cases h with
  | @unauthorised _ f h =>
    refine ⟨_, rfl, settles_of_unsent hv hcomes (fun _ => nofun) fun e he => ?_⟩
    cases he
    exact ⟨f.message, rfl⟩
  | unmade h ha hcause =>
    exact ⟨_, rfl, settles_of_unsent hv hcomes (fun _ => nofun) fun e => transport_of_mapError⟩
  | @answered _ bearer next r reply h ha =>
    refine ⟨_, rfl, settles_of_replied hv hcomes h (fun _ => ?_) fun e => transport_of_mapError⟩
    rw [mapError_eq_ok_iff, acknowledged_eq_ok_iff]

/-! ### A worker and its call -/

/-- What a worker waits for, if it is the end of a call. -/
def Operation.ofState? : Worker.State → Option Operation
  | .receiving => some .pull
  | .acknowledging batch => some (.acknowledge (batch.map (·.ackId)))
  | _ => none

theorem ofEffect?_proceed (w : Worker) (batch : List Message) :
    (w.proceed false batch).2.findSome? Operation.ofEffect? =
      Operation.ofState? (w.proceed false batch).1 := by
  induction batch with
  | nil => rfl
  | cons m rest ih =>
    rw [Worker.proceed]
    split
    · rfl
    · exact ih
    · exact ih

/-- A move of a worker begins the call that the worker then waits for. -/
theorem ofEffect?_of_step {w : Worker} {cancelled : Bool} {stream stream' : Channel Record}
    {state state' : Worker.State} {m : Worker.Move} {effects : List Worker.Effect}
    (h : Worker.Step w cancelled now stream state m state' stream' effects) :
    effects.findSome? Operation.ofEffect? = Operation.ofState? state' := by
  cases h with
  | acknowledged => exact ofEffect?_proceed w _
  | sent => exact ofEffect?_proceed w _
  | _ => rfl

/-- The end of the call that a worker waits for lets it move. -/
theorem exists_step_of_ends {w : Worker} {cancelled : Bool} {stream : Channel Record}
    {state : Worker.State} {m : Worker.Move} (hop : Operation.ofState? state = some op)
    (h : op.Ends m) : ∃ state' effects,
      Worker.Step w cancelled now stream state m state' stream effects := by
  have hlive : state ≠ .ended := by
    rintro rfl
    cases hop
  cases hc : cancelled with
  | true => exact ⟨_, _, .calledOff hlive rfl⟩
  | false =>
    cases state with
    | receiving =>
      cases hop
      cases h with
      | received messages =>
        by_cases hempty : messages = []
        · subst hempty
          exact ⟨_, _, .emptyBatch rfl⟩
        · exact ⟨_, _, .batch rfl hempty⟩
      | receiveFailed cause => exact ⟨_, _, .receiveFailed rfl⟩
    | acknowledging batch =>
      cases hop
      cases h with
      | acknowledged => exact ⟨_, _, .acknowledged rfl⟩
      | acknowledgeFailed => exact ⟨_, _, .acknowledgeFailed rfl⟩
    | _ => cases hop

namespace Session

/-- A worker waits for a call exactly if one is under way, and that one ends in its own ways. -/
structure Coherent (s : Session) : Prop where
  idle : Operation.ofState? s.worker.state = none → s.call = none
  waiting : ∀ op, Operation.ofState? s.worker.state = some op →
    ∃ call, s.call = some call ∧ call.Always fun ending => op.Ends ending.1

variable {w : Worker} {s s' mid : Session} {a : Action} {actions : List Action}
  {effects : List Worker.Effect} {m : Worker.Move}

/-- A worker with its client, before the first move. -/
def start (capacity now : Nat) (kept : Option Token) : Session :=
  { worker := Worker.System.start capacity now, kept }

theorem coherent_start (capacity now : Nat) (kept : Option Token) :
    (start capacity now kept).Coherent := ⟨fun _ => rfl, nofun⟩

theorem run?_eq_some_iff :
    s.run? read client w actions = some (s', effects) ↔ Runs (act? read client w) s actions effects s' :=
  Runs.of_recursion (fun _ => rfl) fun _ _ _ => rfl

/-- What one step can be: a step of the worker or of what is around it, other than the end of a call; a
reply to the request under way; or the end of the call. -/
theorem act?_cases (h : s.act? read client w a = some (s', effects)) :
    (∃ b, a = .worker b ∧ isClients b = false ∧ s.follow read client w b = some (s', effects)) ∨
    (∃ outcome r next, a = .reply outcome ∧ s.call = some (.send r next) ∧ effects = [] ∧
      s' = { s with call := some (next ⟨outcome, s.worker.now⟩) }) ∨
    ∃ move kept, a = .finish ∧ s.call = some (.done (move, kept)) ∧
      { s with kept, call := none }.follow read client w (.move move) = some (s', effects) := by
  cases a with
  | worker b =>
    simp only [act?] at h
    cases hb : isClients b with
    | true => simp [hb] at h
    | false => exact .inl ⟨b, rfl, hb, by simpa [hb] using h⟩
  | reply outcome =>
    simp only [act?] at h
    cases hcall : s.call with
    | none => simp [hcall] at h
    | some call =>
      cases call with
      | done ending => simp [hcall] at h
      | send r next =>
        simp only [hcall] at h
        cases h
        exact .inr (.inl ⟨outcome, r, next, rfl, rfl, rfl, rfl⟩)
  | finish =>
    simp only [act?] at h
    cases hcall : s.call with
    | none => simp [hcall] at h
    | some call =>
      cases call with
      | done ending =>
        obtain ⟨move, kept⟩ := ending
        simp only [hcall] at h
        exact .inr (.inr ⟨move, kept, rfl, rfl, h⟩)
      | send r next => simp [hcall] at h

theorem follow_eq_some_iff {b : Worker.Action} :
    s.follow read client w b = some (s', effects) ↔
      s.worker.act? w b = some (s'.worker, effects) ∧ s'.kept = s.kept ∧
        s'.call = if s'.worker.state.isLive then
          (effects.findSome? Operation.ofEffect?).map (client.perform read s.kept s'.worker.now) <|> s.call
        else none := by
  simp only [follow, Option.map_eq_some_iff, Prod.exists, Prod.mk.injEq]
  constructor
  · rintro ⟨worker, es, hact, rfl, rfl⟩
    exact ⟨hact, rfl, rfl⟩
  · rintro ⟨hact, hkept, hcall⟩
    refine ⟨s'.worker, effects, hact, ?_, rfl⟩
    rw [← hkept] at hcall ⊢
    rw [← hcall]

/-- After a move with no call under way, or to the end, a call is under way exactly if it is waited
for. -/
theorem coherent_of_move (h : s.follow read client w (.move m) = some (s', effects))
    (hs : s.call = none ∨ s'.worker.state = .ended) : s'.Coherent := by
  obtain ⟨hact, -, hcall⟩ := follow_eq_some_iff.1 h
  have hbegun := ofEffect?_of_step (Worker.System.act?_move_iff.1 hact).1
  rw [hbegun] at hcall
  cases hlive : s'.worker.state.isLive with
  | false =>
    have hended : s'.worker.state = .ended := by
      cases hstate : s'.worker.state with
      | ended => rfl
      | _ => simp [hstate, Worker.State.isLive] at hlive
    rw [hlive] at hcall
    refine ⟨fun _ => hcall, fun op hop => ?_⟩
    rw [hended] at hop
    cases hop
  | true =>
    have hnone : s.call = none := by
      refine hs.resolve_right fun hended => ?_
      simp [hended, Worker.State.isLive] at hlive
    simp only [hlive, hnone, if_true, Option.orElse_eq_orElse, Option.orElse_eq_or,
      Option.or_none] at hcall
    refine ⟨fun hop => by rw [hcall, hop]; rfl, fun op hop => ?_⟩
    exact ⟨_, by rw [hcall, hop]; rfl, client.always_ends read _ _ op⟩

/-- A worker that waits for a call and looks around can only be called off. -/
theorem ended_of_resume {cancelled : Bool} {stream stream' : Channel Record}
    {state state' : Worker.State} (hop : Operation.ofState? state = some op)
    (h : Worker.Step w cancelled now stream state .resume state' stream' effects) :
    state' = .ended := by
  cases h with
  | calledOff => rfl
  | _ => cases hop

theorem coherent_act? (hs : s.Coherent) (h : s.act? read client w a = some (s', effects)) :
    s'.Coherent := by
  rcases act?_cases h with ⟨b, rfl, hb, hfollow⟩ | ⟨outcome, r, next, rfl, hcall, -, rfl⟩ |
    ⟨move, kept, rfl, hcall, hfollow⟩
  · obtain ⟨hact, -, hcall⟩ := follow_eq_some_iff.1 hfollow
    rcases Worker.System.act?_cases hact with ⟨m, rfl, hstep⟩ | ⟨-, hstate, rfl⟩
    · refine coherent_of_move hfollow ?_
      cases m with
      | received outcome => cases hb
      | acknowledged outcome => cases hb
      | resume =>
        cases hop : Operation.ofState? s.worker.state with
        | none => exact .inl (hs.idle hop)
        | some op => exact .inr (ended_of_resume hop hstep)
    · refine ⟨fun hop => ?_, fun op hop => ?_⟩
      · rw [hstate] at hop
        rw [hcall, hs.idle hop]
        split <;> rfl
      · rw [hstate] at hop
        obtain ⟨call, hwaits, hends⟩ := hs.waiting op hop
        refine ⟨call, ?_, hends⟩
        have hlive : s'.worker.state.isLive = true := by
          rw [hstate]
          cases hst : s.worker.state with
          | ended => rw [hst] at hop; cases hop
          | _ => rfl
        rw [hcall, hlive, hwaits]
        rfl
  · refine ⟨fun hop => ?_, fun op hop => ?_⟩
    · rw [hs.idle hop] at hcall
      cases hcall
    · obtain ⟨call, hwaits, hends⟩ := hs.waiting op hop
      obtain rfl := Option.some.inj (hwaits.symm.trans hcall)
      exact ⟨_, rfl, hends.next _⟩
  · exact coherent_of_move hfollow (.inl rfl)

theorem coherent_of_runs (hs : s.Coherent) (h : Runs (act? read client w) s actions effects s') :
    s'.Coherent :=
  h.invariant (fun _ _ _ _ => coherent_act?) hs

/-- A worker ends because it is called off, or because a record finds the stream closed. -/
def EndsBy (s : Session) (a : Action) : Prop :=
  s.worker.cancelled = true ∨ ∃ record rest, a = .worker (.move .resume) ∧
    s.worker.state = .sending record rest ∧ s.worker.stream.closed = true

/-- The end of the call that a worker waits for is not its own end, unless it is called off. -/
theorem endsBy_of_act? (hs : s.Coherent) (hlive : s.worker.state ≠ .ended)
    (h : s.act? read client w a = some (s', effects)) (hend : s'.worker.state = .ended) :
    s.EndsBy a := by
  rcases act?_cases h with ⟨b, rfl, hb, hfollow⟩ | ⟨outcome, r, next, rfl, -, -, rfl⟩ |
    ⟨move, kept, rfl, hcall, hfollow⟩
  · obtain ⟨hact, -, -⟩ := follow_eq_some_iff.1 hfollow
    rcases Worker.System.act?_cases hact with ⟨m, rfl, hstep⟩ | ⟨-, hstate, -⟩
    · have hends := hstep.ended_iff.1 hend
      generalize hst : s.worker.state = state at hends
      cases hends with
      | calledOff _ hc => exact .inl hc
      | receiveCancelled => cases hb
      | acknowledgeCancelled => cases hb
      | streamClosed hclosed => exact .inr ⟨_, _, rfl, hst, Channel.send_eq_closed_iff.1 hclosed⟩
    · exact absurd (hstate.symm.trans hend) hlive
  · exact absurd hend hlive
  · obtain ⟨hact, -, -⟩ := follow_eq_some_iff.1 hfollow
    have hends : Worker.EndsBy s.worker.cancelled s.worker.stream s.worker.state move :=
      (Worker.System.act?_move_iff.1 hact).1.ended_iff.1 hend
    cases hop : Operation.ofState? s.worker.state with
    | none =>
      rw [hs.idle hop] at hcall
      cases hcall
    | some op =>
      obtain ⟨call, hwaits, halways⟩ := hs.waiting op hop
      obtain rfl := Option.some.inj (hwaits.symm.trans hcall)
      have hmove := halways.done
      generalize s.worker.state = state at hends hop
      cases hends with
      | calledOff _ hc => exact .inl hc
      | receiveCancelled => cases hmove
      | acknowledgeCancelled => cases hmove
      | streamClosed => cases hmove

theorem endsBy_of_runs (h : Runs (act? read client w) s actions effects s') (hs : s.Coherent)
    (hlive : s.worker.state ≠ .ended) (hend : s'.worker.state = .ended) :
    ∃ before a after seen mid, actions = before ++ a :: after ∧
      Runs (act? read client w) s before seen mid ∧ mid.EndsBy a := by
  induction h with
  | nil => exact absurd hend hlive
  | @cons s mid s' a actions first more ha _ ih =>
    by_cases hmid : mid.worker.state = .ended
    · exact ⟨[], a, actions, [], s, rfl, .nil s, endsBy_of_act? hs hlive ha hmid⟩
    · obtain ⟨before, b, after, seen, last, rfl, hr, he⟩ := ih (coherent_act? hs ha) hmid hend
      exact ⟨a :: before, b, after, _, last, rfl, .cons ha hr, he⟩

/-- The end of a call always moves the worker on. -/
theorem exists_finish (hs : s.Coherent) {move : Worker.Move} {kept : Option Token}
    (hcall : s.call = some (.done (move, kept))) :
    ∃ s' effects, s.act? read client w .finish = some (s', effects) := by
  cases hop : Operation.ofState? s.worker.state with
  | none =>
    rw [hs.idle hop] at hcall
    cases hcall
  | some op =>
    obtain ⟨call, hwaits, halways⟩ := hs.waiting op hop
    obtain rfl := Option.some.inj (hwaits.symm.trans hcall)
    obtain ⟨state', seen, hstep⟩ := exists_step_of_ends hop halways.done
    have hact : s.worker.act? w (.move move) = some ({ s.worker with state := state' }, seen) :=
      Worker.System.act?_move_iff.2 ⟨hstep, rfl, rfl⟩
    simp only [act?, hcall, follow, hact]
    exact ⟨_, _, rfl⟩

end Session

/-- Over every sequence of calls and every run of a worker at its client, whatever becomes of the
requests and whatever token is kept at first. A pull brings messages exactly if it is authorised and
its own request is answered with success and with messages, or times out, which brings none; an
acknowledgement comes through exactly if it is authorised and answered with success. Anything else is
a failure of the transport. The messages are those of the answer in their order, with their data as it
is written. The worker ends only if it is called off or a record finds the stream closed, and the end
of a call always moves it on. -/
theorem survives_every_answer (client : Client) (read : Http.Url.Reader) (settings : Settings) (server : Server) :
    (∀ (σ : Type) (web : Http.Request → σ → Option Http.Reply × σ) (kept : Option Token) (s : σ)
      (turns : List (Nat × Operation)), ∀ v ∈ client.visits read web kept s turns,
      (v.ending = none ↔ ∃ x ∈ v.exchanges, x.reply = none) ∧
      ∀ move next, v.ending = some (move, next) →
        (v.operation = .pull → ∃ outcome, move = .received outcome ∧
          Settles client read v Brings outcome) ∧
        ∀ ids, v.operation = .acknowledge ids → ∃ outcome, move = .acknowledged outcome ∧
          Settles client read v (fun reply (_ : Unit) => Accepts reply) outcome) ∧
    (∀ deliveries : Option (List Delivery),
      (∀ ds, deliveries = some ds → ∀ d ∈ ds, d.WellFormed) →
      ∀ status time, 200 ≤ status ∧ status < 300 → Http.Status.hasBody status = true →
        Brings ⟨.answered status (Text.Utf8.encode (pullAnswer deliveries)), time⟩
          ((deliveries.getD []).map Delivery.received)) ∧
    ∀ (capacity now : Nat) (kept : Option Token) (actions : List Session.Action) (s : Session)
      (effects : List Worker.Effect),
      (Session.start capacity now kept).run? read client (Access.worker client settings server) actions =
          some (s, effects) →
        (s.worker.state = .ended → ∃ before a after seen mid, actions = before ++ a :: after ∧
          (Session.start capacity now kept).run? read client (Access.worker client settings server)
            before = some (mid, seen) ∧ mid.EndsBy a) ∧
        (∀ op, Operation.ofState? s.worker.state = some op → s.call ≠ none) ∧
        ∀ move next, s.call = some (.done (move, next)) →
          s.act? read client (Access.worker client settings server) .finish ≠ none := by
  refine ⟨fun σ web kept s turns v hv => ⟨?_, ?_⟩, ?_, ?_⟩
  · exact (Client.trace_of_mem_visits hv).result_eq_none_iff
  · intro move next hending
    obtain ⟨tokens, service, hsplit, hcomes⟩ := Client.comes_of_mem_visits hv
    rw [hending] at hcomes
    refine ⟨fun hop => ?_, fun ids hop => ?_⟩
    · rw [hop] at hcomes
      exact settles_pull hsplit hcomes
    · rw [hop] at hcomes
      exact settles_acknowledge hsplit hcomes
  · intro deliveries hformed status time hstatus hbody
    have hbrings : Brings ⟨.answered status (Text.Utf8.encode (pullAnswer deliveries)), time⟩
        ((deliveries.map (·.map Delivery.received)).getD []) := by
      refine .answered hstatus ?_
      rw [if_pos hbody]
      exact read_pullAnswer hformed
    cases deliveries with
    | none => exact hbrings
    | some ds => exact hbrings
  · intro capacity now kept actions s effects hrun
    have hruns := Session.run?_eq_some_iff.1 hrun
    have hcoherent := Session.coherent_of_runs (Session.coherent_start capacity now kept) hruns
    refine ⟨fun hend => ?_, fun op hop => ?_, fun move next hcall => ?_⟩
    · simp only [Session.run?_eq_some_iff]
      exact Session.endsBy_of_runs hruns (Session.coherent_start capacity now kept) nofun hend
    · obtain ⟨call, hcall, -⟩ := hcoherent.waiting op hop
      simp [hcall]
    · obtain ⟨s', new, hact⟩ : ∃ s' new,
          s.act? read client (Access.worker client settings server) .finish = some (s', new) :=
        Session.exists_finish hcoherent hcall
      rw [hact]
      nofun

/-- A client whose tokens come from the machine's own server. -/
def machineClient : Client := .make "http://h" ⟨"p", "s"⟩ 10 (some (.metadata "http://h/token"))

/-- A delivery with data, one with a message without, and one without a message. -/
def threeDeliveries : List Delivery :=
  [⟨"a", some (some "aGk=", [("messageId", "1")]), []⟩, ⟨"b", some (none, []), []⟩, ⟨"c", none, []⟩]

/-- A failed pull, a rest, and the next pull when the worker is called off. -/
def failedThenCalledOff : List Session.Action :=
  [.worker (.move .resume), .reply .lost, .finish, .worker (.tick 60000), .worker (.move .resume),
    .worker .cancel, .worker (.move .resume)]

/-- The answer that brings them. -/
def threeDelivered : Http.Reply :=
  ⟨.answered 200 (Text.Utf8.encode (pullAnswer (some threeDeliveries))), 5⟩

theorem wellFormed_of_mem_threeDeliveries {d : Delivery} (hd : d ∈ threeDeliveries) :
    d.WellFormed := by
  simp only [threeDeliveries, List.mem_cons, List.not_mem_nil, or_false] at hd
  rcases hd with rfl | rfl | rfl
  · refine ⟨?_, by decide⟩
    rintro _ ⟨⟩
    decide
  · refine ⟨?_, by decide⟩
    rintro _ ⟨⟩
    decide
  · exact ⟨nofun, by decide⟩

theorem survives_every_answer_machineClient :
    (∃ v next, machineClient.visits Http.Url.parse (fun _ (_ : Unit) => (some threeDelivered, ()))
        (some ⟨"A", 1000⟩) () [(0, .pull)] = [v] ∧
      v.ending = some (.received (.ok [⟨"a", [97, 71, 107, 61]⟩, ⟨"b", []⟩, ⟨"c", []⟩]), next)) ∧
    ∃ s effects before a after seen mid,
      (Session.start 1 0 none).run? Http.Url.parse machineClient (Access.worker machineClient {} {})
        failedThenCalledOff = some (s, effects) ∧ s.worker.state = .ended ∧
      failedThenCalledOff = before ++ a :: after ∧
      (Session.start 1 0 none).run? Http.Url.parse machineClient (Access.worker machineClient {} {}) before =
        some (mid, seen) ∧ mid.EndsBy a := by
  obtain ⟨hcalls, hwire, hruns⟩ := survives_every_answer machineClient Http.Url.parse {} {}
  refine ⟨?_, ?_⟩
  · obtain ⟨r, move, next, hvisits⟩ : ∃ r move next,
        machineClient.visits Http.Url.parse (fun _ (_ : Unit) => (some threeDelivered, ()))
          (some ⟨"A", 1000⟩) () [(0, .pull)] =
        [⟨.pull, 0, some ⟨"A", 1000⟩, [⟨r, some threeDelivered⟩], some (move, next)⟩] := ⟨_, _, _, rfl⟩
    have hmem : (⟨.pull, 0, some ⟨"A", 1000⟩, [⟨r, some threeDelivered⟩], some (move, next)⟩ : Visit) ∈
        machineClient.visits Http.Url.parse (fun _ (_ : Unit) => (some threeDelivered, ()))
          (some ⟨"A", 1000⟩) () [(0, .pull)] := by
      rw [hvisits]
      exact List.mem_singleton_self _
    obtain ⟨-, hends⟩ := hcalls _ _ _ _ _ _ hmem
    obtain ⟨outcome, rfl, hsettles⟩ := (hends move next rfl).1 rfl
    have hbrings : Brings threeDelivered (threeDeliveries.map Delivery.received) :=
      hwire (some threeDeliveries)
        (by rintro _ ⟨⟩ d hd; exact wellFormed_of_mem_threeDeliveries hd) 200 5 (by decide) rfl
    have hok : outcome = .ok (threeDeliveries.map Delivery.received) :=
      (hsettles.ok_iff _).2 ⟨[], r, threeDelivered, some "A", some ⟨"A", 1000⟩, rfl,
        .reused rfl rfl (Nat.zero_lt_succ _), hbrings⟩
    refine ⟨_, next, hvisits, ?_⟩
    rw [hok]
    rfl
  · obtain ⟨s, effects, hrun, hend⟩ : ∃ s effects,
        (Session.start 1 0 none).run? Http.Url.parse machineClient (Access.worker machineClient {} {})
          failedThenCalledOff = some (s, effects) ∧ s.worker.state = .ended := ⟨_, _, rfl, rfl⟩
    obtain ⟨hcause, -⟩ := hruns 1 0 none failedThenCalledOff s effects hrun
    obtain ⟨before, a, after, seen, mid, hsplit, hbefore, hends⟩ := hcause hend
    exact ⟨s, effects, before, a, after, seen, mid, hrun, hend, hsplit, hbefore, hends⟩

end LogRelay.PubSub
