import LogRelay.Http.Exchange

/-!
What a call can come to. Its requests are paired with the replies to them, and whatever answers the
requests, what is exchanged and the result form a trace of the call (`Call.Trace`). A trace of a call in
two parts is a trace of the first, followed by one of the second.
-/

namespace LogRelay.Http

/-- A request and the reply to it, if one comes. -/
structure Exchanged where
  request : Request
  reply : Option Reply
  deriving Repr

namespace Call

variable {α β σ : Type} {c : Call α} {f : α → Call β} {a : α} {b : Option β} {result : Option α}
  {xs ys : List Exchanged}

/-- Runs a call against a server, which may never reply; with what they exchange. -/
def converse (server : Request → σ → Option Reply × σ) :
    Call α → σ → (Option α × List Exchanged) × σ
  | done a, s => ((some a, []), s)
  | send r next, s =>
    match server r s with
    | (none, s) => ((none, [⟨r, none⟩]), s)
    | (some reply, s) =>
      let ((result, xs), s) := (next reply).converse server s
      ((result, ⟨r, some reply⟩ :: xs), s)

/-- A run shows the requests of what is exchanged. -/
theorem run_eq_converse (server : Request → σ → Option Reply × σ) (c : Call α) (s : σ) :
    c.run server s = (((c.converse server s).1.1, (c.converse server s).1.2.map (·.request)),
      (c.converse server s).2) := by
  induction c generalizing s with
  | done a => rfl
  | send r next ih =>
    rcases hserver : server r s with ⟨reply?, s'⟩
    cases reply? with
    | none => simp [run, converse, hserver]
    | some reply => simp [run, converse, hserver, ih]

theorem bind_assoc {γ : Type} (c : Call α) (f : α → Call β) (g : β → Call γ) :
    c >>= f >>= g = c >>= fun a => f a >>= g := by
  induction c with
  | done a => rfl
  | send r next ih => exact congrArg (send r) (funext ih)

/-- What a call can exchange, and its result, unless it waits for a reply that never comes. -/
inductive Trace : Call α → List Exchanged → Option α → Prop
  | done (a : α) : Trace (.done a) [] (some a)
  | unanswered (r : Request) (next : Reply → Call α) : Trace (.send r next) [⟨r, none⟩] none
  | answered {r : Request} {next : Reply → Call α} {reply : Reply} {xs : List Exchanged}
      {result : Option α} (h : Trace (next reply) xs result) :
      Trace (.send r next) (⟨r, some reply⟩ :: xs) result

theorem trace_converse (server : Request → σ → Option Reply × σ) (c : Call α) (s : σ) :
    Trace c (c.converse server s).1.2 (c.converse server s).1.1 := by
  induction c generalizing s with
  | done a => exact .done a
  | send r next ih =>
    rcases hserver : server r s with ⟨reply?, s'⟩
    cases reply? with
    | none =>
      simp only [converse, hserver]
      exact .unanswered r next
    | some reply =>
      simp only [converse, hserver]
      exact .answered (ih reply s')

theorem trace_done_iff : Trace (.done a) xs result ↔ xs = [] ∧ result = some a := by
  constructor
  · intro h
    cases h
    exact ⟨rfl, rfl⟩
  · rintro ⟨rfl, rfl⟩
    exact .done a

/-- A call that sends one request and is done with the reply. -/
theorem trace_send_done {r : Request} {g : Reply → α}
    (h : Trace (.send r fun reply => .done (g reply)) xs result) :
    ∃ reply? : Option Reply, xs = [⟨r, reply?⟩] ∧ result = reply?.map g := by
  cases h with
  | unanswered => exact ⟨none, rfl, rfl⟩
  | @answered _ _ reply _ _ h =>
    obtain ⟨rfl, rfl⟩ := trace_done_iff.1 h
    exact ⟨some reply, rfl, rfl⟩

/-- The two parts of a call are a call each, and the second begins only after the first is over. -/
theorem trace_bind (h : Trace (c >>= f) xs b) :
    (Trace c xs none ∧ b = none) ∨
      ∃ a first more, Trace c first (some a) ∧ Trace (f a) more b ∧ xs = first ++ more := by
  induction c generalizing xs with
  | done a => exact .inr ⟨a, [], xs, .done a, h, rfl⟩
  | send r next ih =>
    change Trace (.send r fun reply => (next reply).bind f) xs b at h
    cases h with
    | unanswered => exact .inl ⟨.unanswered r next, rfl⟩
    | @answered _ _ reply ys _ h =>
      rcases ih reply h with ⟨hfirst, rfl⟩ | ⟨a, first, more, hfirst, hmore, rfl⟩
      · exact .inl ⟨.answered hfirst, rfl⟩
      · exact .inr ⟨a, _, more, .answered hfirst, hmore, rfl⟩

/-- A call waits for ever exactly if a request of it is never replied to. -/
theorem Trace.result_eq_none_iff (h : Trace c xs result) :
    result = none ↔ ∃ x ∈ xs, x.reply = none := by
  induction h with
  | done a => simp
  | unanswered r next => simp
  | answered _ ih => simpa using ih

/-- Whatever its requests come to, the result of a call has the property, if there is one. -/
def Always (P : α → Prop) (c : Call α) : Prop := ∀ xs a, Trace c xs (some a) → P a

theorem Always.done {P : α → Prop} (h : Always P (.done a)) : P a := h [] a (.done a)

theorem Always.next {P : α → Prop} {r : Request} {next : Reply → Call α} (h : Always P (.send r next))
    (reply : Reply) : Always P (next reply) := fun _ _ hnext => h _ _ (.answered hnext)

end Call

/-! ### A single request -/

/-- The request made to an address, if one can be made. -/
def makes? (read : Url.Reader) (address : String) (request : Url → Request) : Option Request :=
  (read address).toOption.bind fun url =>
    if ((request url).bearer.map Request.isHeaderText).getD true then some (request url) else none

variable {read : Url.Reader} {address : String} {request : Url → Request} {r : Request}

theorem makes?_eq_some_iff : makes? read address request = some r ↔
    ∃ url, read address = .ok url ∧ r = request url ∧
      ∀ token, r.bearer = some token → Request.isHeaderText token = true := by
  cases hparse : read address with
  | error cause => simp [makes?, hparse, Except.toOption]
  | ok url =>
    have hheader : ((request url).bearer.map Request.isHeaderText).getD true = true ↔
        ∀ token, (request url).bearer = some token → Request.isHeaderText token = true := by
      cases (request url).bearer <;> simp
    simp only [makes?, hparse, Except.toOption, Option.bind_some, Option.ite_none_right_eq_some,
      hheader, Except.ok.injEq, exists_eq_left', Option.some.injEq]
    constructor
    · rintro ⟨h, rfl⟩
      exact ⟨rfl, h⟩
    · rintro ⟨rfl, h⟩
      exact ⟨h, rfl⟩

/-- A request that can be made is sent, and the exchange is over with the reply. -/
theorem exchange_of_makes? (h : makes? read address request = some r) :
    ∃ url, read address = .ok url ∧ r = request url ∧
      exchange read address request = .send r fun reply => .done (reply.answer url) := by
  obtain ⟨url, hparse, rfl, hheader⟩ := makes?_eq_some_iff.1 h
  refine ⟨url, hparse, rfl, ?_⟩
  have hfits : ((request url).bearer.map Request.isHeaderText).getD true = true := by
    cases hb : (request url).bearer with
    | none => rfl
    | some token => exact hheader token hb
  simp only [exchange, hparse, hfits, if_true]

/-- A request that cannot be made has not timed out. -/
theorem exchange_of_makes?_eq_none (h : makes? read address request = none) :
    ∃ cause, exchange read address request = .done (.error cause) ∧ ∀ url, cause ≠ .timedOut url := by
  cases hparse : read address with
  | error cause =>
    cases cause with
    | malformed => exact ⟨.unmakeable, by simp only [exchange, hparse], nofun⟩
    | unusable text => exact ⟨.unusable text, by simp only [exchange, hparse], nofun⟩
  | ok url =>
    refine ⟨.unmakeable, ?_, nofun⟩
    simp only [makes?, hparse, Except.toOption, Option.bind_some, ite_eq_right_iff, reduceCtorEq,
      imp_false] at h
    simp only [exchange, hparse]
    rw [if_neg h]

end LogRelay.Http
