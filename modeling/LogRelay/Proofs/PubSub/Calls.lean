import LogRelay.Proofs.Http.Call
import LogRelay.Proofs.PubSub.Demand
import LogRelay.PubSub.Session

/-!
Calls of one client, one after the other. What a call can come to is said once (`Comes`): it gets the
token that it needs or does not, and only with it makes its own request, which may be replied to.
Each call finds the token that the last one left.
-/

namespace LogRelay.PubSub

open Http (Call Exchanged)
open TokenIssuer (Lapsed)

namespace Operation

/-- How long the request of an operation may take, in seconds. -/
def limitSecs : Operation → Nat
  | pull => Client.pullLimitSecs
  | acknowledge _ => Client.acknowledgeLimitSecs

/-- The end of an operation that fails. -/
def fails (f : Failure) : Operation → Worker.Move
  | pull => .received (.error f.toReceiveError)
  | acknowledge _ => .acknowledged (.error f.toReceiveError)

/-- The end of an operation whose own request comes to an answer or to none. -/
def concludes (result : Except Http.Error Http.Answer) : Operation → Worker.Move
  | pull => .received ((Client.pulled result).mapError (·.toReceiveError))
  | acknowledge _ => .acknowledged ((Client.acknowledged result).mapError (·.toReceiveError))

end Operation

namespace Client

/-- Where an operation is asked for. -/
def address (c : Client) : Operation → String
  | .pull => c.pullUrl
  | .acknowledge _ => c.acknowledgeUrl

/-- What is said to ask for an operation. -/
def body (c : Client) : Operation → Http.Body
  | .pull => c.pullBody
  | .acknowledge ids => acknowledgeBody ids

/-- The request for an operation, authorised by a token if there is one. -/
def request (c : Client) (op : Operation) (bearer : Option String) (url : Http.Url) : Http.Request :=
  { method := .post, url, body := c.body op, bearer, limitSecs := some op.limitSecs }

/-- The request for an operation, if it can be made. -/
def asks? (c : Client) (read : Http.Url.Reader) (op : Operation) (bearer : Option String) :
    Option Http.Request :=
  Http.makes? read (c.address op) (c.request op bearer)

theorem bearer_of_asks? {c : Client} {read : Http.Url.Reader} {op : Operation} {bearer : Option String}
    {r : Http.Request} (h : c.asks? read op bearer = some r) : r.bearer = bearer := by
  obtain ⟨url, -, rfl, -⟩ := Http.makes?_eq_some_iff.1 h
  rfl

/-- A call knows how its request is authorised, after these exchanges; `next` is the token that it
leaves. -/
inductive Authorised (c : Client) (read : Http.Url.Reader) (kept : Option Token) (now : Nat) :
    (exchanges : List Exchanged) → (bearer : Option String) → (next : Option Token) → Prop
  | anonymous (hc : c.issuer = none) : Authorised c read kept now [] none kept
  | reused {issuer : TokenIssuer} {t : Token} (hc : c.issuer = some issuer) (hkept : kept = some t)
      (hfresh : now < t.freshUntil) : Authorised c read kept now [] (some t.text) kept
  | granted {issuer : TokenIssuer} {r : Http.Request} {reply : Http.Reply} {g : Token.Grant}
      {time : Nat} (hc : c.issuer = some issuer) (hstale : Lapsed kept now)
      (ha : issuer.asks? read now = some r) (hg : grantOf? reply = some (g, time)) :
      Authorised c read kept now [⟨r, some reply⟩] (some (g.token.getD "")) (some (Token.ofGrant g time))

/-- A call does not get the token that it needs. -/
inductive Unauthorised (c : Client) (read : Http.Url.Reader) (kept : Option Token) (now : Nat) :
    (exchanges : List Exchanged) → Prop
  | unmade {issuer : TokenIssuer} (hc : c.issuer = some issuer) (hstale : Lapsed kept now)
      (ha : issuer.asks? read now = none) : Unauthorised c read kept now []
  | failed {issuer : TokenIssuer} {r : Http.Request} {reply : Http.Reply}
      (hc : c.issuer = some issuer) (hstale : Lapsed kept now) (ha : issuer.asks? read now = some r)
      (hg : grantOf? reply = none) : Unauthorised c read kept now [⟨r, some reply⟩]

/-- What a call can come to: what is exchanged for its token, what is exchanged for itself, and the
move of the worker and the token that it ends with. -/
inductive Comes (c : Client) (read : Http.Url.Reader) (kept : Option Token) (now : Nat)
    (op : Operation) :
    (tokens service : List Exchanged) → (ending : Option (Worker.Move × Option Token)) → Prop
  /-- No reply to the request for a token comes. -/
  | awaitsToken {issuer : TokenIssuer} {r : Http.Request} (hc : c.issuer = some issuer)
      (hstale : Lapsed kept now) (ha : issuer.asks? read now = some r) :
      Comes c read kept now op [⟨r, none⟩] [] none
  | unauthorised {tokens : List Exchanged} {f : Failure} (h : Unauthorised c read kept now tokens) :
      Comes c read kept now op tokens [] (some (op.fails f, kept))
  /-- Its own request cannot be made. -/
  | unmade {tokens : List Exchanged} {bearer : Option String} {next : Option Token}
      {cause : Http.Error} (h : Authorised c read kept now tokens bearer next)
      (ha : c.asks? read op bearer = none) (hcause : ∀ url, cause ≠ .timedOut url) :
      Comes c read kept now op tokens [] (some (op.concludes (.error cause), next))
  | unanswered {tokens : List Exchanged} {bearer : Option String} {next : Option Token}
      {r : Http.Request} (h : Authorised c read kept now tokens bearer next)
      (ha : c.asks? read op bearer = some r) : Comes c read kept now op tokens [⟨r, none⟩] none
  | answered {tokens : List Exchanged} {bearer : Option String} {next : Option Token}
      {r : Http.Request} {reply : Http.Reply} (h : Authorised c read kept now tokens bearer next)
      (ha : c.asks? read op bearer = some r) :
      Comes c read kept now op tokens [⟨r, some reply⟩]
        (some (op.concludes (reply.answer r.url), next))

variable {c : Client} {read : Http.Url.Reader} {kept next : Option Token} {now : Nat} {op : Operation}
  {xs tokens tokens' service : List Exchanged} {bearer : Option String}
  {ending : Option (Worker.Move × Option Token)}

/-! ### Getting a token -/

/-- The first part of a call: it waits for a token, goes without the one that it needs, or is
authorised. -/
theorem bearer_cases {result : Option (Except Failure (Option String) × Option Token)}
    (h : Call.Trace (c.bearer read kept now) xs result) :
    (result = none ∧ ∃ issuer r, c.issuer = some issuer ∧ Lapsed kept now ∧
      issuer.asks? read now = some r ∧ xs = [⟨r, none⟩]) ∨
    (∃ f, result = some (.error f, kept) ∧ Unauthorised c read kept now xs) ∨
    ∃ bearer next, result = some (.ok bearer, next) ∧ Authorised c read kept now xs bearer next := by
  cases hc : c.issuer with
  | none =>
    simp only [bearer, hc] at h
    obtain ⟨rfl, rfl⟩ := Call.trace_done_iff.1 h
    exact .inr (.inr ⟨_, _, rfl, .anonymous hc⟩)
  | some issuer =>
    simp only [bearer, hc] at h
    cases hk : kept.filter (·.isFresh now) with
    | some t =>
      obtain ⟨rfl, hfresh⟩ := Option.filter_eq_some_iff.1 hk
      simp only [TokenIssuer.token, hk] at h
      obtain ⟨rfl, rfl⟩ := Call.trace_done_iff.1 h
      exact .inr (.inr ⟨_, _, rfl, .reused hc rfl (by simpa [Token.isFresh] using hfresh)⟩)
    | none =>
      have hstale : Lapsed kept now := by
        rintro t rfl
        simpa [Token.isFresh] using Option.filter_eq_none_iff.1 hk t rfl
      cases ha : issuer.asks? read now with
      | none =>
        obtain ⟨f, hfetch⟩ := TokenIssuer.fetch_of_asks?_eq_none ha
        simp only [TokenIssuer.token, hk, hfetch] at h
        obtain ⟨rfl, rfl⟩ := Call.trace_done_iff.1 h
        exact .inr (.inl ⟨f, rfl, .unmade hc hstale ha⟩)
      | some r =>
        obtain ⟨url, htoken⟩ := TokenIssuer.token_of_stale hk ha
        rw [htoken] at h
        cases h with
        | unanswered => exact .inl ⟨rfl, issuer, r, rfl, hstale, ha, rfl⟩
        | @answered _ _ reply _ _ h =>
          cases hg : grantOf? reply with
          | none =>
            obtain ⟨f, hf⟩ := TokenIssuer.fetched_of_grantOf?_eq_none url hg
            simp only [hf] at h
            obtain ⟨rfl, rfl⟩ := Call.trace_done_iff.1 h
            exact .inr (.inl ⟨f, rfl, .failed hc hstale ha hg⟩)
          | some grant =>
            obtain ⟨g, time⟩ := grant
            simp only [TokenIssuer.fetched_of_grantOf? url hg] at h
            obtain ⟨rfl, rfl⟩ := Call.trace_done_iff.1 h
            exact .inr (.inr ⟨_, _, rfl, .granted hc hstale ha hg⟩)

/-! ### Whole calls -/

/-- What follows once it is known how a call is authorised: its own request, if it is. -/
def proceed (c : Client) (read : Http.Url.Reader) (op : Operation) :
    Except Failure (Option String) × Option Token → Call (Worker.Move × Option Token)
  | (.error f, kept) => .done (op.fails f, kept)
  | (.ok bearer, kept) => Http.exchange read (c.address op) (c.request op bearer) >>= fun result =>
    .done (op.concludes result, kept)

/-- Both operations are the same call: a token first, if one is needed, then the request. -/
theorem perform_eq (c : Client) (read : Http.Url.Reader) (kept : Option Token) (now : Nat)
    (op : Operation) :
    c.perform read kept now op = c.bearer read kept now >>= c.proceed read op := by
  cases op with
  | pull =>
    simp only [perform, receive, authorised, Call.bind_assoc]
    congr 1
    funext authorisation
    obtain ⟨token, kept⟩ := authorisation
    cases token with
    | error f => rfl
    | ok bearer => exact Call.bind_assoc (Http.exchange _ _ _) _ _
  | acknowledge ids =>
    simp only [perform, acknowledge, authorised, Call.bind_assoc]
    congr 1
    funext authorisation
    obtain ⟨token, kept⟩ := authorisation
    cases token with
    | error f => rfl
    | ok bearer => exact Call.bind_assoc (Http.exchange _ _ _) _ _

theorem comes_of_trace (h : Call.Trace (c.perform read kept now op) xs ending) :
    ∃ tokens service, xs = tokens ++ service ∧ Comes c read kept now op tokens service ending := by
  rw [perform_eq] at h
  rcases Call.trace_bind h with ⟨htoken, rfl⟩ | ⟨⟨token, next⟩, tokens, service, htoken, h, rfl⟩
  · rcases bearer_cases htoken with ⟨-, issuer, r, hc, hstale, ha, rfl⟩ | ⟨f, ⟨⟩, -⟩ | ⟨_, _, ⟨⟩, -⟩
    exact ⟨_, [], rfl, .awaitsToken hc hstale ha⟩
  · refine ⟨tokens, service, rfl, ?_⟩
    rcases bearer_cases htoken with ⟨⟨⟩, -⟩ | ⟨f, ⟨⟩, hnone⟩ | ⟨bearer, next, ⟨⟩, hauth⟩
    · obtain ⟨rfl, rfl⟩ := Call.trace_done_iff.1 h
      exact .unauthorised hnone
    · rw [proceed] at h
      cases ha : c.asks? read op bearer with
      | none =>
        obtain ⟨cause, hexchange, hcause⟩ := Http.exchange_of_makes?_eq_none ha
        rw [hexchange] at h
        obtain ⟨rfl, rfl⟩ := Call.trace_done_iff.1 h
        exact .unmade hauth ha hcause
      | some r =>
        obtain ⟨url, -, rfl, hexchange⟩ := Http.exchange_of_makes? ha
        rw [hexchange] at h
        obtain ⟨reply?, rfl, rfl⟩ := Call.trace_send_done
          (g := fun reply => (op.concludes (reply.answer url), next)) h
        cases reply? with
        | none => exact .unanswered hauth ha
        | some reply => exact .answered hauth ha

/-! ### What is exchanged for a token -/

theorem Authorised.tokens_ne_nil_iff (h : Authorised c read kept now tokens bearer next) :
    tokens ≠ [] ↔ ∃ issuer, c.issuer = some issuer ∧ Lapsed kept now ∧ issuer.CanAsk read := by
  cases h with
  | anonymous hc => simp [hc]
  | reused hc hkept hfresh => simp [TokenIssuer.not_lapsed hkept hfresh]
  | granted hc hstale ha => simp [hc, hstale, TokenIssuer.canAsk_of_asks? ha]

theorem Unauthorised.tokens_ne_nil_iff (h : Unauthorised c read kept now tokens) :
    tokens ≠ [] ↔ ∃ issuer, c.issuer = some issuer ∧ Lapsed kept now ∧ issuer.CanAsk read := by
  cases h with
  | unmade hc hstale ha => simp [hc, hstale, TokenIssuer.asks?_eq_none_iff.1 ha]
  | failed hc hstale ha => simp [hc, hstale, TokenIssuer.canAsk_of_asks? ha]

theorem Comes.length_le (h : Comes c read kept now op tokens service ending) :
    tokens.length ≤ 1 ∧ service.length ≤ 1 := by
  have hauth : ∀ {bearer next}, Authorised c read kept now tokens bearer next → tokens.length ≤ 1 := by
    intro bearer next h
    cases h <;> simp
  cases h with
  | awaitsToken => simp
  | unauthorised h => cases h <;> simp
  | unmade h => exact ⟨hauth h, Nat.zero_le 1⟩
  | unanswered h => exact ⟨hauth h, Nat.le_refl 1⟩
  | answered h => exact ⟨hauth h, Nat.le_refl 1⟩

/-- A token is asked for if one is needed, none is kept that is still used, and the request can be
made. -/
theorem Comes.tokens_ne_nil_iff (h : Comes c read kept now op tokens service ending) :
    tokens ≠ [] ↔ ∃ issuer, c.issuer = some issuer ∧ Lapsed kept now ∧ issuer.CanAsk read := by
  cases h with
  | awaitsToken hc hstale ha => simp [hc, hstale, TokenIssuer.canAsk_of_asks? ha]
  | unauthorised h => exact h.tokens_ne_nil_iff
  | unmade h => exact h.tokens_ne_nil_iff
  | unanswered h => exact h.tokens_ne_nil_iff
  | answered h => exact h.tokens_ne_nil_iff

/-- Only one part of what a call exchanges can be for its token. -/
theorem Comes.split_eq {more : List Exchanged} (h : Comes c read kept now op tokens service ending)
    (h' : Authorised c read kept now tokens' bearer next)
    (heq : tokens ++ service = tokens' ++ more) : tokens = tokens' ∧ service = more := by
  have hle : tokens.length ≤ 1 := h.length_le.1
  have hle' : tokens'.length ≤ 1 := by cases h' <;> simp
  have hiff : tokens ≠ [] ↔ tokens' ≠ [] := h.tokens_ne_nil_iff.trans h'.tokens_ne_nil_iff.symm
  refine List.append_inj heq ?_
  rw [← List.length_pos_iff, ← List.length_pos_iff] at hiff
  omega

end Client

/-! ### Calls one after the other -/

/-- A call with what came of it. -/
structure Visit where
  operation : Operation
  now : Nat
  /-- The token that is kept when the call begins. -/
  kept : Option Token
  exchanges : List Exchanged
  /-- The move of the worker that the call ends with, and the token to keep; there is none if a reply
  never comes. -/
  ending : Option (Worker.Move × Option Token)

namespace Client

variable {c : Client} {read : Http.Url.Reader} {kept : Option Token} {σ : Type}
  {server : Http.Request → σ → Option Http.Reply × σ} {s : σ}
  {turns : List (Nat × Operation)} {before after : List Visit} {v w : Visit}

/-- Makes calls one after the other, each at its time and with the token that the last one left. A call
that waits for ever is the last. -/
def visits (c : Client) (read : Http.Url.Reader)
    (server : Http.Request → σ → Option Http.Reply × σ) :
    Option Token → σ → List (Nat × Operation) → List Visit
  | _, _, [] => []
  | kept, s, (now, op) :: turns =>
    let ((ending, exchanges), s) := (c.perform read kept now op).converse server s
    ⟨op, now, kept, exchanges, ending⟩ ::
      match ending with
      | none => []
      | some (_, next) => c.visits read server next s turns

theorem visits_cons (c : Client) (read : Http.Url.Reader)
    (server : Http.Request → σ → Option Http.Reply × σ)
    (kept : Option Token) (s : σ) (now : Nat) (op : Operation) (turns : List (Nat × Operation)) :
    ∃ v rest, c.visits read server kept s ((now, op) :: turns) = v :: rest ∧ v.kept = kept ∧
      Call.Trace (c.perform read v.kept v.now v.operation) v.exchanges v.ending ∧
      (rest = [] ∨ ∃ move next s', v.ending = some (move, next) ∧
        rest = c.visits read server next s' turns) := by
  have htrace := Call.trace_converse server (c.perform read kept now op) s
  rw [visits]
  rcases hrun : (c.perform read kept now op).converse server s with ⟨⟨ending, exchanges⟩, s'⟩
  rw [hrun] at htrace
  refine ⟨_, _, rfl, rfl, htrace, ?_⟩
  cases ending with
  | none => exact .inl rfl
  | some result =>
    obtain ⟨move, next⟩ := result
    exact .inr ⟨move, next, s', rfl, rfl⟩

theorem trace_of_mem_visits (h : v ∈ c.visits read server kept s turns) :
    Call.Trace (c.perform read v.kept v.now v.operation) v.exchanges v.ending := by
  induction turns generalizing kept s with
  | nil => cases h
  | cons turn turns ih =>
    obtain ⟨u, rest, hvisits, -, htrace, hrest⟩ := visits_cons c read server kept s turn.1 turn.2 turns
    rw [hvisits] at h
    rcases List.mem_cons.1 h with rfl | h
    · exact htrace
    · rcases hrest with rfl | ⟨move, next, s', -, rfl⟩
      · cases h
      · exact ih h

/-- What a call can come to is what comes of it. -/
theorem comes_of_mem_visits (h : v ∈ c.visits read server kept s turns) :
    ∃ tokens service, v.exchanges = tokens ++ service ∧
      Comes c read v.kept v.now v.operation tokens service v.ending :=
  comes_of_trace (trace_of_mem_visits h)

theorem kept_of_visits (h : c.visits read server kept s turns = v :: after) : v.kept = kept := by
  cases turns with
  | nil => cases h
  | cons turn turns =>
    obtain ⟨u, rest, hvisits, hkept, -⟩ := visits_cons c read server kept s turn.1 turn.2 turns
    rw [hvisits] at h
    obtain ⟨rfl, -⟩ := List.cons.inj h
    exact hkept

/-- A call finds the token that the call before it left. -/
theorem ending_of_visits (h : c.visits read server kept s turns = before ++ v :: w :: after) :
    ∃ move, v.ending = some (move, w.kept) := by
  induction before generalizing kept s turns with
  | nil =>
    cases turns with
    | nil => cases h
    | cons turn turns =>
      obtain ⟨u, rest, hvisits, -, -, hrest⟩ := visits_cons c read server kept s turn.1 turn.2 turns
      rw [hvisits] at h
      obtain ⟨rfl, hw⟩ := List.cons.inj h
      rcases hrest with rfl | ⟨move, next, s', hending, rfl⟩
      · cases hw
      · rw [kept_of_visits hw]
        exact ⟨move, hending⟩
  | cons b before ih =>
    cases turns with
    | nil => cases h
    | cons turn turns =>
      obtain ⟨u, rest, hvisits, -, -, hrest⟩ := visits_cons c read server kept s turn.1 turn.2 turns
      rw [hvisits] at h
      obtain ⟨-, h⟩ := List.cons.inj h
      rcases hrest with rfl | ⟨move, next, s', -, rfl⟩
      · simp at h
      · exact ih h

end Client

end LogRelay.PubSub
