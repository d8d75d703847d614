import LogRelay.Proofs.Json.Required
import LogRelay.PubSub.Token

/-!
One call for a token. What a call can come to is said once (`Serves`): the kept token is used, or one is
asked for, and then a grant comes, or an answer that holds none, or nothing at all.
-/

namespace LogRelay.PubSub

/-! ### Grants -/

/-- The grant that a reply holds, with the time when it came. -/
def grantOf? (reply : Http.Reply) : Option (Token.Grant × Nat) :=
  match reply.outcome with
  | .answered status body =>
    if Http.Status.isSuccess status then
      (Json.readWhole Token.Grant.schema.read
        (if Http.Status.hasBody status then body else [])).toOption.map (·, reply.time)
    else none
  | _ => none

/-- The token that a grant gives from the time when it came. -/
def tokenFrom (grant : Token.Grant × Nat) : Token := Token.ofGrant grant.1 grant.2

theorem toOption_eq_some_iff {ε α : Type} {x : Except ε α} {a : α} :
    x.toOption = some a ↔ x = .ok a := by
  cases x <;> simp [Except.toOption]

/-- A reply holds a grant exactly if it is a successful answer whose body is one. -/
theorem grantOf?_eq_some_iff {reply : Http.Reply} {g : Token.Grant} {time : Nat} :
    grantOf? reply = some (g, time) ↔ ∃ status body, reply = ⟨.answered status body, time⟩ ∧
      Http.Status.isSuccess status = true ∧ Json.readWhole Token.Grant.schema.read
        (if Http.Status.hasBody status then body else []) = .ok g := by
  obtain ⟨outcome, t⟩ := reply
  cases outcome with
  | answered status body =>
    by_cases hs : Http.Status.isSuccess status = true
    · simp only [grantOf?, hs, if_true, Option.map_eq_some_iff, toOption_eq_some_iff]
      constructor
      · rintro ⟨_, hread, ⟨⟩⟩
        exact ⟨_, _, rfl, hs, hread⟩
      · rintro ⟨_, _, ⟨⟩, -, hread⟩
        exact ⟨g, hread, rfl⟩
    · simp only [grantOf?, hs]
      refine ⟨nofun, ?_⟩
      rintro ⟨_, _, ⟨⟩, hsuccess, -⟩
      exact absurd hsuccess hs
  | cutOff status => simp [grantOf?]
  | lost => simp [grantOf?]
  | timedOut => simp [grantOf?]

/-- Reading a field of a grant sets that field and leaves the other as it was. -/
theorem Token.Grant.of_read {f : Json.Field Token.Grant} (hf : f ∈ Token.Grant.schema.fields)
    {acc acc' : Token.Grant} {bytes rest : List UInt8} (h : f.read acc bytes = .ok (acc', rest)) :
    f.isSet acc' = true ∧ ((∃ s, acc' = { acc with token := some s }) ∨
      ∃ n, acc' = { acc with expiresInSecs := some n }) := by
  rcases List.mem_cons.1 hf with rfl | hf
  · cases hr : Json.readText bytes with
    | error e => simp [hr, Except.map] at h
    | ok read =>
      obtain ⟨rfl, -⟩ := by simpa [hr, Except.map] using h
      exact ⟨rfl, .inl ⟨_, rfl⟩⟩
  · obtain rfl := List.mem_singleton.1 hf
    cases hr : Json.readCount bytes with
    | error e => simp [hr, Except.map] at h
    | ok read =>
      obtain ⟨rfl, -⟩ := by simpa [hr, Except.map] using h
      exact ⟨rfl, .inr ⟨_, rfl⟩⟩

theorem Token.Grant.cumulative : Token.Grant.schema.Cumulative where
  sets f hf acc bytes acc' rest h := (Token.Grant.of_read hf h).1
  keeps f hf g hg acc bytes acc' rest h hset := by
    obtain ⟨-, ⟨s, rfl⟩ | ⟨n, rfl⟩⟩ := Token.Grant.of_read hg h
    · rcases List.mem_cons.1 hf with rfl | hf
      · rfl
      · obtain rfl := List.mem_singleton.1 hf
        exact hset
    · rcases List.mem_cons.1 hf with rfl | hf
      · exact hset
      · obtain rfl := List.mem_singleton.1 hf
        rfl

/-- A grant has a token. -/
theorem exists_token_of_grantOf? {reply : Http.Reply} {g : Token.Grant} {time : Nat}
    (h : grantOf? reply = some (g, time)) : ∃ text, g.token = some text := by
  obtain ⟨_, _, -, -, hread⟩ := grantOf?_eq_some_iff.1 h
  have hset := Json.Schema.isSet_of_readWhole Token.Grant.cumulative hread List.mem_cons_self rfl
  exact Option.isSome_iff_exists.1 hset

/-- A token is used until a minute before it expires, and for a day at most. -/
theorem lifetimeSecs_eq (expiresInSecs : Nat) :
    (Token.lifetimeSecs expiresInSecs : Int) = max 0 (min (expiresInSecs : Int) 86400 - 60) := by
  simp only [Token.lifetimeSecs, Token.longestSecs, Token.marginSecs]
  omega

/-! ### A call -/

/-- A call for a token: when it begins, and the reply to its request, if there is one. -/
structure Demand where
  now : Nat
  reply : Option Http.Reply := none
  deriving DecidableEq, Repr

/-- What comes of a call for a token. -/
structure Served where
  demand : Demand
  /-- The token that is kept before the call. -/
  kept : Option Token
  requests : List Http.Request
  /-- There is none if the reply never comes. -/
  result : Option (Except Failure String)
  /-- The token that is kept after the call. -/
  next : Option Token

/-- The grant that a call brings. -/
def Served.grant? (x : Served) : Option (Token.Grant × Nat) :=
  if x.requests.isEmpty then none else x.demand.reply.bind grantOf?

namespace TokenIssuer

/-- The request for a token, unless its address is none or it cannot be signed. -/
def asks? (issuer : TokenIssuer) (read : Http.Url.Reader) (now : Nat) : Option Http.Request :=
  match issuer.request now with
  | .error _ => none
  | .ok (address, request) => (read address).toOption.map request

/-- Where tokens are asked for. -/
def address : TokenIssuer → String
  | metadata address => address
  | account credentials => credentials.tokenUri

/-- A request can be made: the address is one, and a key that is to sign the request can sign. -/
structure CanAsk (issuer : TokenIssuer) (read : Http.Url.Reader) : Prop where
  parses : ∃ url, read issuer.address = .ok url
  signs : ∀ email keyId key uri, issuer = .account (.serviceAccount email keyId key uri) →
    Key.Rsa.check key = .ok ()

/-- Serves a call. -/
def serve (issuer : TokenIssuer) (read : Http.Url.Reader) (kept : Option Token) (d : Demand) : Served :=
  let ((result, requests), _) := (issuer.token read kept d.now).run (fun _ s => (d.reply, s)) ()
  { demand := d, kept, requests, result := result.map (·.1), next := (result.map (·.2)).getD kept }

/-- Serves calls one after the other. -/
def serveAll (issuer : TokenIssuer) (read : Http.Url.Reader) :
    Option Token → List Demand → List Served
  | _, [] => []
  | kept, d :: rest =>
    issuer.serve read kept d :: issuer.serveAll read (issuer.serve read kept d).next rest

/-- No token is kept that is still used at the time. -/
def Lapsed (kept : Option Token) (now : Nat) : Prop := ∀ t, kept = some t → t.freshUntil ≤ now

/-- What can come of a call. -/
inductive Serves (issuer : TokenIssuer) (read : Http.Url.Reader) (kept : Option Token) (d : Demand) :
    Served → Prop
  | reused {t : Token} (hkept : kept = some t) (hfresh : d.now < t.freshUntil) :
      Serves issuer read kept d ⟨d, kept, [], some (.ok t.text), kept⟩
  | unmade {f : Failure} (hstale : Lapsed kept d.now) (ha : issuer.asks? read d.now = none) :
      Serves issuer read kept d ⟨d, kept, [], some (.error f), kept⟩
  | unanswered {r : Http.Request} (hstale : Lapsed kept d.now)
      (ha : issuer.asks? read d.now = some r) (hr : d.reply = none) :
      Serves issuer read kept d ⟨d, kept, [r], none, kept⟩
  | granted {r : Http.Request} {reply : Http.Reply} {g : Token.Grant} {time : Nat}
      (hstale : Lapsed kept d.now) (ha : issuer.asks? read d.now = some r)
      (hr : d.reply = some reply) (hg : grantOf? reply = some (g, time)) :
      Serves issuer read kept d
        ⟨d, kept, [r], some (.ok (g.token.getD "")), some (Token.ofGrant g time)⟩
  | failed {r : Http.Request} {reply : Http.Reply} {f : Failure}
      (hstale : Lapsed kept d.now) (ha : issuer.asks? read d.now = some r)
      (hr : d.reply = some reply) (hg : grantOf? reply = none) :
      Serves issuer read kept d ⟨d, kept, [r], some (.error f), kept⟩

variable {issuer : TokenIssuer} {read : Http.Url.Reader} {kept : Option Token} {d : Demand}

theorem not_lapsed {t : Token} {now : Nat} (hkept : kept = some t) (hfresh : now < t.freshUntil) :
    ¬ Lapsed kept now := by
  intro hlapsed
  have hle := hlapsed t hkept
  omega

/-- A request for a token is authorised by none. -/
theorem bearer_of_request {now : Nat} {address : String} {request : Http.Url → Http.Request}
    (h : issuer.request now = .ok (address, request)) (url : Http.Url) :
    (request url).bearer = none := by
  cases issuer with
  | metadata address => cases h; rfl
  | account credentials =>
    simp only [TokenIssuer.request] at h
    cases hb : accountBody now credentials with
    | error f => rw [hb] at h; cases h
    | ok body => rw [hb] at h; cases h; rfl

/-- Whether a request can be made does not depend on the time. -/
theorem asks?_eq_none_iff {now : Nat} : issuer.asks? read now = none ↔ ¬ issuer.CanAsk read := by
  have hparse : ∀ address (request : Http.Url → Http.Request),
      (read address).toOption.map request = none ↔
        ¬ ∃ url, read address = .ok url := by
    intro address request
    cases read address <;> simp [Except.toOption]
  cases issuer with
  | metadata address =>
    simp only [asks?, TokenIssuer.request, hparse]
    exact not_congr ⟨fun h => ⟨h, nofun⟩, fun h => h.parses⟩
  | account credentials =>
    cases credentials with
    | authorizedUser =>
      simp only [asks?, TokenIssuer.request, accountBody, Except.map, hparse]
      exact not_congr ⟨fun h => ⟨h, nofun⟩, fun h => h.parses⟩
    | serviceAccount email keyId key uri =>
      cases hk : Key.Rsa.check key with
      | error cause =>
        have hnot : ¬ CanAsk (.account (.serviceAccount email keyId key uri)) read := by
          intro h
          have hsigns := h.signs _ _ _ _ rfl
          rw [hk] at hsigns
          cases hsigns
        simp [asks?, TokenIssuer.request, accountBody, hk, Except.map, hnot]
      | ok u =>
        simp only [asks?, TokenIssuer.request, accountBody, hk, Except.map, hparse]
        refine not_congr ⟨fun h => ⟨h, ?_⟩, fun h => h.parses⟩
        rintro _ _ _ _ ⟨⟩
        exact hk

theorem canAsk_of_asks? {now : Nat} {r : Http.Request} (h : issuer.asks? read now = some r) :
    issuer.CanAsk read := by
  refine Classical.byContradiction fun hnot => ?_
  rw [asks?_eq_none_iff.2 hnot] at h
  cases h

/-- What a fetch makes of a reply. -/
def fetched (url : Http.Url) (reply : Http.Reply) : Except Failure Token :=
  match reply.answer url with
  | .ok answer => tokenOf answer
  | .error cause => .error (.http cause)

/-- A fetch makes a token of a reply exactly if it holds a grant. -/
theorem fetched_of_grantOf? (url : Http.Url) {reply : Http.Reply} {g : Token.Grant} {time : Nat}
    (hg : grantOf? reply = some (g, time)) : fetched url reply = .ok (Token.ofGrant g time) := by
  obtain ⟨status, body, rfl, hs, hread⟩ := grantOf?_eq_some_iff.1 hg
  simp only [fetched, Http.Reply.answer, tokenOf, hs, if_true, Http.Answer.read, hread]
  rfl

theorem fetched_of_grantOf?_eq_none (url : Http.Url) {reply : Http.Reply}
    (hg : grantOf? reply = none) : ∃ f, fetched url reply = .error f := by
  obtain ⟨outcome, time⟩ := reply
  cases outcome with
  | answered status body =>
    by_cases hs : Http.Status.isSuccess status = true
    · cases hread : Json.readWhole Token.Grant.schema.read
          (if Http.Status.hasBody status then body else []) with
      | ok g => rw [grantOf?_eq_some_iff.2 ⟨status, body, rfl, hs, hread⟩] at hg; cases hg
      | error e =>
        refine ⟨.http .undecodable, ?_⟩
        simp only [fetched, Http.Reply.answer, tokenOf, hs, if_true, Http.Answer.read, hread]
        rfl
    · simp [fetched, Http.Reply.answer, tokenOf, hs]
  | cutOff status =>
    by_cases hs : Http.Status.isSuccess status = true
    · refine ⟨.http .undecodable, ?_⟩
      cases hb : Http.Status.hasBody status with
      | true => simp [fetched, Http.Reply.answer, tokenOf, hs, hb, Http.Answer.read]
      | false =>
        simp only [fetched, Http.Reply.answer, tokenOf, hs, hb, Http.Answer.read, if_true]
        rfl
    · simp [fetched, Http.Reply.answer, tokenOf, hs]
  | lost => exact ⟨_, rfl⟩
  | timedOut => exact ⟨_, rfl⟩

/-- Without a request there is nothing to wait for. -/
theorem fetch_of_asks?_eq_none {now : Nat} (h : issuer.asks? read now = none) :
    ∃ f, issuer.fetch read now = .done (.error f) := by
  rw [asks?] at h
  rw [fetch]
  cases hr : issuer.request now with
  | error f => exact ⟨f, rfl⟩
  | ok asked =>
    obtain ⟨address, request⟩ := asked
    simp only [hr, Option.map_eq_none_iff] at h
    cases hu : read address with
    | ok url => simp [hu, Except.toOption] at h
    | error cause =>
      cases cause with
      | malformed => exact ⟨.http .unmakeable, by simp [Http.exchange, hu]; rfl⟩
      | unusable text => exact ⟨.http (.unusable text), by simp [Http.exchange, hu]; rfl⟩

/-- A fetch sends its request once and is over with the reply. -/
theorem fetch_of_asks? {now : Nat} {r : Http.Request} (h : issuer.asks? read now = some r) :
    ∃ url, issuer.fetch read now = .send r fun reply => .done (fetched url reply) := by
  rw [asks?] at h
  rw [fetch]
  cases hr : issuer.request now with
  | error f => simp [hr] at h
  | ok asked =>
    obtain ⟨address, request⟩ := asked
    simp only [hr, Option.map_eq_some_iff] at h
    obtain ⟨url, hu, rfl⟩ := h
    cases hparse : read address with
    | error cause => simp [hparse, Except.toOption] at hu
    | ok url' =>
      obtain rfl : url' = url := by simpa [hparse, Except.toOption] using hu
      refine ⟨url', ?_⟩
      simp only [Http.exchange, hparse, bearer_of_request hr, Option.map_none, Option.getD_none,
        if_true]
      change Http.Call.send _ _ = Http.Call.send _ _
      congr 1
      funext reply
      cases h : reply.answer url' <;> (simp only [fetched, Http.Call.bind, h]; rfl)

/-- Without a token that is still used, a call sends the request of a fetch and is over with the
reply. -/
theorem token_of_stale {now : Nat} {r : Http.Request} (hstale : kept.filter (·.isFresh now) = none)
    (ha : issuer.asks? read now = some r) :
    ∃ url, issuer.token read kept now = .send r fun reply =>
      match fetched url reply with
      | .ok t => .done (.ok t.text, some t)
      | .error f => .done (.error f, kept) := by
  obtain ⟨url, hf⟩ := fetch_of_asks? ha
  refine ⟨url, ?_⟩
  simp only [token, hstale, hf]
  rfl

theorem serves_serve : Serves issuer read kept d (issuer.serve read kept d) := by
  cases hk : kept.filter (·.isFresh d.now) with
  | some t =>
    obtain ⟨rfl, hfresh⟩ := Option.filter_eq_some_iff.1 hk
    have hs : issuer.serve read (some t) d = ⟨d, some t, [], some (.ok t.text), some t⟩ := by
      simp [serve, token, hk, Http.Call.run]
    rw [hs]
    exact .reused rfl (by simpa [Token.isFresh] using hfresh)
  | none =>
    have hstale : Lapsed kept d.now := by
      rintro t rfl
      simpa [Token.isFresh] using Option.filter_eq_none_iff.1 hk t rfl
    cases ha : issuer.asks? read d.now with
    | none =>
      obtain ⟨f, hf⟩ := fetch_of_asks?_eq_none ha
      have hs : issuer.serve read kept d = ⟨d, kept, [], some (.error f), kept⟩ := by
        simp only [serve, token, hk, hf]
        rfl
      rw [hs]
      exact .unmade hstale ha
    | some r =>
      obtain ⟨url, htoken⟩ := token_of_stale hk ha
      cases hr : d.reply with
      | none =>
        have hs : issuer.serve read kept d = ⟨d, kept, [r], none, kept⟩ := by
          simp only [serve, htoken, hr]
          rfl
        rw [hs]
        exact .unanswered hstale ha hr
      | some reply =>
        cases hg : grantOf? reply with
        | none =>
          obtain ⟨f, hfetched⟩ := fetched_of_grantOf?_eq_none url hg
          have hs : issuer.serve read kept d = ⟨d, kept, [r], some (.error f), kept⟩ := by
            simp only [serve, htoken, hr, Http.Call.run, hfetched]
            rfl
          rw [hs]
          exact .failed hstale ha hr hg
        | some grant =>
          obtain ⟨g, time⟩ := grant
          have hfetched := fetched_of_grantOf? url hg
          have hs : issuer.serve read kept d =
              ⟨d, kept, [r], some (.ok (g.token.getD "")), some (Token.ofGrant g time)⟩ := by
            simp only [serve, htoken, hr, Http.Call.run, hfetched]
            rfl
          rw [hs]
          exact .granted hstale ha hr hg

namespace Serves

variable {x : Served}

theorem demand_eq (h : Serves issuer read kept d x) : x.demand = d := by cases h <;> rfl

theorem kept_eq (h : Serves issuer read kept d x) : x.kept = kept := by cases h <;> rfl

/-- What is kept after a call is what it was granted, or else what was kept before. -/
theorem next_eq (h : Serves issuer read kept d x) : x.next = (x.grant?.map tokenFrom).or kept := by
  cases h with
  | reused => rfl
  | unmade => rfl
  | unanswered hstale ha hr => simp [Served.grant?, hr]
  | granted hstale ha hr hg => simp [Served.grant?, hr, hg, tokenFrom]
  | failed hstale ha hr hg => simp [Served.grant?, hr, hg]

theorem requests_ne_nil_iff (h : Serves issuer read kept d x) :
    x.requests ≠ [] ↔ Lapsed kept d.now ∧ issuer.CanAsk read := by
  cases h with
  | reused hkept hfresh => simp [not_lapsed hkept hfresh]
  | unmade hstale ha => simp [asks?_eq_none_iff.1 ha]
  | unanswered hstale ha => simp [hstale, canAsk_of_asks? ha]
  | granted hstale ha => simp [hstale, canAsk_of_asks? ha]
  | failed hstale ha => simp [hstale, canAsk_of_asks? ha]

theorem asks?_of_mem_requests {r : Http.Request} (h : Serves issuer read kept d x)
    (hr : r ∈ x.requests) : issuer.asks? read d.now = some r := by
  cases h with
  | reused => cases hr
  | unmade => cases hr
  | unanswered hstale ha => rwa [List.mem_singleton.1 hr]
  | granted hstale ha => rwa [List.mem_singleton.1 hr]
  | failed hstale ha => rwa [List.mem_singleton.1 hr]

theorem length_requests_le (h : Serves issuer read kept d x) : x.requests.length ≤ 1 := by
  cases h <;> simp

theorem result_eq_none_iff (h : Serves issuer read kept d x) :
    x.result = none ↔ x.requests ≠ [] ∧ d.reply = none := by
  cases h with
  | reused => simp
  | unmade => simp
  | unanswered hstale ha hr => simp [hr]
  | granted hstale ha hr hg => simp [hr]
  | failed hstale ha hr hg => simp [hr]

/-- A call fails exactly if there is nothing to use, and either no request can be made or the reply
holds no grant. -/
theorem error_iff (h : Serves issuer read kept d x) :
    (∃ f, x.result = some (.error f)) ↔ Lapsed kept d.now ∧
      (¬ issuer.CanAsk read ∨ ∃ reply, d.reply = some reply ∧ grantOf? reply = none) := by
  cases h with
  | reused hkept hfresh => simp [not_lapsed hkept hfresh]
  | unmade hstale ha => simp [asks?_eq_none_iff.1 ha, hstale]
  | unanswered hstale ha hr => simp [canAsk_of_asks? ha, hr]
  | granted hstale ha hr hg => simp [canAsk_of_asks? ha, hr, hg]
  | failed hstale ha hr hg => simp [hr, hg, hstale]

/-- A call that fails brings no grant and leaves what is kept as it is. -/
theorem of_error {f : Failure} (h : Serves issuer read kept d x) (hf : x.result = some (.error f)) :
    x.grant? = none ∧ x.next = kept := by
  cases h with
  | reused => cases hf
  | unmade => exact ⟨rfl, rfl⟩
  | unanswered => cases hf
  | granted => cases hf
  | failed hstale ha hr hg => exact ⟨by simp [Served.grant?, hr, hg], rfl⟩

end Serves

end TokenIssuer

end LogRelay.PubSub
