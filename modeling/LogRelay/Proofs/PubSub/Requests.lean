import LogRelay.Proofs.PubSub.Calls
import LogRelay.Proofs.PubSub.TokenCache

/-!
What a client asks for. A call makes one request for a token at most, when there is none that is still
used, and then one request of its own at most, when it knows how to authorise it. So a client that
needs tokens never makes a request without one.
-/

namespace LogRelay.PubSub

open Http (Exchanged)
open TokenIssuer (Lapsed)

namespace Client

variable {c : Client} {read : Http.Url.Reader} {kept next next' : Option Token} {now : Nat} {op : Operation}
  {tokens service : List Exchanged} {bearer bearer' : Option String} {x : Exchanged}
  {ending : Option (Worker.Move × Option Token)}

/-- The token of the grant that came last with these replies, if there is one. -/
def granted? (exchanges : List Exchanged) : Option Token :=
  ((exchanges.filterMap (·.reply)).filterMap grantOf?).getLast?.map tokenFrom

namespace Authorised

theorem bearer_eq_none_iff (h : Authorised c read kept now tokens bearer next) :
    bearer = none ↔ c.issuer = none := by
  cases h with
  | anonymous hc => simp [hc]
  | reused hc => simp [hc]
  | granted hc => simp [hc]

theorem not_unauthorised (h : Authorised c read kept now tokens bearer next) :
    ¬ Unauthorised c read kept now tokens := by
  intro hnot
  cases h with
  | anonymous hc => cases hnot with | unmade hc' => simp [hc] at hc'
  | reused hc hkept hfresh =>
    cases hnot with | unmade _ hstale => exact TokenIssuer.not_lapsed hkept hfresh hstale
  | granted hc hstale ha hg => cases hnot with | failed _ _ _ hnone => simp [hg] at hnone

/-- Its exchanges tell how a call is authorised. -/
theorem functional (h : Authorised c read kept now tokens bearer next)
    (h' : Authorised c read kept now tokens bearer' next') : bearer = bearer' ∧ next = next' := by
  cases h with
  | anonymous hc =>
    cases h' with
    | anonymous => exact ⟨rfl, rfl⟩
    | reused hc' => simp [hc] at hc'
  | reused hc hkept =>
    cases h' with
    | anonymous hc' => simp [hc] at hc'
    | reused _ hkept' =>
      obtain rfl := Option.some.inj (hkept.symm.trans hkept')
      exact ⟨rfl, rfl⟩
  | granted _ _ _ hg =>
    cases h' with
    | granted _ _ _ hg' =>
      obtain ⟨rfl, rfl⟩ := Prod.mk.inj (Option.some.inj (hg.symm.trans hg'))
      exact ⟨rfl, rfl⟩

theorem next_eq (h : Authorised c read kept now tokens bearer next) :
    next = (granted? tokens).or kept := by
  cases h with
  | anonymous => rfl
  | reused => rfl
  | granted _ _ _ hg => simp [granted?, hg, tokenFrom]

end Authorised

namespace Unauthorised

theorem next_eq (h : Unauthorised c read kept now tokens) : kept = (granted? tokens).or kept := by
  cases h with
  | unmade => rfl
  | failed _ _ _ hg => simp [granted?, hg]

end Unauthorised

namespace Comes

theorem asks?_of_mem_tokens (h : Comes c read kept now op tokens service ending) (hx : x ∈ tokens) :
    ∃ issuer, c.issuer = some issuer ∧ issuer.asks? read now = some x.request := by
  have hauth : ∀ {bearer next}, Authorised c read kept now tokens bearer next →
      ∃ issuer, c.issuer = some issuer ∧ issuer.asks? read now = some x.request := by
    intro bearer next h
    cases h with
    | anonymous => cases hx
    | reused => cases hx
    | granted hc _ ha =>
      obtain rfl := List.mem_singleton.1 hx
      exact ⟨_, hc, ha⟩
  cases h with
  | awaitsToken hc _ ha =>
    obtain rfl := List.mem_singleton.1 hx
    exact ⟨_, hc, ha⟩
  | unauthorised h =>
    cases h with
    | unmade => cases hx
    | failed hc _ ha =>
      obtain rfl := List.mem_singleton.1 hx
      exact ⟨_, hc, ha⟩
  | unmade h => exact hauth h
  | unanswered h => exact hauth h
  | answered h => exact hauth h

theorem service_ne_nil_iff (h : Comes c read kept now op tokens service ending) :
    service ≠ [] ↔ ∃ bearer next, Authorised c read kept now tokens bearer next ∧
      c.asks? read op bearer ≠ none := by
  cases h with
  | awaitsToken =>
    refine ⟨fun h => absurd rfl h, ?_⟩
    rintro ⟨_, _, h, -⟩
    cases h
  | unauthorised hnot =>
    refine ⟨fun h => absurd rfl h, ?_⟩
    rintro ⟨_, _, h, -⟩
    exact absurd hnot h.not_unauthorised
  | unmade h ha =>
    refine ⟨fun h => absurd rfl h, ?_⟩
    rintro ⟨_, _, h', ha'⟩
    obtain ⟨rfl, -⟩ := h.functional h'
    exact absurd ha ha'
  | unanswered h ha => exact ⟨fun _ => ⟨_, _, h, by simp [ha]⟩, fun _ => List.cons_ne_nil _ _⟩
  | answered h ha => exact ⟨fun _ => ⟨_, _, h, by simp [ha]⟩, fun _ => List.cons_ne_nil _ _⟩

theorem asks?_of_mem_service (h : Comes c read kept now op tokens service ending) (hx : x ∈ service) :
    ∃ bearer next, Authorised c read kept now tokens bearer next ∧
      c.asks? read op bearer = some x.request := by
  cases h with
  | awaitsToken => cases hx
  | unauthorised => cases hx
  | unmade => cases hx
  | unanswered h ha =>
    obtain rfl := List.mem_singleton.1 hx
    exact ⟨_, _, h, ha⟩
  | answered h ha =>
    obtain rfl := List.mem_singleton.1 hx
    exact ⟨_, _, h, ha⟩

/-- What is kept after a call is what it was granted, or else what was kept before. -/
theorem next_eq {move : Worker.Move}
    (h : Comes c read kept now op tokens service (some (move, next))) :
    next = (granted? tokens).or kept := by
  cases h with
  | unauthorised h => exact h.next_eq
  | unmade h => exact h.next_eq
  | answered h => exact h.next_eq

/-- Without a grant in reply to the request for a token there is no other request. -/
theorem service_eq_nil (h : Comes c read kept now op tokens service ending) (hx : x ∈ tokens)
    (hreply : x.reply.bind grantOf? = none) : service = [] := by
  refine Classical.byContradiction fun hne => ?_
  obtain ⟨_, _, hauth, -⟩ := h.service_ne_nil_iff.1 hne
  cases hauth with
  | anonymous => cases hx
  | reused => cases hx
  | granted _ _ _ hg =>
    obtain rfl := List.mem_singleton.1 hx
    simp [hg] at hreply

end Comes

/-! ### Requests of an operation -/

/-- How the address of an operation ends. -/
def verb : Operation → String
  | .pull => ":pull"
  | .acknowledge _ => ":acknowledge"

/-- What a request for an operation of a subscription is, authorised by a token if there is one. -/
structure IsRequest (read : Http.Url.Reader) (endpoint : String) (path : SubscriptionPath) (maxMessages : Nat)
    (op : Operation) (bearer : Option String) (r : Http.Request) : Prop where
  method : r.method = .post
  url : read (SubscriptionPath.trimEndpoint endpoint ++ "/v1/" ++ path.render ++ verb op) =
    .ok r.url
  pull : op = .pull →
    r.body = .json (.object [("maxMessages", .integer (max maxMessages 1 : Nat))])
  acknowledge : ∀ ids, op = .acknowledge ids →
    r.body = .json (.object [("ackIds", .list (ids.map .text))])
  authorization : ∀ token, ("authorization", "Bearer " ++ token) ∈ r.headers ↔ bearer = some token

theorem basic_ne_bearer (s token : String) : "Basic " ++ s ≠ "Bearer " ++ token := by
  intro h
  have hchars := congrArg String.toList h
  simp only [String.toList_append] at hchars
  cases hchars

/-- A request is authorised by the account of its address, and by its token. -/
theorem authorization_mem_headers_iff {r : Http.Request} {value : String} :
    ("authorization", value) ∈ r.headers ↔ r.basic? = some value ∨ r.bearerValue? = some value := by
  have hmeta : ("authorization", value) ∉
      (if r.forMetadata then [("metadata-flavor", "Google")] else []) := by
    split <;> simp
  have hcontent : ("authorization", value) ∉
      (r.body.contentType?.map ("content-type", ·)).toList := by
    rw [Option.mem_toList, Option.map_eq_some_iff]
    rintro ⟨kind, -, heq⟩
    exact absurd (Prod.mk.inj heq).1 (by decide)
  have hown : ∀ value? : Option String,
      ("authorization", value) ∈ (value?.map ("authorization", ·)).toList ↔ value? = some value := by
    intro value?
    simp only [Option.mem_toList, Option.map_eq_some_iff, Prod.mk.injEq, true_and, exists_eq_right]
  simp only [Http.Request.headers, List.mem_append, hmeta, hcontent, hown, or_false]

/-- A token is in the headers exactly if it authorises the request; the account of an address is
another matter. -/
theorem mem_headers_iff {r : Http.Request} {token : String} :
    ("authorization", "Bearer " ++ token) ∈ r.headers ↔ r.bearer = some token := by
  rw [authorization_mem_headers_iff, Http.Request.bearerValue?]
  constructor
  · rintro (hbasic | hbearer)
    · obtain ⟨account, -, heq⟩ := Option.map_eq_some_iff.1 hbasic
      exact absurd heq (basic_ne_bearer _ _)
    · obtain ⟨t, ht, heq⟩ := Option.map_eq_some_iff.1 hbearer
      rw [ht, (String.append_right_inj _).1 heq]
  · intro h
    rw [h]
    exact .inr rfl

variable {endpoint : String} {path : SubscriptionPath} {maxMessages : Nat}
  {issuer : Option TokenIssuer} {r : Http.Request}

theorem isRequest_of_asks? (h : (make endpoint path maxMessages issuer).asks? read op bearer = some r) :
    IsRequest read endpoint path maxMessages op bearer r := by
  obtain ⟨url, hparse, rfl, -⟩ := Http.makes?_eq_some_iff.1 h
  refine ⟨rfl, ?_, ?_, ?_, fun token => mem_headers_iff⟩
  · cases op with
    | pull => exact hparse
    | acknowledge ids => exact hparse
  · rintro rfl
    rfl
  · rintro ids rfl
    rfl

/-- A request can be made if its address is one and its token fits a header. -/
theorem asks?_ne_none_iff : (make endpoint path maxMessages issuer).asks? read op bearer ≠ none ↔
    (∃ url, read
      (SubscriptionPath.trimEndpoint endpoint ++ "/v1/" ++ path.render ++ verb op) = .ok url) ∧
      ∀ token, bearer = some token → Http.Request.isHeaderText token = true := by
  have haddress : (make endpoint path maxMessages issuer).address op =
      SubscriptionPath.trimEndpoint endpoint ++ "/v1/" ++ path.render ++ verb op := by
    cases op <;> rfl
  rw [Option.ne_none_iff_exists']
  simp only [asks?, Http.makes?_eq_some_iff, haddress]
  constructor
  · rintro ⟨r, url, hparse, rfl, hheader⟩
    exact ⟨⟨url, hparse⟩, hheader⟩
  · rintro ⟨⟨url, hparse⟩, hheader⟩
    exact ⟨_, url, hparse, rfl, hheader⟩

end Client

open Client (Authorised IsRequest granted? verb)

/-- A server that gives these replies one after the other, and then none. -/
def scripted : Http.Request → List Http.Reply → Option Http.Reply × List Http.Reply
  | _, [] => (none, [])
  | _, reply :: rest => (some reply, rest)

/-- A pull that gets its token first, and an acknowledgement with the same token. -/
def pullThenAcknowledge : List Visit :=
  (Client.make "http://h/" ⟨"p", "s"⟩ 0 machineServer).visits Http.Url.parse scripted none
    [⟨.answered 200 (grantBody "A" "90"), 500⟩, ⟨.answered 503 [], 600⟩]
    [(0, .pull), (1000, .acknowledge ["a", "b"])]

end LogRelay.PubSub
