import LogRelay.Proofs.PubSub.Demand

/-!
How long a token is used. Calls for a token come one after the other, and each finds what the last one
kept; a token is taken from what is kept as long as its grant allows, and asked for otherwise.
-/

namespace LogRelay.PubSub

/-! ### The last grant -/

/-- The last grant that calls brought. -/
def latest (history : List Served) : Option (Token.Grant × Nat) :=
  (history.filterMap Served.grant?).getLast?

/-- The last grant still allows its token to be used: a minute is left until it expires, counted for a
day at most. -/
def Usable (history : List Served) (now : Nat) : Prop :=
  ∃ g time, latest history = some (g, time) ∧
    (now : Int) < time + 1000 * max 0 (min (g.expiresInSecs.getD 0 : Int) 86400 - 60)

variable {issuer : TokenIssuer} {read : Http.Url.Reader} {kept : Option Token} {d : Demand}
  {demands : List Demand} {before after history : List Served} {x : Served} {g : Token.Grant}
  {now time : Nat}

theorem latest_cons (x : Served) (history : List Served) :
    latest (x :: history) = (latest history).or x.grant? := by
  cases hx : x.grant? with
  | none => simp [latest, hx]
  | some grant =>
    rw [latest, List.filterMap_cons_some hx, List.getLast?_cons, ← latest]
    cases latest history <;> rfl

theorem latest_snoc (history : List Served) (x : Served) :
    latest (history ++ [x]) = x.grant?.or (latest history) := by
  cases hx : x.grant? <;> simp [latest, hx]

theorem not_usable_iff :
    ¬ Usable history now ↔ TokenIssuer.Lapsed ((latest history).map tokenFrom) now := by
  constructor
  · intro h t ht
    obtain ⟨⟨g, time⟩, hlast, rfl⟩ := Option.map_eq_some_iff.1 ht
    refine Nat.le_of_not_lt fun hnow => h ⟨g, time, hlast, ?_⟩
    rw [← lifetimeSecs_eq]
    simp only [tokenFrom, Token.ofGrant] at hnow
    omega
  · rintro h ⟨g, time, hlast, hnow⟩
    have hle := h (tokenFrom (g, time)) (by rw [hlast]; rfl)
    rw [← lifetimeSecs_eq] at hnow
    simp only [tokenFrom, Token.ofGrant] at hle
    omega

/-- The last grant came with the reply to one of the calls. -/
theorem exists_of_latest (h : latest history = some (g, time)) :
    ∃ z ∈ history, ∃ reply, z.demand.reply = some reply ∧ grantOf? reply = some (g, time) := by
  obtain ⟨z, hz, hgrant⟩ := List.mem_filterMap.1 (List.mem_of_getLast? h)
  refine ⟨z, hz, ?_⟩
  cases hr : z.requests.isEmpty with
  | true => simp [Served.grant?, hr] at hgrant
  | false =>
    simp only [Served.grant?, hr, Bool.false_eq_true, if_false] at hgrant
    exact Option.bind_eq_some_iff.1 hgrant

theorem map_demand_serveAll (issuer : TokenIssuer) (read : Http.Url.Reader) (kept : Option Token)
    (demands : List Demand) :
    (issuer.serveAll read kept demands).map (·.demand) = demands := by
  induction demands generalizing kept with
  | nil => rfl
  | cons d rest ih =>
    rw [TokenIssuer.serveAll, List.map_cons, ih, TokenIssuer.serves_serve.demand_eq]

/-- Each call is served with the token of the last grant before it. -/
theorem serves_of_serveAll (h : issuer.serveAll read kept demands = before ++ x :: after) :
    TokenIssuer.Serves issuer read (((latest before).map tokenFrom).or kept) x.demand x := by
  induction before generalizing kept demands with
  | nil =>
    cases demands with
    | nil => cases h
    | cons d rest =>
      obtain ⟨rfl, -⟩ := List.cons.inj h
      rw [TokenIssuer.serves_serve.demand_eq]
      exact TokenIssuer.serves_serve
  | cons b before ih =>
    cases demands with
    | nil => cases h
    | cons d rest =>
      obtain ⟨rfl, hrest⟩ := List.cons.inj h
      have hserves := ih hrest
      rw [TokenIssuer.serves_serve.next_eq, ← Option.or_assoc, ← Option.map_or] at hserves
      rwa [latest_cons]

/-! ### Calls one after the other -/

/-- No call begins before the earlier ones, or before the replies to them. -/
def InOrder (demands : List Demand) : Prop :=
  demands.Pairwise fun c d => c.now ≤ d.now ∧ ∀ reply, c.reply = some reply → reply.time ≤ d.now

theorem InOrder.of_mem (h : InOrder demands)
    (hx : issuer.serveAll read none demands = before ++ x :: after) {z : Served} (hz : z ∈ before) :
    z.demand.now ≤ x.demand.now ∧
      ∀ reply, z.demand.reply = some reply → reply.time ≤ x.demand.now := by
  rw [← map_demand_serveAll issuer read none demands, hx, InOrder, List.map_append] at h
  exact (List.pairwise_append.1 h).2.2 _ (List.mem_map_of_mem hz) _ List.mem_cons_self

/-- The token of a call that succeeds is that of the last grant, which the call brings itself or which
still allows its use. -/
theorem text_of_serveAll (horder : InOrder demands)
    (hx : issuer.serveAll read none demands = before ++ x :: after) {text : String}
    (hok : x.result = some (.ok text)) :
    ∃ g time, latest (before ++ [x]) = some (g, time) ∧ g.token = some text ∧
      (x.grant? = some (g, time) ∨ (x.requests = [] ∧ 60 < g.expiresInSecs.getD 0 ∧
        (x.demand.now : Int) <
          time + 1000 * max 0 (min (g.expiresInSecs.getD 0 : Int) 86400 - 60))) := by
  have hserves := serves_of_serveAll hx
  rw [Option.or_none] at hserves
  generalize hd : x.demand = d at hserves
  cases hserves with
  | @reused t hkept hfresh =>
    obtain ⟨⟨g, time⟩, hlast, rfl⟩ := Option.map_eq_some_iff.1 hkept
    obtain ⟨z, hz, reply, hreply, hgrant⟩ := exists_of_latest hlast
    obtain ⟨s, hs⟩ := exists_token_of_grantOf? hgrant
    obtain ⟨_, _, rfl, -, -⟩ := grantOf?_eq_some_iff.1 hgrant
    have htime : time ≤ d.now := hd ▸ (horder.of_mem hx hz).2 _ hreply
    have hlife := lifetimeSecs_eq (g.expiresInSecs.getD 0)
    simp only [tokenFrom, Token.ofGrant] at hfresh
    refine ⟨g, time, by rw [latest_snoc]; exact hlast, ?_, .inr ⟨rfl, ?_, ?_⟩⟩
    · simpa [tokenFrom, Token.ofGrant, hs] using hok
    · omega
    · rw [← hlife]
      omega
  | unmade => cases hok
  | unanswered => cases hok
  | @granted r reply g time hstale ha hr hg =>
    obtain ⟨s, hs⟩ := exists_token_of_grantOf? hg
    have hgrant : Served.grant? ⟨d, (latest before).map tokenFrom, [r],
        some (.ok (g.token.getD "")), some (Token.ofGrant g time)⟩ = some (g, time) := by
      simp [Served.grant?, hr, hg]
    refine ⟨g, time, by rw [latest_snoc, hgrant]; rfl, ?_, .inl hgrant⟩
    simpa [hs] using hok
  | failed => cases hok

/-- After a call that fails, the next one finds the same token kept, and asks again if it can. -/
theorem asks_after_error (horder : InOrder demands) {y : Served}
    (hx : issuer.serveAll read none demands = before ++ x :: y :: after) {f : Failure}
    (hf : x.result = some (.error f)) :
    y.kept = x.kept ∧ (y.requests ≠ [] ↔ issuer.CanAsk read) := by
  have hserves := serves_of_serveAll hx
  have hy : issuer.serveAll read none demands = (before ++ [x]) ++ y :: after := by
    rw [hx, List.append_assoc, List.singleton_append]
  have hnext := serves_of_serveAll hy
  rw [Option.or_none] at hserves hnext
  rw [latest_snoc, (hserves.of_error hf).1, Option.none_or] at hnext
  refine ⟨hnext.kept_eq.trans hserves.kept_eq.symm, ?_⟩
  rw [hnext.requests_ne_nil_iff]
  refine and_iff_right fun t ht => ?_
  have hlapsed := (hserves.error_iff.1 ⟨f, hf⟩).1 t ht
  have hnow := (horder.of_mem hy (List.mem_append_right before (List.mem_singleton_self x))).1
  omega

/-- A grant as the server writes it. -/
def grantBody (text secs : String) : List UInt8 :=
  Text.Utf8.encode ("\x7b\"access_token\":\"" ++ text ++ "\",\"expires_in\":" ++ secs ++ "\x7d")

/-- A grant is used to its last moment; then the server is down for a while. -/
def shortGrant : List Demand :=
  [⟨0, some ⟨.answered 200 (grantBody "A" "90"), 500⟩⟩, ⟨30499, none⟩,
    ⟨30500, some ⟨.answered 503 [], 30600⟩⟩, ⟨31000, none⟩]

/-- The metadata server of the machine. -/
def machineServer : TokenIssuer := .metadata "http://h/token"

/-- An account whose key cannot sign. -/
def keylessAccount : TokenIssuer := .account (.serviceAccount "a@b" none [48, 0] "http://h/token")

end LogRelay.PubSub
