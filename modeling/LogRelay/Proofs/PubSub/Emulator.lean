import LogRelay.Proofs.Http.Url
import LogRelay.Proofs.PubSub.Requests
import LogRelay.Proofs.Startup
import LogRelay.PubSub.Start

/-!
Who is talked to without an account. At an emulator no token is ever asked for and no request is
authorised, and the setup does not look at credentials; anywhere else, at an endpoint of the settings
too, every request to the service carries a token.
-/

namespace LogRelay.PubSub

open Http (Exchanged)

namespace Access

variable {settings : Settings} {emulatorHost : Option String} {text : String} {access : Access}
  {files : Files} {server : Server} {subscription key : String} {client : Client} {strict : Bool}
  {servers : List Server}

/-- A host that is not blank is where the service is, and nothing else is. -/
theorem ofSettings_emulator (settings : Settings) (hhost : emulatorHost = some text)
    (hblank : Text.trim text ≠ "") :
    ofSettings settings emulatorHost = ⟨"http://" ++ Text.trim text, settings.maxMessages, true⟩ := by
  simp [ofSettings, Server.trimmed?, hhost, Option.filter_some, hblank]

theorem ofSettings_account (h : ∀ text, emulatorHost = some text → Text.trim text = "") :
    ofSettings settings emulatorHost =
      ⟨settings.endpoint.getD defaultEndpoint, settings.maxMessages, false⟩ := by
  have hnone : Server.trimmed? emulatorHost = none := by
    cases emulatorHost with
    | none => rfl
    | some text => simp [Server.trimmed?, h text rfl]
  simp [ofSettings, hnone]

/-- Every client is one of a subscription at the endpoint, with the issuer for its server. -/
theorem client_eq_ok_iff : access.client files server subscription = .ok client ↔
    ∃ path issuer, SubscriptionPath.parse? subscription = some path ∧
      access.issuer files server = .ok issuer ∧
      client = .make access.endpoint path access.maxMessages issuer := by
  rw [Access.client]
  cases SubscriptionPath.parse? subscription with
  | none => simp
  | some path =>
    cases access.issuer files server with
    | error e => simp [Except.map]
    | ok issuer => simp [Except.map, eq_comm]

theorem issuer_anonymous (h : access.anonymous = true) : access.issuer files server = .ok none := by
  rw [issuer, if_pos h]

theorem issuer_account (h : access.anonymous = false) {issuer : Option TokenIssuer}
    (hissuer : access.issuer files server = .ok issuer) : ∃ i, issuer = some i := by
  rw [Access.issuer, if_neg (by simp [h])] at hissuer
  split at hissuer
  · cases hissuer
    exact ⟨_, rfl⟩
  · split at hissuer
    · cases hissuer
      exact ⟨_, rfl⟩
    · cases hissuer

/-- What is started for a server is the client for its subscription. -/
theorem client_of_mem_started
    (h : (server, key, client) ∈ (Startup.run strict servers [access.provider files] ()).started) :
    access.client files server key = .ok client := by
  obtain ⟨-, hkey, mid, s', hstart⟩ := Startup.start_of_mem_started h
  have hsubscription : server.subscription? = some key := hkey
  simp only [provider, hsubscription, Option.getD_some, Prod.mk.injEq] at hstart
  exact hstart.1

end Access

/-! ### Requests without an account -/

/-- A request that no token authorises is authorised by the account of its address at most. -/
theorem authorization_not_mem_headers {r : Http.Request} (hbearer : r.bearer = none)
    (haccount : r.url.account = none) (value : String) :
    ("authorization", value) ∉ r.headers := by
  rw [Client.authorization_mem_headers_iff, Http.Request.basic?, Http.Request.bearerValue?, haccount,
    hbearer]
  rintro (h | h)
  · cases h
  · cases h

/-- The slashes at the end of an `http` endpoint do not reach its scheme. -/
theorem exists_toList_trimEndpoint (host : String) :
    ∃ rest, (SubscriptionPath.trimEndpoint ("http://" ++ host)).toList =
      'h' :: ("ttp:".toList ++ rest) ∧ ('@' ∈ rest → '@' ∈ host.toList) := by
  refine ⟨(("//".toList ++ host.toList).reverse.dropWhile (· = '/')).reverse, ?_, fun hat => ?_⟩
  · have hchars : ("http://" ++ host).toList.reverse =
        ("//".toList ++ host.toList).reverse ++ "http:".toList.reverse := by
      rw [String.toList_append, ← List.reverse_append, ← List.append_assoc]
      rfl
    rw [SubscriptionPath.trimEndpoint, String.toList_ofList, hchars, List.dropWhile_append]
    split
    · rename_i hempty
      rw [List.isEmpty_iff.1 hempty]
      rfl
    · rw [List.reverse_append, List.reverse_reverse]
      rfl
  · have hmem := (List.dropWhile_sublist _).subset (List.mem_reverse.1 hat)
    rcases List.mem_append.1 (List.mem_reverse.1 hmem) with hslash | hhost
    · exact absurd hslash (by decide)
    · exact hhost

namespace Client

variable {σ : Type} {client : Client} {read : Http.Url.Reader}
  {web : Http.Request → σ → Option Http.Reply × σ} {kept : Option Token} {s : σ}
  {turns : List (Nat × Operation)} {v : Visit} {x : Exchanged} {op : Operation} {host : String}
  {path : SubscriptionPath} {maxMessages : Nat} {r : Http.Request}

/-- A client without an issuer makes its own requests only, and none is authorised. -/
theorem asks?_of_anonymous (hc : client.issuer = none)
    (hv : v ∈ client.visits read web kept s turns) : v.exchanges.length ≤ 1 ∧
      ∀ x ∈ v.exchanges, client.asks? read v.operation none = some x.request := by
  obtain ⟨tokens, service, hsplit, hcomes⟩ := comes_of_mem_visits hv
  have hnil : tokens = [] := by
    refine Classical.byContradiction fun hne => ?_
    obtain ⟨issuer, hissuer, -⟩ := hcomes.tokens_ne_nil_iff.1 hne
    rw [hc] at hissuer
    cases hissuer
  subst hnil
  rw [hsplit, List.nil_append]
  refine ⟨hcomes.length_le.2, fun x hx => ?_⟩
  obtain ⟨bearer, next, hauth, hasks⟩ := hcomes.asks?_of_mem_service hx
  rwa [hauth.bearer_eq_none_iff.2 hc] at hasks

/-- A client with an issuer asks it for a token, or sends one. -/
theorem bearer_of_account {issuer : TokenIssuer} (hc : client.issuer = some issuer)
    (hv : v ∈ client.visits read web kept s turns) (hx : x ∈ v.exchanges) :
    issuer.asks? read v.now = some x.request ∨
      ∃ token, ("authorization", "Bearer " ++ token) ∈ x.request.headers := by
  obtain ⟨tokens, service, hsplit, hcomes⟩ := comes_of_mem_visits hv
  rw [hsplit] at hx
  rcases List.mem_append.1 hx with hx | hx
  · obtain ⟨i, hi, hasks⟩ := hcomes.asks?_of_mem_tokens hx
    obtain rfl := Option.some.inj (hc.symm.trans hi)
    exact .inl hasks
  · obtain ⟨bearer, next, hauth, hasks⟩ := hcomes.asks?_of_mem_service hx
    obtain ⟨token, rfl⟩ : ∃ token, bearer = some token := by
      refine Option.ne_none_iff_exists'.1 fun hnone => ?_
      rw [hauth.bearer_eq_none_iff, hc] at hnone
      cases hnone
    exact .inr ⟨token, mem_headers_iff.2 (bearer_of_asks? hasks)⟩

/-- An emulator whose host holds no `@` has no account in its address, whatever the subscription. -/
theorem account_of_emulator (hread : read.AccountsPrecedePath) (hat : '@' ∉ host.toList)
    (h : (make ("http://" ++ host) path maxMessages none).asks? read op none = some r) :
    r.url.account = none := by
  obtain ⟨rest, hrest, hmem⟩ := exists_toList_trimEndpoint host
  have hparse := (isRequest_of_asks? h).url
  have hchars : SubscriptionPath.trimEndpoint ("http://" ++ host) ++ "/v1/" ++ path.render ++ verb op =
      "http:" ++ String.ofList (rest ++ "/v1".toList) ++ "/" ++ (path.render ++ verb op) := by
    rw [← String.toList_inj]
    simp [String.toList_append, hrest]
  rw [hchars] at hparse
  refine hread _ _ _ hparse ?_ ?_
  · rw [String.toList_ofList]
    exact ⟨'1', List.mem_append_right rest (by decide), by decide⟩
  · rw [String.toList_ofList]
    rintro h
    rcases List.mem_append.1 h with h | h
    · exact hat (hmem h)
    · exact absurd h (by decide)

end Client

/-- Over every setup and every sequence of calls of a client that it starts. With a host for an
emulator that is not blank, starting does not look at credentials, a call makes no request but its own,
and none is authorised unless the host itself names an account; for this, addresses must be read with
the account before the path. Without one every client has an
issuer of tokens, whatever the endpoint, and each of its requests asks for a token or carries one. -/
theorem unauthorised_exactly_at_an_emulator (read : Http.Url.Reader) (settings : Settings)
    (emulatorHost : Option String) :
    (∀ text, emulatorHost = some text → Text.trim text ≠ "" →
      (∀ (σ : Type) (files files' : Files) (server : Server) (credentialsFile : Option String) (s : σ),
        ((Access.ofSettings settings emulatorHost).provider files).start
            { server with credentialsFile } s =
          ((Access.ofSettings settings emulatorHost).provider files').start server s) ∧
      ∀ strict servers files server key client,
        (server, key, client) ∈ (Startup.run strict servers
          [(Access.ofSettings settings emulatorHost).provider files] ()).started →
        ∀ (σ : Type) (web : Http.Request → σ → Option Http.Reply × σ) (kept : Option Token) (s : σ)
          (turns : List (Nat × Operation)), ∀ v ∈ client.visits read web kept s turns,
          v.exchanges.length ≤ 1 ∧ ∀ x ∈ v.exchanges,
            client.asks? read v.operation none = some x.request ∧
            (∀ token, ("authorization", "Bearer " ++ token) ∉ x.request.headers) ∧
            (read.AccountsPrecedePath → '@' ∉ text.toList →
              ∀ value, ("authorization", value) ∉ x.request.headers)) ∧
    ((∀ text, emulatorHost = some text → Text.trim text = "") →
      ∀ strict servers files server key client,
        (server, key, client) ∈ (Startup.run strict servers
          [(Access.ofSettings settings emulatorHost).provider files] ()).started →
        ∃ issuer, client.issuer = some issuer ∧
          ∀ (σ : Type) (web : Http.Request → σ → Option Http.Reply × σ) (kept : Option Token) (s : σ)
            (turns : List (Nat × Operation)), ∀ v ∈ client.visits read web kept s turns,
            ∀ x ∈ v.exchanges, issuer.asks? read v.now = some x.request ∨
              ∃ token, ("authorization", "Bearer " ++ token) ∈ x.request.headers) := by
  refine ⟨fun text hhost hblank => ⟨?_, ?_⟩, ?_⟩
  · intro σ files files' server credentialsFile s
    have haccess := Access.ofSettings_emulator settings hhost hblank
    simp only [Access.provider, Access.client, Server.subscription?]
    rw [Access.issuer_anonymous (by rw [haccess]), Access.issuer_anonymous (by rw [haccess])]
  · intro strict servers files server key client hstarted σ web kept s turns v hv
    obtain ⟨path, issuer, -, hissuer, rfl⟩ :=
      Access.client_eq_ok_iff.1 (Access.client_of_mem_started hstarted)
    have haccess := Access.ofSettings_emulator settings hhost hblank
    rw [haccess] at hissuer hv ⊢
    rw [Access.issuer_anonymous rfl] at hissuer
    cases hissuer
    obtain ⟨hlength, hasks⟩ := Client.asks?_of_anonymous rfl hv
    refine ⟨hlength, fun x hx => ⟨hasks x hx, fun token => ?_, fun hread hat value => ?_⟩⟩
    · rw [Client.mem_headers_iff, Client.bearer_of_asks? (hasks x hx)]
      intro hnone
      cases hnone
    · refine authorization_not_mem_headers (Client.bearer_of_asks? (hasks x hx))
        (Client.account_of_emulator hread (fun hmem => hat ?_) (hasks x hx)) value
      rw [Text.trim, String.toList_ofList] at hmem
      exact Text.mem_of_mem_trimWhile hmem
  · intro hblank strict servers files server key client hstarted
    obtain ⟨path, issuer, -, hissuer, rfl⟩ :=
      Access.client_eq_ok_iff.1 (Access.client_of_mem_started hstarted)
    obtain ⟨i, rfl⟩ := Access.issuer_account (by rw [Access.ofSettings_account hblank]) hissuer
    refine ⟨i, rfl, fun σ web kept s turns v hv x hx => ?_⟩
    exact Client.bearer_of_account rfl hv hx

/-- A machine on which nothing is stored. -/
def noFiles : Files := .only [] []

/-- A server with a subscription. -/
def subscribedServer : Server := { subscription := some "projects/p/subscriptions/s" }

/-- The client of its subscription at an emulator. -/
def emulatorClient : Client := .make "http://localhost:8085" ⟨"p", "s"⟩ 100 none

theorem unauthorised_exactly_at_an_emulator_localhost :
    (∃ v x, emulatorClient.visits Http.Url.parse scripted none [⟨.timedOut, 90000⟩] [(0, .pull)] = [v] ∧
      v.exchanges = [x] ∧ ∀ value, ("authorization", value) ∉ x.request.headers) ∧
    ∃ client issuer, (subscribedServer, "projects/p/subscriptions/s", client) ∈
        (Startup.run false [subscribedServer]
          [(Access.ofSettings {} (some " ")).provider noFiles] ()).started ∧
      client.issuer = some issuer := by
  refine ⟨?_, ?_⟩
  · obtain ⟨-, hcalls⟩ := (unauthorised_exactly_at_an_emulator Http.Url.parse {} (some " localhost:8085")).1
      " localhost:8085" rfl (by decide +kernel)
    obtain ⟨x, ending, hvisits⟩ : ∃ x ending,
        emulatorClient.visits Http.Url.parse scripted none [⟨.timedOut, 90000⟩] [(0, .pull)] =
          [⟨.pull, 0, none, [x], ending⟩] := ⟨_, _, rfl⟩
    have hstarted : (subscribedServer, "projects/p/subscriptions/s", emulatorClient) ∈
        (Startup.run false [subscribedServer]
          [(Access.ofSettings {} (some " localhost:8085")).provider noFiles] ()).started := by
      decide +kernel
    have hmem : (⟨.pull, 0, none, [x], ending⟩ : Visit) ∈
        emulatorClient.visits Http.Url.parse scripted none [⟨.timedOut, 90000⟩] [(0, .pull)] := by
      rw [hvisits]
      exact List.mem_singleton_self _
    obtain ⟨-, hx⟩ := hcalls _ _ _ _ _ _ hstarted _ _ _ _ _ _ hmem
    obtain ⟨-, -, hnone⟩ := hx x (List.mem_singleton_self x)
    exact ⟨_, x, hvisits, rfl, hnone Http.Url.accountsPrecedePath_parse (by decide)⟩
  · obtain ⟨client, hstarted⟩ : ∃ client, (subscribedServer, "projects/p/subscriptions/s", client) ∈
        (Startup.run false [subscribedServer]
          [(Access.ofSettings {} (some " ")).provider noFiles] ()).started :=
      ⟨.make Access.defaultEndpoint ⟨"p", "s"⟩ 100 (some (.metadata TokenIssuer.metadataAddress)),
        by decide +kernel⟩
    obtain ⟨issuer, hissuer, -⟩ := (unauthorised_exactly_at_an_emulator Http.Url.parse {} (some " ")).2
      (by rintro _ ⟨⟩; decide +kernel) _ _ _ _ _ _ hstarted
    exact ⟨client, issuer, hstarted, hissuer⟩

/-- The client of the same subscription at an endpoint of the settings. -/
def configuredClient : Client :=
  .make "http://localhost:8085" ⟨"p", "s"⟩ 100 (some (.metadata TokenIssuer.metadataAddress))

/-- A client at an endpoint of the settings asks for a token and sends it. -/
theorem configured_endpoint_is_authorised :
    ¬ ∀ (settings : Settings) (emulatorHost : Option String),
      (∃ text, emulatorHost = some text ∧ Text.trim text ≠ "") ∨ settings.endpoint ≠ none →
      ∀ strict servers files server key client,
        (server, key, client) ∈ (Startup.run strict servers
          [(Access.ofSettings settings emulatorHost).provider files] ()).started →
        ∀ (replies : List Http.Reply) (turns : List (Nat × Operation)),
          ∀ v ∈ client.visits Http.Url.parse scripted none replies turns, ∀ x ∈ v.exchanges,
            ∀ value, ("authorization", value) ∉ x.request.headers := by
  intro h
  have hstarted : (subscribedServer, "projects/p/subscriptions/s", configuredClient) ∈
      (Startup.run false [subscribedServer] [(Access.ofSettings
        { endpoint := some "http://localhost:8085" } none).provider noFiles] ()).started := by
    decide +kernel
  have hnone := h { endpoint := some "http://localhost:8085" } none (.inr nofun) _ _ _ _ _ _ hstarted
    [⟨.answered 200 (grantBody "A" "90"), 500⟩, ⟨.timedOut, 90000⟩] [(0, .pull)]
  have hheaders : ("authorization", "Bearer A") ∈
      (configuredClient.visits Http.Url.parse scripted none
        [⟨.answered 200 (grantBody "A" "90"), 500⟩, ⟨.timedOut, 90000⟩] [(0, .pull)]).flatMap
          fun v => v.exchanges.flatMap (·.request.headers) := by
    decide +kernel
  obtain ⟨v, hv, hheaders⟩ := List.mem_flatMap.1 hheaders
  obtain ⟨x, hx, hheaders⟩ := List.mem_flatMap.1 hheaders
  exact hnone v hv x hx "Bearer A" hheaders

end LogRelay.PubSub
