import LogRelay.Agent
import LogRelay.Proofs.Pipeline.Run
import LogRelay.Proofs.PubSub.Emulator
import LogRelay.Proofs.SubscriptionPath
import Mathlib.Data.List.Nodup
import Mathlib.Data.Option.Basic

/-!
What comes of starting a subscription. A start that fails leaves nothing running, and one that succeeds
leaves one worker, which pulls and acknowledges under the name that the subscription is known by; so no
two workers share a subscription, however servers spell it.
-/

namespace LogRelay

theorem Credentials.load_eq_ok_iff {files : Files} {path : String} {credentials : Credentials} :
    load files path = .ok credentials ↔
      ∃ contents, files.readText path = .ok contents ∧ parse contents = .ok credentials := by
  rw [load]
  cases files.readText path <;> simp

namespace PubSub.Access

variable {σ : Type} {access : Access} {files : Files} {server : Server} {key : String} {s : σ}
  {client : Client} {issuer : Option TokenIssuer} {make : σ → Except String Unit × σ}

/-! ### One start -/

/-- How the requests for a server are authorised, and what had to be there for it. -/
inductive Authorises (access : Access) (files : Files) (server : Server) :
    Option TokenIssuer → Prop
  | anonymously (h : access.anonymous = true) : Authorises access files server none
  | asMachine (h : access.anonymous = false)
      (hfile : Server.trimmed? server.credentialsFile = none) :
      Authorises access files server (some (.metadata TokenIssuer.metadataAddress))
  | asAccount {path contents : String} {credentials : Credentials} (h : access.anonymous = false)
      (hfile : Server.trimmed? server.credentialsFile = some path)
      (hread : files.readText path = .ok contents)
      (hparse : Credentials.parse contents = .ok credentials) :
      Authorises access files server (some (.account credentials))

theorem issuer_eq_ok_iff :
    access.issuer files server = .ok issuer ↔ Authorises access files server issuer := by
  constructor
  · intro h
    rw [Access.issuer] at h
    split at h
    · rename_i hanonymous
      cases h
      exact .anonymously hanonymous
    · rename_i hanonymous
      have haccount := Bool.eq_false_iff.2 hanonymous
      split at h
      · rename_i hfile
        cases h
        exact .asMachine haccount hfile
      · rename_i path hfile
        split at h
        · rename_i credentials hload
          cases h
          obtain ⟨contents, hread, hparse⟩ := Credentials.load_eq_ok_iff.1 hload
          exact .asAccount haccount hfile hread hparse
        · cases h
  · intro h
    cases h with
    | anonymously h => exact issuer_anonymous h
    | asMachine h hfile => simp [Access.issuer, h, hfile]
    | asAccount h hfile hread hparse =>
      have hload := Credentials.load_eq_ok_iff.2 ⟨_, hread, hparse⟩
      simp [Access.issuer, h, hfile, hload]

/-- A start succeeds exactly if there is a client for the subscription, and then a connection. -/
theorem start_eq_ok_iff (hkey : server.subscription? = some key) :
    ((access.providerWith files make).start server s).1 = .ok client ↔
      access.client files server key = .ok client ∧ (make s).1 = .ok () := by
  simp only [providerWith, hkey, Option.getD_some]
  cases access.client files server key with
  | error e => simp
  | ok client' =>
    obtain ⟨made, s'⟩ := make s
    cases made <;> simp

/-- The client that a name leads to: it is made of the name as it is. -/
def named (access : Access) (key : String) (path : SubscriptionPath) (issuer : Option TokenIssuer) :
    Client where
  subscription := path
  pullUrl := SubscriptionPath.trimEndpoint access.endpoint ++ "/v1/" ++ key ++ ":pull"
  acknowledgeUrl := SubscriptionPath.trimEndpoint access.endpoint ++ "/v1/" ++ key ++ ":acknowledge"
  maxMessages := max access.maxMessages 1
  issuer := issuer

theorem client_eq_ok_iff_named : access.client files server key = .ok client ↔
    ∃ path issuer, key = path.render ∧ path.IsProper ∧ Authorises access files server issuer ∧
      client = access.named key path issuer := by
  rw [client_eq_ok_iff]
  constructor
  · rintro ⟨path, issuer, hpath, hissuer, rfl⟩
    obtain ⟨rfl, hproper⟩ := SubscriptionPath.parse?_eq_some_iff.1 hpath
    exact ⟨path, issuer, rfl, hproper, issuer_eq_ok_iff.1 hissuer, rfl⟩
  · rintro ⟨path, issuer, rfl, hproper, hauth, rfl⟩
    exact ⟨path, issuer, SubscriptionPath.parse?_eq_some_iff.2 ⟨rfl, hproper⟩,
      issuer_eq_ok_iff.2 hauth, rfl⟩

theorem render_of_client (h : access.client files server key = .ok client) :
    client.subscription.render = key := by
  obtain ⟨path, issuer, rfl, -, -, rfl⟩ := client_eq_ok_iff_named.1 h
  rfl

theorem pullUrl_of_client (h : access.client files server key = .ok client) :
    client.pullUrl = SubscriptionPath.trimEndpoint access.endpoint ++ "/v1/" ++ key ++ ":pull" := by
  obtain ⟨path, issuer, -, -, -, rfl⟩ := client_eq_ok_iff_named.1 h
  rfl

/-! ### All starts -/

variable {strict : Bool} {servers : List Server} {seed : σ} {u : Startup Client}

theorem client_of_started (hrun : Startup.run strict servers [access.providerWith files make] seed = u)
    (h : (server, key, client) ∈ u.started) :
    server.subscription? = some key ∧ access.client files server key = .ok client := by
  subst hrun
  obtain ⟨-, hkey, mid, s', hstart⟩ := Startup.start_of_mem_started h
  have hok : ((access.providerWith files make).start server mid).1 = .ok client := by rw [hstart]
  exact ⟨hkey, ((start_eq_ok_iff hkey).1 hok).1⟩

theorem keys_eq (u : Startup Client) :
    u.keys = u.attempts.filterMap fun a => a.started?.map fun _ => a.key := by
  simp [Startup.keys, Startup.started, List.map_filterMap, Function.comp_def]

/-- The name of a subscription is what the server says without blanks around it. -/
theorem trim_of_subscription? (h : server.subscription? = some key) :
    server.subscription.map Text.trim = some key :=
  (Option.filter_eq_some_iff.1 h).1

/-- The address that messages are pulled from tells the subscription. -/
theorem pull_inj (endpoint : String) : Function.Injective fun key : String =>
    SubscriptionPath.trimEndpoint endpoint ++ "/v1/" ++ key ++ ":pull" := by
  intro key key' h
  have hchars := congrArg String.toList h
  simp only [String.toList_append, List.append_cancel_left_eq, List.append_cancel_right_eq] at hchars
  exact String.toList_inj.1 hchars

/-- Over every endpoint, every content of the files and every outcome of making an HTTP client. A start
succeeds exactly if the name is that of a path, the requests can be authorised, which takes a
credentials file that can be read and parsed if one is named, and there is an HTTP client; what is
started has the name and addresses made of it. Without authorisation no file is looked at. A setup
leaves one worker for each start that succeeded and none for any other, each under the name of its
subscription, no two of them under one name or at one address, and no two for servers whose
subscriptions differ in blanks around them only. -/
theorem starts_one_worker_or_none (access : Access) (files : Files)
    (make : σ → Except String Unit × σ) :
    (∀ server key s client, server.subscription? = some key →
      (((access.providerWith files make).start server s).1 = .ok client ↔
        ∃ path issuer, key = "projects/" ++ path.project ++ "/subscriptions/" ++ path.name ∧
          path.IsProper ∧ Authorises access files server issuer ∧ (make s).1 = .ok () ∧
          client = access.named key path issuer)) ∧
    (access.anonymous = true → ∀ files' server credentialsFile s,
      (access.providerWith files' make).start { server with credentialsFile } s =
        (access.providerWith files make).start server s) ∧
    ∀ (plan : Agent.Plan) seed, Startup.run plan.settings.testRun plan.settings.servers
        [access.providerWith files make] seed = plan.startup →
      plan.workers.map (·.subscription) =
        (plan.startup.attempts.filterMap fun a => a.started?.map fun _ => a.key) ∧
      (plan.workers.map (·.subscription)).Nodup ∧ (plan.clients.map (·.pullUrl)).Nodup ∧
      (plan.startup.started.map fun (server, _, _) => server.subscription.map Text.trim).Nodup ∧
      ∀ now p, plan.pipeline? now = some p → p.liveTasks = 1 + plan.workers.length := by
  refine ⟨fun server key s client hkey => ?_, fun hanonymous files' server credentialsFile s => ?_,
    fun plan seed hrun => ?_⟩
  · rw [start_eq_ok_iff hkey, client_eq_ok_iff_named]
    constructor
    · rintro ⟨⟨path, issuer, hname, hproper, hauth, hclient⟩, hmade⟩
      exact ⟨path, issuer, hname, hproper, hauth, hmade, hclient⟩
    · rintro ⟨path, issuer, hname, hproper, hauth, hmade, hclient⟩
      exact ⟨⟨path, issuer, hname, hproper, hauth, hclient⟩, hmade⟩
  · simp only [providerWith, Access.client, issuer_anonymous hanonymous]
    rfl
  · obtain ⟨settings, u⟩ := plan
    have hstarted : ∀ x ∈ u.started, x.1.subscription? = some x.2.1 ∧
        access.client files x.1 x.2.1 = .ok x.2.2 := fun x hx => client_of_started hrun hx
    have hnodup : u.keys.Nodup := by
      rw [← show Startup.run _ _ _ seed = u from hrun]
      exact Startup.nodup_keys_run _ _ _ _
    have hnames : (Agent.Plan.workers ⟨settings, u⟩).map (·.subscription) = u.keys := by
      simp only [Agent.Plan.workers, Startup.keys, List.map_map]
      exact List.map_congr_left fun x hx => render_of_client (hstarted x hx).2
    have haddresses : (Agent.Plan.clients ⟨settings, u⟩).map (·.pullUrl) = u.keys.map fun key =>
        SubscriptionPath.trimEndpoint access.endpoint ++ "/v1/" ++ key ++ ":pull" := by
      simp only [Agent.Plan.clients, Startup.keys, List.map_map]
      exact List.map_congr_left fun x hx => pullUrl_of_client (hstarted x hx).2
    have hspellings : (u.started.map fun x => x.1.subscription.map Text.trim) =
        u.keys.map some := by
      rw [Startup.keys, List.map_map]
      exact List.map_congr_left fun x hx => trim_of_subscription? (hstarted x hx).1
    refine ⟨hnames.trans (keys_eq u), hnames ▸ hnodup, ?_, ?_, fun now p hp => ?_⟩
    · rw [haddresses]
      exact hnodup.map (pull_inj access.endpoint)
    · rw [hspellings]
      exact hnodup.map (Option.some_injective _)
    · exact Pipeline.liveTasks_make? hp

/-- Three servers with one subscription, spelled in three ways; the first names a file that is not
there. -/
def threeSpellings : Settings where
  servers := [
    { name := "a", subscription := some " projects/p/subscriptions/s"
      credentialsFile := some "key.json" },
    { name := "b", subscription := some "projects/p/subscriptions/s\n" },
    { name := "c", subscription := some "projects/p/subscriptions/s" },
    { name := "d", subscription := some "\tprojects/p/subscriptions/s" }]

/-- Making an HTTP client fails the first time. -/
def secondTry (calls : Nat) : Except String Unit × Nat :=
  (if calls = 0 then .error "no descriptor" else .ok (), calls + 1)

/-- The credentials of a user who authorised the program once. -/
def userCredentials : String :=
  "\x7b\"type\":\"authorized_user\",\"client_id\":\"i\",\"client_secret\":\"x\",\"refresh_token\":\"r\"\x7d"

/-- A machine on which they are stored, far from where the program runs. -/
def withCredentials : Files :=
  .only ["srv"] [("/etc/dbfleet/gcp.json", Text.Utf8.encode userCredentials)]

/-- The plan that comes of them. -/
def threeSpellingsPlan : Agent.Plan where
  settings := threeSpellings
  startup := Startup.run threeSpellings.testRun threeSpellings.servers
    [(Access.ofSettings threeSpellings none).providerWith withCredentials secondTry] 0

theorem readText_withCredentials :
    withCredentials.readText "/etc/dbfleet/gcp.json" = .ok userCredentials := by
  have hread : withCredentials.read "/etc/dbfleet/gcp.json" =
      .ok (Text.Utf8.encode userCredentials) := by decide +kernel
  rw [Files.readText, hread]
  simp only [bind, Except.bind, Text.Utf8.decode?_encode]
  rfl

/-- The credentials file is missing, then there is no HTTP client, and then the subscription is live. A
server whose file is there has the account that it holds; an emulator would have looked at no file. -/
theorem starts_one_worker_or_none_threeSpellings :
    threeSpellingsPlan.startup.attempts.map (fun a => (a.server.name, a.key, a.started?.isSome)) =
        [("a", "projects/p/subscriptions/s", false), ("b", "projects/p/subscriptions/s", false),
          ("c", "projects/p/subscriptions/s", true)] ∧
      threeSpellingsPlan.workers.map (·.subscription) = ["projects/p/subscriptions/s"] ∧
      (∀ now p, threeSpellingsPlan.pipeline? now = some p →
        p.liveTasks = 1 + threeSpellingsPlan.workers.length) ∧
      (((Access.ofSettings threeSpellings none).providerWith withCredentials secondTry).start
        { subscription := some " projects/p/subscriptions/s" } 1).1.toOption.map (·.pullUrl) =
          some "https://pubsub.googleapis.com/v1/projects/p/subscriptions/s:pull" ∧
      (((Access.ofSettings threeSpellings none).providerWith withCredentials secondTry).start
        { subscription := some "projects/p/subscriptions/s"
          credentialsFile := some " /etc/dbfleet/gcp.json" } 1).1.toOption.map (·.issuer) =
          some (some (.account (.authorizedUser "i" "x" "r" Credentials.defaultTokenUri))) ∧
      ((Access.ofSettings threeSpellings (some "localhost")).providerWith withCredentials
          secondTry).start
        { subscription := some " projects/p/subscriptions/s", credentialsFile := some "key.json" } 1 =
      ((Access.ofSettings threeSpellings (some "localhost")).providerWith withCredentials
          secondTry).start { subscription := some " projects/p/subscriptions/s" } 1 := by
  obtain ⟨hstart, -, hplan⟩ :=
    starts_one_worker_or_none (Access.ofSettings threeSpellings none) withCredentials secondTry
  obtain ⟨-, hblind, -⟩ := starts_one_worker_or_none
    (Access.ofSettings threeSpellings (some "localhost")) withCredentials secondTry
  obtain ⟨hnames, -, -, -, htasks⟩ := hplan threeSpellingsPlan 0 rfl
  have hattempts : threeSpellingsPlan.startup.attempts.map
      (fun a => (a.server.name, a.key, a.started?.isSome)) =
        [("a", "projects/p/subscriptions/s", false), ("b", "projects/p/subscriptions/s", false),
          ("c", "projects/p/subscriptions/s", true)] := by decide +kernel
  have hkeys : (threeSpellingsPlan.startup.attempts.filterMap fun a => a.started?.map fun _ => a.key) =
      ["projects/p/subscriptions/s"] := by decide +kernel
  have hproper : SubscriptionPath.IsProper ⟨"p", "s"⟩ := ⟨by decide, by decide, by decide, by decide⟩
  have hclient := (hstart { subscription := some " projects/p/subscriptions/s" }
    "projects/p/subscriptions/s" 1 _ (by decide +kernel)).2
    ⟨⟨"p", "s"⟩, _, rfl, hproper, .asMachine (by decide +kernel) rfl, rfl, rfl⟩
  have haccount := (hstart { subscription := some "projects/p/subscriptions/s"
                             credentialsFile := some " /etc/dbfleet/gcp.json" }
    "projects/p/subscriptions/s" 1 _ (by decide +kernel)).2
    ⟨⟨"p", "s"⟩, some (.account (.authorizedUser "i" "x" "r" Credentials.defaultTokenUri)), rfl, hproper,
      .asAccount (by decide +kernel) (by decide +kernel) readText_withCredentials (by decide +kernel),
      rfl, rfl⟩
  have hfile := hblind (by decide +kernel) withCredentials
    { subscription := some " projects/p/subscriptions/s" } (some "key.json") 1
  refine ⟨hattempts, hnames.trans hkeys, htasks, ?_, ?_, hfile⟩
  · rw [hclient]
    rfl
  · rw [haccount]
    rfl

end PubSub.Access

end LogRelay
