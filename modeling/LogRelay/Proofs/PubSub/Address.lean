import LogRelay.Proofs.SubscriptionPath
import LogRelay.PubSub.Start

/-!
The addresses of subscriptions. A text is a path in one way at most, slashes at the end of an endpoint
make no difference, and from an address the path, the operation and the endpoint up to those slashes
can be told, so no two subscriptions share one.
-/

namespace LogRelay

namespace SubscriptionPath

variable {s endpoint endpoint' : String} {p q : SubscriptionPath}

/-! ### Addresses -/

/-- Slashes at the end of an endpoint are left out, however many there are. -/
theorem trimEndpoint_append {slashes : String} (h : ∀ c ∈ slashes.toList, c = '/') :
    trimEndpoint (endpoint ++ slashes) = trimEndpoint endpoint := by
  have hall : ∀ c ∈ slashes.toList.reverse, decide (c = '/') = true := by simpa using h
  rw [trimEndpoint, trimEndpoint, String.toList_append, List.reverse_append,
    List.dropWhile_append_of_pos hall]

/-- An address of a subscription, with its last two parts set apart. -/
theorem toList_baseUrl (endpoint : String) (p : SubscriptionPath) : (p.baseUrl endpoint).toList =
    (trimEndpoint endpoint).toList ++ "/v1/projects".toList ++
      '/' :: (p.project.toList ++ "/subscriptions".toList) ++ '/' :: p.name.toList := by
  simp [baseUrl, render, String.toList_append]

/-- Neither part holds a slash, so the address falls into them in one way. -/
theorem baseUrl_inj (hp : p.IsProper) (hq : q.IsProper)
    (h : p.baseUrl endpoint = q.baseUrl endpoint') :
    trimEndpoint endpoint = trimEndpoint endpoint' ∧ p = q := by
  have hchars := congrArg String.toList h
  rw [toList_baseUrl, toList_baseUrl] at hchars
  obtain ⟨hfront, hname⟩ := Text.append_sep_inj hp.slash_name hq.slash_name hchars
  have hsplit : ∀ (front : List Char) (r : SubscriptionPath),
      front ++ '/' :: (r.project.toList ++ "/subscriptions".toList) =
        (front ++ '/' :: r.project.toList) ++ "/subscriptions".toList := by
    simp
  rw [hsplit, hsplit] at hfront
  obtain ⟨hendpoint, hproject⟩ :=
    Text.append_sep_inj hp.slash_project hq.slash_project (List.append_cancel_right hfront)
  refine ⟨String.toList_inj.1 (List.append_cancel_right hendpoint), ?_⟩
  cases p
  cases q
  rw [mk.injEq]
  exact ⟨String.toList_inj.1 hproject, String.toList_inj.1 hname⟩

theorem pullUrl_inj (hp : p.IsProper) (hq : q.IsProper)
    (h : p.pullUrl endpoint = q.pullUrl endpoint') : p = q :=
  (baseUrl_inj hp hq ((String.append_left_inj _).1 h)).2

theorem acknowledgeUrl_inj (hp : p.IsProper) (hq : q.IsProper)
    (h : p.acknowledgeUrl endpoint = q.acknowledgeUrl endpoint') : p = q :=
  (baseUrl_inj hp hq ((String.append_left_inj _).1 h)).2

/-- The two operations end differently, whatever stands before them. -/
theorem pullUrl_ne_acknowledgeUrl (endpoint endpoint' : String) (p q : SubscriptionPath) :
    p.pullUrl endpoint ≠ q.acknowledgeUrl endpoint' := by
  intro h
  have hlast := congrArg (fun url => url.toList.getLast?) h
  simp [pullUrl, acknowledgeUrl, String.toList_append, List.getLast?_append] at hlast

end SubscriptionPath

namespace PubSub

open SubscriptionPath

variable {access : Access} {files : Files} {server : Server} {subscription text : String}

/-- Only a text that is no path is rejected for its form, and the error holds the text. -/
theorem Access.client_eq_invalidSubscription_iff :
    access.client files server subscription = .error (.invalidSubscription text) ↔
      parse? subscription = none ∧ text = subscription := by
  have hissuer : access.issuer files server ≠ .error (.invalidSubscription text) := by
    unfold Access.issuer
    split
    · nofun
    · split
      · nofun
      · split <;> nofun
  rw [Access.client]
  cases parse? subscription with
  | none => simp [eq_comm]
  | some path =>
    simp only [reduceCtorEq, false_and, iff_false]
    cases hi : access.issuer files server with
    | error cause =>
      rintro ⟨⟩
      exact hissuer hi
    | ok issuer => nofun

/-- A text is read as a path exactly if it is `projects/PROJECT/subscriptions/NAME` with both parts there
and free of slashes; it is then the text of that path, and any other is returned in the error. Slashes
at the end of an endpoint do not change a client, two clients with one address are of one path, and
no address serves both operations. -/
theorem paths_have_addresses_of_their_own :
    (∀ s p, parse? s = some p ↔
      s = "projects/" ++ p.project ++ "/subscriptions/" ++ p.name ∧ p.project ≠ "" ∧ p.name ≠ "" ∧
        '/' ∉ p.project.toList ∧ '/' ∉ p.name.toList) ∧
    (∀ s p, parse? s = some p → p.render = s ∧ parse? p.render = some p) ∧
    (∀ (access : Access) files server s text,
      access.client files server s = .error (.invalidSubscription text) ↔
        parse? s = none ∧ text = s) ∧
    (∀ endpoint slashes p n issuer, (∀ c ∈ slashes.toList, c = '/') →
      Client.make (endpoint ++ slashes) p n issuer = Client.make endpoint p n issuer) ∧
    ∀ s s' p q endpoint endpoint' n n' issuer issuer', parse? s = some p → parse? s' = some q →
      ((Client.make endpoint p n issuer).pullUrl = (Client.make endpoint' q n' issuer').pullUrl →
        p = q) ∧
      ((Client.make endpoint p n issuer).acknowledgeUrl =
        (Client.make endpoint' q n' issuer').acknowledgeUrl → p = q) ∧
      (Client.make endpoint p n issuer).pullUrl ≠
        (Client.make endpoint' q n' issuer').acknowledgeUrl := by
  refine ⟨fun s p => ?_, fun s p hp => ?_, fun access files server s text =>
    Access.client_eq_invalidSubscription_iff, fun endpoint slashes p n issuer hslashes => ?_, ?_⟩
  · rw [parse?_eq_some_iff]
    exact and_congr_right fun _ => ⟨fun ⟨hp, hn, hp', hn'⟩ => ⟨hp, hn, hp', hn'⟩,
      fun ⟨hp, hn, hp', hn'⟩ => ⟨hp, hn, hp', hn'⟩⟩
  · have hrender : p.render = s := (parse?_eq_some_iff.1 hp).1.symm
    rw [hrender]
    exact ⟨rfl, hp⟩
  · simp only [Client.make, pullUrl, acknowledgeUrl, baseUrl, trimEndpoint_append hslashes]
  · intro s s' p q endpoint endpoint' n n' issuer issuer' hp hq
    have hp' := (parse?_eq_some_iff.1 hp).2
    have hq' := (parse?_eq_some_iff.1 hq).2
    exact ⟨pullUrl_inj hp' hq', acknowledgeUrl_inj hp' hq', pullUrl_ne_acknowledgeUrl _ _ p q⟩

/-- Of two subscriptions of one project, one has a name that ends as an address to pull from does. -/
theorem paths_have_addresses_of_their_own_namedPull :
    parse? "projects/shop.org:eu/subscriptions/logs:pull" = some ⟨"shop.org:eu", "logs:pull"⟩ ∧
    parse? "projects/shop.org:eu/subscriptions/logs" = some ⟨"shop.org:eu", "logs"⟩ ∧
    Client.make ("http://localhost:8085" ++ "//") ⟨"shop.org:eu", "logs"⟩ 10 none =
      Client.make "http://localhost:8085" ⟨"shop.org:eu", "logs"⟩ 10 none ∧
    (Client.make "http://localhost:8085" ⟨"shop.org:eu", "logs"⟩ 10 none).pullUrl ≠
      (Client.make "http://localhost:8085" ⟨"shop.org:eu", "logs:pull"⟩ 10 none).pullUrl ∧
    (Client.make "http://localhost:8085" ⟨"shop.org:eu", "logs:pull"⟩ 10 none).pullUrl ≠
      (Client.make "http://localhost:8085" ⟨"shop.org:eu", "logs"⟩ 10 none).acknowledgeUrl := by
  obtain ⟨hparse, -, -, hslashes, happart⟩ := paths_have_addresses_of_their_own
  have hlong := (hparse "projects/shop.org:eu/subscriptions/logs:pull"
    ⟨"shop.org:eu", "logs:pull"⟩).2 (by decide)
  have hshort := (hparse "projects/shop.org:eu/subscriptions/logs" ⟨"shop.org:eu", "logs"⟩).2
    (by decide)
  refine ⟨hlong, hshort, hslashes _ "//" _ 10 none (by simp), fun heq => ?_, ?_⟩
  · exact absurd ((happart _ _ _ _ _ _ 10 10 none none hshort hlong).1 heq) (by decide)
  · exact (happart _ _ _ _ _ _ 10 10 none none hlong hshort).2.2

end PubSub

end LogRelay
