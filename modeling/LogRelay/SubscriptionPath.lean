/-!
Fully qualified names of subscriptions, `projects/PROJECT/subscriptions/NAME`, and the addresses of
their two operations at an endpoint.
-/

namespace LogRelay

/-- A subscription by project and name; neither is empty or holds a slash. -/
structure SubscriptionPath where
  project : String
  name : String
  deriving DecidableEq, Repr

namespace SubscriptionPath

/-- Reads a path; `none` when it has another form. -/
def parse? (s : String) : Option SubscriptionPath :=
  match s.toList.splitOn '/' with
  | [projects, project, subscriptions, name] =>
    if projects = "projects".toList ∧ subscriptions = "subscriptions".toList ∧ project ≠ [] ∧
        name ≠ [] then
      some ⟨String.ofList project, String.ofList name⟩
    else none
  | _ => none

def render (p : SubscriptionPath) : String :=
  "projects/" ++ p.project ++ "/subscriptions/" ++ p.name

/-- An endpoint without slashes at its end. -/
def trimEndpoint (endpoint : String) : String :=
  String.ofList (endpoint.toList.reverse.dropWhile (· = '/')).reverse

def baseUrl (endpoint : String) (p : SubscriptionPath) : String :=
  trimEndpoint endpoint ++ "/v1/" ++ p.render

def pullUrl (endpoint : String) (p : SubscriptionPath) : String :=
  baseUrl endpoint p ++ ":pull"

def acknowledgeUrl (endpoint : String) (p : SubscriptionPath) : String :=
  baseUrl endpoint p ++ ":acknowledge"

end SubscriptionPath

end LogRelay
