import LogRelay.Event
import LogRelay.Routing

/-!
What routing comes to. The three fates of a record are told apart by its text and its time alone, and
the lines of a record that has a place to go follow the order of the servers.
-/

namespace LogRelay.Router

/-- The lines that a record is to turn into. -/
inductive Routes (router : Router) (r : Record) : List RoutedLine → Prop
  | unparsable (hp : router.parser "" (r.content ++ "\n") = none) : Routes router r []
  | stale {line : Postgres.Line} {t : Time.Instant}
      (hp : router.parser "" (r.content ++ "\n") = some line) (ht : r.occurredAt = some t)
      (hlt : t < router.horizon) : Routes router r []
  | addressed {line : Postgres.Line} (hp : router.parser "" (r.content ++ "\n") = some line)
      (hfresh : ∀ t, r.occurredAt = some t → ¬ t < router.horizon) :
      Routes router r <|
        (router.servers.filter fun s =>
            s.projectId = r.projectId ∧ s.instanceId = r.instanceId).map fun s =>
          ⟨s.identity, { line with occurredAt := r.occurredAt }⟩

/-- What is to be told about records whose text is no entry. -/
def rejections (router : Router) (records : List Record) : List Happening :=
  records.filterMap fun r =>
    match router.parser "" (r.content ++ "\n") with
    | none => some (.unparsable r.content)
    | some _ => none

variable {router : Router} {r : Record} {lines : List RoutedLine}

theorem severity_of_mem_rejections {records : List Record} {h : Happening}
    (hh : h ∈ router.rejections records) : h.severity = .error := by
  obtain ⟨r, -, hr⟩ := List.mem_filterMap.1 hh
  cases hp : router.parser "" (r.content ++ "\n") <;> rw [hp] at hr <;> cases hr
  rfl

theorem isStale_iff {occurredAt : Option Time.Instant} {horizon : Time.Instant} :
    isStale occurredAt horizon = true ↔ ∃ t, occurredAt = some t ∧ t < horizon := by
  cases occurredAt <;> simp [isStale]

theorem matchingServers_eq (servers : List Server) (r : Record) :
    matchingServers servers r =
      servers.filter fun s => s.projectId = r.projectId ∧ s.instanceId = r.instanceId := by
  unfold matchingServers
  congr 1
  funext s
  rw [Record.matches, Bool.decide_and]
  rfl

theorem routes_route (router : Router) (r : Record) : router.Routes r (router.route r) := by
  cases hp : router.parser "" (r.content ++ "\n") with
  | none =>
    have hroute : router.route r = [] := by simp [route, line?, restoreLineTerminator, hp]
    rw [hroute]
    exact .unparsable hp
  | some line =>
    have hline : router.line? r = some { line with occurredAt := r.occurredAt } := by
      simp [line?, restoreLineTerminator, hp]
    cases hst : isStale r.occurredAt router.horizon with
    | true =>
      have hroute : router.route r = [] := by simp [route, hline, hst]
      obtain ⟨t, ht, hlt⟩ := isStale_iff.1 hst
      rw [hroute]
      exact .stale hp ht hlt
    | false =>
      have hroute : router.route r = (matchingServers router.servers r).map fun s =>
          ⟨s.identity, { line with occurredAt := r.occurredAt }⟩ := by simp [route, hline, hst]
      rw [hroute, matchingServers_eq]
      refine .addressed hp fun t ht hlt => ?_
      have hstale := isStale_iff.2 ⟨t, ht, hlt⟩
      rw [hst] at hstale
      cases hstale

/-- The fates exclude one another, so the lines of a record are determined. -/
theorem routes_iff : router.Routes r lines ↔ lines = router.route r := by
  refine ⟨fun h => ?_, fun h => h ▸ routes_route router r⟩
  generalize hroute : router.route r = found
  have hfound := hroute ▸ routes_route router r
  cases h <;> cases hfound <;> simp_all

/-- Servers in another order get the same lines, in that order. -/
theorem route_perm {servers servers' : List Server} (h : servers.Perm servers')
    (parser : Postgres.LineParser) (horizon : Time.Instant) (r : Record) :
    (Router.route ⟨servers, parser, horizon⟩ r).Perm
      (Router.route ⟨servers', parser, horizon⟩ r) := by
  -- the servers only decide to whom a line is addressed
  cases hline : Router.line? ⟨servers, parser, horizon⟩ r with
  | none =>
    have hline' : Router.line? ⟨servers', parser, horizon⟩ r = none := hline
    simp [route, hline, hline']
  | some line =>
    have hline' : Router.line? ⟨servers', parser, horizon⟩ r = some line := hline
    simp only [route, hline, hline']
    split
    · exact .nil
    · exact (h.filter r.matches).map _

end LogRelay.Router
