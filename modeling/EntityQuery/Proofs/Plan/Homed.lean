import EntityQuery.Proofs.Member.Homed
import EntityQuery.Proofs.Plan.Reached

/-! The graph that the rows of a query are read by.

All that a query asks for is resolved in one graph before any name is given (`select_resolved`), so
over entities that tell their navigations apart its joins are at home (`select_homed`) and no scope
inherits over two of them (`select_singleBase`). The aliases that its columns go by are the first
ones there are (`select_names`). -/
namespace EntityQuery.Plan

open JoinGraph (Homed)

variable {s : Schema} {q : Query} {plan : CompiledQuery}

/-- The graph of a query is what its paths lead to, those of its projection first, and is laid out
before anything else has a name. -/
theorem select_resolved (h : Plan.select s q = .ok plan) : ∃ e g display rest columns needed,
    entityNamed s q.entity = .ok e ∧
      Member.resolveEach s (.ofRoot e.id) (Member.expand s e q.members) = .ok (g, display) ∧
      Member.resolveEach s g rest = .ok (plan.layout.graph, columns) ∧
      plan.layout = laidOut plan.layout.graph needed {} := by
  obtain ⟨n, hrun, -⟩ := select_ok h
  obtain ⟨e, g, display, grown, sorted, he, hdisplay, hsorted, hcases⟩ := querySelects_ok hrun
  have hsorting := resolveSorting_ok hsorted
  obtain ⟨inner, -, hfiltered, -, -⟩ | ⟨grouping, c, -, hgrouped, hselects⟩ := hcases
  · obtain ⟨reached, conditions, filter, hconditions, hlayout, -, -⟩ := filtered_ok hfiltered
    have hrest := resolveEach_append hsorting hconditions
    rw [hlayout]
    exact ⟨e, g, display, _, _, _, he, hdisplay, hrest, rfl⟩
  · obtain ⟨rowCount, hgraph⟩ := resolveGrouped_resolved hgrouped
    obtain ⟨filter, m, having', m', hlayout, -⟩ := groupedSelects_ok hselects
    have hrest := resolveEach_append hsorting hgraph
    rw [hlayout]
    exact ⟨e, g, display, _, _, _, he, hdisplay, hrest, rfl⟩

/-- The scopes of a query take the first aliases. -/
theorem select_names (h : Plan.select s q = .ok plan) :
    plan.layout.names = (plan.layout.graph.assign {}).1 := by
  obtain ⟨e, g, display, rest, columns, needed, -, -, -, hlayout⟩ := select_resolved h
  exact congrArg Layout.names hlayout

section Told
variable {sources : List (String × Mapping.Document)} (hs : Schema.build sources = .ok s)
  (ht : s.TellsApart) (h : Plan.select s q = .ok plan)
include hs ht h

/-- The joins of a query are at home. -/
theorem select_homed : plan.layout.graph.Homed s := by
  obtain ⟨d, hb⟩ := Schema.build_ok hs
  have hascends := Schema.ascends hs
  obtain ⟨e, g, display, rest, columns, needed, -, hdisplay, hrest, -⟩ := select_resolved h
  have hg := Member.homed_resolveEach ht hascends hb.acyclic (JoinGraph.homed_ofRoot s e.id)
    hdisplay
  exact Member.homed_resolveEach ht hascends hb.acyclic hg hrest

/-- Hence its records are read without loss. -/
theorem select_singleBase : plan.layout.graph.SingleBase :=
  (select_homed hs ht h).singleBase (Schema.ascends hs)

end Told

end EntityQuery.Plan
