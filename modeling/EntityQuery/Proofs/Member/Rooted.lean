import EntityQuery.Proofs.Member.Shared

/-! Whatever is resolved leaves a tree.

A path joins below scopes that are there, whether it comes to name a column or not, and also where
bases go in circles. So the graph of a request is a tree however its paths were resolved
(`rooted_resolveAll`). -/
namespace EntityQuery.Member

open JoinGraph (Rooted)

variable {s : Schema} {g : JoinGraph}

theorem kept_rooted (s : Schema) : Kept s Rooted where
  climb hg hscope _ := (hg.kept_climb s hscope _ _).1
  hop hg hscope _ :=
    ((hg.kept_climb s hscope _ _).1.steady_reach (hg.climbTo_le hscope) _).rooted

theorem rooted_resolveAll (hg : g.Rooted) (paths : List String) :
    (resolveAll s g paths).1.Rooted := by
  induction paths generalizing g with
  | nil => exact hg
  | cons path rest ih =>
    rw [resolveAll_cons]
    exact ih ((kept_rooted s).resolve hg path)

end EntityQuery.Member
