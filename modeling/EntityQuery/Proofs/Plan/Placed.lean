import EntityQuery.Proofs.Plan.Unqualified

/-! Selects behind what was compiled before them.

A statement has one supply of aliases and one list of parameters, and so a query behind a condition
finds some of them taken. It becomes the select that it would be on its own, with every number moved
up by what was taken (`query_placed`). -/
namespace EntityQuery

/-! ### Numbers moved up -/

/-- The numbering where `m` has taken what it takes behind `n`. -/
def Plan.Numbering.then (n m : Plan.Numbering) : Plan.Numbering where
  aliases := ⟨n.aliases.tables + m.aliases.tables, n.aliases.joins + m.aliases.joins⟩
  params := n.params ++ m.params

/-- Moves every number up by what `n` has taken. -/
def Sql.Renaming.behind (n : Plan.Numbering) : Sql.Renaming where
  table i := some (n.aliases.tables + i)
  join i := n.aliases.joins + i
  placeholder i := n.params.length + i

namespace Plan

open Member (Column)
open Sql (Expr Select Renaming)

variable {s : Schema} {ρ : Renaming} {n m n' m' : Numbering}

/-- A layout whose root and joins have other numbers. -/
def Layout.renamed (ρ : Renaming) (l : Layout) : Layout :=
  {l with names := ⟨(ρ.name l.names.table).getD "", ρ.join l.names.firstJoin⟩}

theorem corresponds_behind (n : Numbering) : Corresponds (.behind n) {} n where
  tables i := by rw [Nat.zero_add]; rfl
  joins i := by rw [Nat.zero_add]; rfl
  params i := by rw [List.length_nil, Nat.zero_add]; rfl

/-- What is taken from the start is taken behind any numbering. -/
theorem Advance.eq_then (h : Advance Eq {} m n m') : m' = n.then m := by
  obtain ⟨⟨t, ht, ht'⟩, ⟨j, hj, hj'⟩, vs, ws, hvs, hm, hm'⟩ := h
  obtain ⟨⟨tables, joins⟩, params⟩ := m'
  rw [List.forall₂_eq_eq_eq] at hvs
  simp only [Nat.zero_add, List.nil_append] at ht hj hm
  simp only at ht' hj' hm'
  rw [Numbering.then, ht, hj, hm, hvs, ht', hj', hm']

theorem Corresponds.laidOut_renamed (h : Corresponds ρ n n') (g : JoinGraph)
    (columns : List Column) :
    laidOut g columns n'.aliases = (laidOut g columns n.aliases).renamed ρ := by
  have htable : ρ.name (tableAlias n.aliases.tables) = some (tableAlias n'.aliases.tables) :=
    h.name_aliasKey g 0
  have hjoin : ρ.join n.aliases.joins = n'.aliases.joins := h.joins 0
  rw [laidOut, laidOut, Layout.renamed, JoinGraph.assign, JoinGraph.assign, htable, hjoin,
    Option.getD_some]

/-- Two selects under one filter have the layouts of one graph. -/
theorem filtered_layouts {g : JoinGraph} {columns : List Column} {f : Filter}
    {compile compile' : Layout → Compile (Option Expr)} {l l' : Layout} {select select' : Select}
    (hn : Corresponds ρ n n') (h : filtered s g columns f compile n = .ok ((l, select), m))
    (h' : filtered s g columns f compile' n' = .ok ((l', select'), m')) : l' = l.renamed ρ := by
  obtain ⟨grown, conditions, -, hgrown, rfl, -, -⟩ := filtered_ok h
  obtain ⟨grown', conditions', -, hgrown', rfl, -, -⟩ := filtered_ok h'
  obtain ⟨rfl, rfl⟩ := Prod.mk.inj (Except.ok.inj (hgrown.symm.trans hgrown'))
  exact hn.laidOut_renamed grown (columns ++ conditions)

/-- A select behind others has the sources, the joins and the filter that it has on its own. -/
theorem filtered_placed (s : Schema) (n : Numbering) (g : JoinGraph) (columns : List Column)
    (f : Filter) :
    filtered s g columns f (filterExpr s f) n =
      (filtered s g columns f (filterExpr s f) {}).map fun ((l, select), m) =>
        ((l.renamed (.behind n), select.renamed (.behind n) []), n.then m) := by
  have hn := corresponds_behind n
  have hfilter : Filter.Alike Eq f f := .refl (fun _ => rfl) f
  have hparallel : Parallel (.behind n) Eq (SelectMoved (.behind n))
      (filtered s g columns f (filterExpr s f)) (filtered s g columns f (filterExpr s f)) :=
    filtered_parallel rfl (fun _ _ hl => filterExpr_parallel sameKind_of_eq hfilter hl.toRenamed)
      g columns
  refine ((hparallel {} n hn).both.mono ?_).eq_map
  rintro ⟨⟨l, select⟩, m⟩ ⟨⟨l', select'⟩, m'⟩ ⟨⟨hmoved, hadvance⟩, hfresh, hplaced⟩
  have hlayout : l' = l.renamed (.behind n) := filtered_layouts hn hfresh hplaced
  have hselect : select' = select.renamed (.behind n) [] := hmoved.select
  have hnumbering : m' = n.then m := hadvance.eq_then
  rw [hlayout, hselect, hnumbering]

/-- So is the query of a membership test, whether it is a page or not. -/
theorem subselect_placed (s : Schema) (n : Numbering) (q : Query) :
    subselect s q n = (subselect s q {}).map fun (select, m) =>
      (select.renamed (.behind n) [], n.then m) := by
  have hparallel := subselect_parallel (s := s) sameKind_of_eq
    (Query.Alike.refl (fun _ => rfl) q) {} n (corresponds_behind n)
  exact (hparallel.mono fun _ _ ⟨hselect, hadvance⟩ => Prod.ext hselect hadvance.eq_then).eq_map

/-- **A query means the same inside a statement.** From any numbering on, a select under a filter is
what it is from the start, with every alias and every placeholder moved up by what was taken before,
and so is a query behind a condition. They take as many aliases, bind the same values, and fail with
the same error. -/
theorem query_placed (s : Schema) (n : Numbering) :
    (∀ g columns f, filtered s g columns f (filterExpr s f) n =
      (filtered s g columns f (filterExpr s f) {}).map fun ((l, select), m) =>
        ((l.renamed (.behind n), select.renamed (.behind n) []), n.then m)) ∧
    ∀ q, subselect s q n = (subselect s q {}).map fun (select, m) =>
      (select.renamed (.behind n) [], n.then m) :=
  ⟨filtered_placed s n, subselect_placed s n⟩

end Plan
end EntityQuery
