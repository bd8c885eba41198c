import EntityQuery.Proofs.JoinGraph.Matched
import EntityQuery.Proofs.Plan.Moved

/-! Layouts of graphs that answer to each other.

Two graphs that take their aliases from one supply give their joins other numbers. The renaming
`across` takes the aliases of the joins of one graph to those of the joins of the other with the
same trails, and the aliases that are taken later to those that are taken later there. It keeps
aliases apart (`across_injective`), and what is written of a scope goes along with it
(`carried_across`). -/
namespace EntityQuery

namespace JoinGraph

variable {s : Schema} {g g' : JoinGraph} {a b j k : Nat}

/-- The scope of another graph that the same navigations lead to. -/
def partner (g g' : JoinGraph) (scope : Nat) : Nat :=
  ((List.range (g'.joins.length + 1)).find? fun b => g'.trail b == g.trail scope).getD 0

theorem matches_partner (ha : a ≤ g.joins.length) (h : g'.Has (g.trail a)) :
    Matches g g' a (g.partner g' a) := by
  unfold partner
  cases hfind : (List.range (g'.joins.length + 1)).find? fun b => g'.trail b == g.trail a with
  | none =>
    obtain ⟨b, hb, htrail⟩ := h
    have hnot := List.find?_eq_none.1 hfind b (List.mem_range.2 (Nat.lt_succ_of_le hb))
    simp [htrail] at hnot
  | some b =>
    have htrail := List.find?_some hfind
    have hb := List.mem_range.1 (List.mem_of_find?_eq_some hfind)
    exact ⟨ha, Nat.le_of_lt_succ hb, (beq_iff_eq.1 htrail).symm⟩

theorem Matches.has (h : Matches g g' a b) : g'.Has (g.trail a) := ⟨b, h.right, h.trail.symm⟩

theorem Matches.partner_eq (hg' : g'.Homed s) (h : Matches g g' a b) : g.partner g' a = b :=
  (matches_partner h.left h.has).right_unique hg' h

/-- Takes the number of a join's alias in one graph to that in another, both handed out from
`first` on. -/
def acrossJoin (g g' : JoinGraph) (first m : Nat) : Nat :=
  if m < first then m
  else
    match g.preorder[m - first]? with
    | some j => first + g'.preorder.idxOf (g.partner g' (j + 1) - 1)
    | none => m - g.joins.length + g'.joins.length

def across (g g' : JoinGraph) (supply : AliasSupply) : Sql.Renaming :=
  ⟨some, g.acrossJoin g' supply.joins, id⟩

variable {first m : Nat}

theorem acrossJoin_before (h : m < first) : g.acrossJoin g' first m = m := if_pos h

theorem acrossJoin_after (hg : g.Rooted) (h : first + g.joins.length ≤ m) :
    g.acrossJoin g' first m = m - g.joins.length + g'.joins.length := by
  have hnone : g.preorder[m - first]? = none :=
    List.getElem?_eq_none (by rw [hg.length_preorder]; omega)
  rw [acrossJoin, if_neg (by omega), hnone]

theorem acrossJoin_getElem? (h : g.preorder[m]? = some j) : g.acrossJoin g' first (first + m) =
    first + g'.preorder.idxOf (g.partner g' (j + 1) - 1) := by
  rw [acrossJoin, if_neg (by omega), Nat.add_sub_cancel_left, h]

theorem acrossJoin_idxOf (hg : g.Rooted) (hg' : g'.Homed s) (h : Matches g g' (j + 1) (k + 1)) :
    g.acrossJoin g' first (first + g.preorder.idxOf j) = first + g'.preorder.idxOf k := by
  have hget : g.preorder[g.preorder.idxOf j]? = some j :=
    List.getElem?_idxOf (hg.mem_preorder.2 h.left)
  rw [acrossJoin_getElem? hget, h.partner_eq hg', Nat.add_sub_cancel]

/-- Where every join of the first graph is one of the second, aliases stay apart. -/
theorem acrossJoin_injective (hg : g.Homed s) (hg' : g'.Homed s)
    (hall : ∀ a ≤ g.joins.length, g'.Has (g.trail a)) :
    Function.Injective (g.acrossJoin g' first) := by
  -- What a number is: one from before, one of a join that answers to another, or one from after.
  have hcases : ∀ m, (m < first ∧ g.acrossJoin g' first m = m) ∨
      (∃ j k, Matches g g' (j + 1) (k + 1) ∧ m = first + g.preorder.idxOf j ∧
        g.acrossJoin g' first m = first + g'.preorder.idxOf k ∧
        g'.preorder.idxOf k < g'.joins.length) ∨
      (first + g.joins.length ≤ m ∧
        g.acrossJoin g' first m = m - g.joins.length + g'.joins.length) := by
    intro m
    by_cases hbefore : m < first
    · exact .inl ⟨hbefore, acrossJoin_before hbefore⟩
    · by_cases hafter : first + g.joins.length ≤ m
      · exact .inr (.inr ⟨hafter, acrossJoin_after hg.rooted hafter⟩)
      · obtain ⟨i, rfl⟩ := Nat.exists_eq_add_of_le (Nat.le_of_not_lt hbefore)
        have hi : i < g.preorder.length := by rw [hg.rooted.length_preorder]; omega
        have hlen := hg.rooted.mem_preorder.1 (List.getElem_mem hi)
        have hmatch := matches_partner hlen (hall _ hlen)
        obtain ⟨h, -⟩ | ⟨j, k, hj, hk⟩ := hmatch.succ hg.rooted hg'.rooted
        · exact absurd h (Nat.succ_ne_zero _)
        · rw [hk] at hmatch
          obtain rfl := Nat.succ.inj hj
          have hidx := List.Nodup.idxOf_getElem hg.rooted.nodup_preorder i hi
          refine .inr (.inl ⟨_, k, hmatch, by rw [hidx], ?_, hg'.rooted.idxOf_lt hmatch.right⟩)
          rw [← acrossJoin_idxOf hg.rooted hg' hmatch, hidx]
  intro m n h
  obtain ⟨hm, hm'⟩ | ⟨j, k, hjk, hm, hm', hlt⟩ | ⟨hm, hm'⟩ := hcases m <;>
    obtain ⟨hn, hn'⟩ | ⟨j', k', hjk', hn, hn', hlt'⟩ | ⟨hn, hn'⟩ := hcases n <;> rw [hm', hn'] at h
  case inr.inl.inr.inl =>
    have hidx := Nat.add_left_cancel h
    obtain rfl := (List.idxOf_inj (hg'.rooted.mem_preorder.2 hjk.right)).1 hidx
    have hsame := hjk.left_unique hg hjk'
    rw [hm, hn, Nat.succ.inj hsame]
  all_goals omega

end JoinGraph

namespace Plan

variable {s : Schema} {g g' : JoinGraph}

/-- What is written of a scope goes along from one graph to the other. -/
theorem carried_across (hg : g.Homed s) (hg' : g'.Homed s) (hroot : g.root = g'.root)
    (supply : AliasSupply) (flipped flipped' : List Nat) :
    Layout.Carried s (g.across g' supply) (JoinGraph.Matches g g') ⟨g, (g.assign supply).1, flipped⟩
      ⟨g', (g'.assign supply).1, flipped'⟩ where
  text {a b} hab := by
    refine ⟨g.aliasKey supply a, JoinGraph.aliasName_assign g supply a, ?_⟩
    have halias : Layout.aliasName ⟨g', (g'.assign supply).1, flipped'⟩ b =
        (g'.aliasKey supply b).text := JoinGraph.aliasName_assign g' supply b
    rw [halias, Sql.Renaming.name_text]
    obtain ⟨rfl, rfl⟩ | ⟨j, k, rfl, rfl⟩ := hab.succ hg.rooted hg'.rooted
    · rfl
    · simp [JoinGraph.aliasKey, Sql.Renaming.key, JoinGraph.across,
        JoinGraph.acrossJoin_idxOf hg.rooted hg' hab]
  probe {j k} hjk := by
    have hname := (g.across g' supply).name_text (.probe (supply.joins + g.preorder.idxOf j))
    have hjoin : (g.across g' supply).join (supply.joins + g.preorder.idxOf j) =
        supply.joins + g'.preorder.idxOf k := JoinGraph.acrossJoin_idxOf hg.rooted hg' hjk
    rw [Sql.Renaming.key, hjoin] at hname
    exact hname
  entity {a b} hab := by
    show s.entity (g'.entityAt b) = s.entity (g.entityAt a)
    rw [hab.entityAt hg.rooted hg'.rooted hroot]
  navigation {j k} hjk := by
    obtain ⟨p, q, n, hj, hk, -⟩ := hjk.join hg.rooted hg'.rooted
    simp [navigationOf, hj, hk]
  parent hjk := hjk.parent hg.rooted hg'.rooted

end Plan
end EntityQuery
