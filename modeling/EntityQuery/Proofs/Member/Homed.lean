import EntityQuery.Proofs.JoinGraph.Inheritance
import EntityQuery.Proofs.Member.Followed
import EntityQuery.Proofs.Schema.Told

/-! Joins at home.

Where an entity's navigations are told apart by their names, a join follows a navigation of the
entity whose scope it hangs off, and it is the one that is found there by its name (`Homed`). So a
climb to the entity that declares a member goes base by base and comes to a scope of that entity
(`homed_climbTo`), no scope inherits over two joins (`Homed.singleBase`), and a scope that a climb
would come to and that is there already takes no further join (`climb_le`). -/
namespace EntityQuery

/-- The lineage of an entity is the way up along navigations to bases. -/
structure Schema.Ascends (s : Schema) : Prop where
  ends : ∀ id, (s.entity id).baseNavigation? = none → s.lineage (s.entity id) = [s.entity id]
  climbs : ∀ id base, (s.entity id).baseNavigation? = some base →
    s.lineage (s.entity id) = s.entity id :: s.lineage (s.entity base.target)
  single : ∀ id, ∀ n ∈ (s.entity id).navigations, ∀ m ∈ (s.entity id).navigations,
    n.inheritance = true → m.inheritance = true → n = m
  placed : ∀ id, s.entity id = default ∨ (s.entity id).id = id

/-- Every entity tells its navigations apart. -/
def Schema.TellsApart (s : Schema) : Prop := ∀ e ∈ s.entities, e.TellsApart

def Entity.memberNames (e : Entity) : List String :=
  e.properties.map (·.name) ++ e.navigations.map (·.name)

/-- The members of every entity have different names, also without regard to case. -/
def Schema.NamesApart (s : Schema) : Prop :=
  ∀ e ∈ s.entities, (e.memberNames.map Text.lower).Nodup

instance (s : Schema) : Decidable s.NamesApart :=
  inferInstanceAs (Decidable (∀ e ∈ s.entities, _))

theorem Schema.NamesApart.tellsApart {s : Schema} (h : s.NamesApart) : s.TellsApart :=
  fun e he => by
    have hnodup := h e he
    rw [Entity.memberNames, List.map_append, List.map_map, List.map_map] at hnodup
    refine (Entity.tellsApart_iff e).2 ((List.pairwise_map.1 hnodup.of_append_right).imp ?_)
    exact fun hne => Bool.eq_false_iff.2 (mt Text.sameLower_iff.1 hne)

namespace Schema

variable {sources : List (String × Mapping.Document)} {s : Schema} {d : Draft}

theorem Checked.ascends (hc : Checked sources d) (hb : Built d s) : s.Ascends where
  ends id hnone := by
    by_cases hid : id < d.defs.length
    · refine lineage_root hb hid ?_
      obtain ⟨hbase, -⟩ | ⟨base, own, -, -, hfilter⟩ := Checked.filter_inheritance hb hid
      · exact hbase
      · have hown : own ∈ (s.entity id).navigations.filter (·.inheritance) := by simp [hfilter]
        obtain ⟨hmem, hinheritance⟩ := List.mem_filter.1 hown
        exact absurd hinheritance (List.find?_eq_none.1 hnone own hmem)
    · rw [hb.entity_beyond hid, lineage]
      cases s.entities.length <;> rfl
  climbs id base hbase := by
    by_cases hid : id < d.defs.length
    · exact hc.lineage_base hb hid (hb.base?_of_navigation hbase)
    · simp [hb.baseNavigation?_beyond hid] at hbase
  single id n hn m hm hninh hminh := by
    by_cases hid : id < d.defs.length
    · have hmem := List.mem_filter.2 ⟨hn, hninh⟩
      have hmem' := List.mem_filter.2 ⟨hm, hminh⟩
      obtain ⟨-, hnone⟩ | ⟨base, own, -, -, hone⟩ := Checked.filter_inheritance hb hid
      · simp [hnone] at hmem
      · rw [hone, List.mem_singleton] at hmem hmem'
        rw [hmem, hmem']
    · rw [hb.entity_beyond hid] at hn
      exact absurd hn List.not_mem_nil
  placed id := by
    by_cases hid : id < d.defs.length
    · exact .inr (hb.entity_id hid)
    · exact .inl (hb.entity_beyond hid)

theorem ascends (h : build sources = .ok s) : s.Ascends := by
  obtain ⟨d, hc, hentities⟩ := build_eq_ok.1 h
  exact hc.ascends (hc.built hentities)

/-- Only the entities of the schema have navigations. -/
theorem mem_of_navigation {id : Nat} {n : Navigation} (hn : n ∈ (s.entity id).navigations) :
    s.entity id ∈ s.entities := by
  by_cases hid : id < s.entities.length
  · simp [entity, hid]
  · have hnone : s.entity id = default := by simp [entity, Nat.le_of_not_lt hid]
    rw [hnone] at hn
    exact absurd hn List.not_mem_nil

/-- Two navigations of an entity that have one name in lower case are one. -/
theorem TellsApart.unique (h : s.TellsApart) {id : Nat} {n m : Navigation}
    (hn : n ∈ (s.entity id).navigations) (hm : m ∈ (s.entity id).navigations)
    (hname : Text.sameLower n.name m.name = true) : n = m := by
  have hdistinct : ((s.entity id).navigations.map fun n => Text.lower n.name).Nodup :=
    List.pairwise_map.2 ((h _ (mem_of_navigation hn)).distinct.imp fun hne =>
      mt Text.sameLower_iff.2 (Bool.eq_false_iff.1 hne))
  exact List.inj_on_of_nodup_map hdistinct hn hm (Text.sameLower_iff.1 hname)

theorem Ascends.entity_id (h : s.Ascends) {id : Nat} {owner : Entity}
    (howner : owner ∈ s.lineage (s.entity id)) (hne : owner ≠ default) :
    s.entity owner.id = owner := by
  obtain ⟨other, rfl⟩ := Member.mem_lineageFrom howner
  rw [(h.placed other).resolve_left hne]

end Schema

namespace JoinGraph

variable {s : Schema} {g : JoinGraph}

/-- Every join follows a navigation of the entity that it hangs off and is found there by it. -/
structure Homed (s : Schema) (g : JoinGraph) : Prop where
  rooted : g.Rooted
  owned : ∀ {j : Nat} {join : GraphJoin}, g.joins[j]? = some join →
    join.navigation ∈ (g.entity s join.parent).navigations
  first : ∀ {j : Nat} {join : GraphJoin}, g.joins[j]? = some join →
    g.find? join.parent join.navigation.name = some j

theorem homed_ofRoot (s : Schema) (entity : Nat) : (ofRoot entity).Homed s where
  rooted := rooted_ofRoot entity
  owned h := by simp [ofRoot] at h
  first h := by simp [ofRoot] at h

/-- An entity has one base, and one join leads to it. -/
theorem Homed.singleBase (hg : g.Homed s) (hs : s.Ascends) : g.SingleBase := by
  have hunique : ∀ scope, ∀ i ∈ g.bases scope, ∀ j ∈ g.bases scope, i = j := by
    intro scope i hi j hj
    obtain ⟨join, hget, rfl, hinh⟩ := inherits_iff.1 ⟨i, hi, rfl⟩
    obtain ⟨join', hget', hparent, hinh'⟩ := inherits_iff.1 ⟨j, hj, rfl⟩
    have hown' := hg.owned hget'
    rw [hparent] at hown'
    have hsame := hs.single _ _ (hg.owned hget) _ hown' hinh hinh'
    have hfirst' := hg.first hget'
    rw [hparent, ← hsame, hg.first hget] at hfirst'
    exact Option.some.inj hfirst'
  intro scope
  have hnodup : (g.bases scope).Nodup := (g.nodup_children scope).filter _
  match hbases : g.bases scope with
  | [] | [_] => simp
  | i :: j :: _ =>
    rw [hbases] at hnodup
    have hij := hunique scope i (by simp [hbases]) j (by simp [hbases])
    simp [hij] at hnodup

theorem getElem?_joined {joins : List GraphJoin} {last join : GraphJoin} {j : Nat}
    (h : (joins ++ [last])[j]? = some join) :
    joins[j]? = some join ∨ joins.length = j ∧ last = join := by
  rw [List.getElem?_append, List.getElem?_singleton] at h
  split at h
  · exact .inl h
  · split at h
    · exact .inr ⟨by omega, Option.some.inj h⟩
    · cases h

variable (ht : s.TellsApart)
include ht

/-- A navigation is followed along a join of its own. -/
theorem homed_reach (hg : g.Homed s) {scope : Nat} (hscope : scope ≤ g.joins.length)
    {n : Navigation} (hn : n ∈ (g.entity s scope).navigations) :
    (g.reach scope n).1.Homed s ∧ ∃ j, (g.reach scope n).2 = j + 1 ∧
      (g.reach scope n).1.joins[j]? = some ⟨scope, n⟩ := by
  cases hfind : g.find? scope n.name with
  | some j =>
    rw [reach_of_find? hfind]
    refine ⟨hg, j, rfl, ?_⟩
    obtain ⟨hlen, hjoin, -⟩ := List.findIdx?_eq_some_iff_getElem.1 hfind
    simp only [Bool.and_eq_true, beq_iff_eq] at hjoin
    have hget := List.getElem?_eq_getElem hlen
    have hown := hg.owned hget
    rw [hjoin.1] at hown
    rw [hget, ← hjoin.1, ← ht.unique hown hn hjoin.2]
  | none =>
    have hgrows : g.Grows (g.reach scope n).1 := ⟨root_reach .., joins_reach ..⟩
    obtain ⟨k, hk, hfound⟩ := find?_reach g scope n
    have hrooted : (g.reach scope n).1.Rooted := (hg.rooted.steady_reach hscope n).rooted
    rw [reach_of_none hfind] at hgrows hk hfound hrooted ⊢
    obtain rfl : g.joins.length = k := Nat.succ.inj hk
    refine ⟨⟨hrooted, fun {j join} hget => ?_, fun {j join} hget => ?_⟩, _, rfl, by simp⟩
    all_goals obtain hold | ⟨rfl, rfl⟩ := getElem?_joined hget
    · have hparent : join.parent ≤ g.joins.length := by
        have hle := hg.rooted j
        obtain ⟨hlen, -⟩ := List.getElem?_eq_some_iff.1 hold
        simp only [parent, hold, Option.map_some, Option.getD_some] at hle
        omega
      rw [hgrows.entity s hparent]
      exact hg.owned hold
    · rw [hgrows.entity s hscope]
      exact hn
    · exact hgrows.find? (hg.first hold)
    · exact hfound

omit ht in
/-- A climb to an ancestor does not end before it. -/
theorem Settled.entityAt_eq (hs : s.Ascends) {scope : Nat} {owner : Entity}
    (h : Settled s g scope owner.id) (howner : owner ∈ s.lineage (g.entity s scope))
    (hne : owner ≠ default) : g.entityAt scope = owner.id := by
  rcases h with hat | hnone
  · exact hat
  · have hself := hs.ends _ hnone
    rw [entity, hself, List.mem_singleton] at howner
    rw [howner, (hs.placed _).resolve_left (howner ▸ hne)]

/-- A climb that comes to its end goes base by base to the owner of a member. -/
theorem homed_climb (hs : s.Ascends) (hg : g.Homed s) {scope fuel : Nat}
    (hscope : scope ≤ g.joins.length) {owner : Entity}
    (howner : owner ∈ s.lineage (g.entity s scope)) (hne : owner ≠ default)
    (hend : Settled s (climb s g scope owner.id fuel).1 (climb s g scope owner.id fuel).2
      owner.id) :
    (climb s g scope owner.id fuel).1.Homed s ∧
      Relation.ReflTransGen (climb s g scope owner.id fuel).1.Inherits scope
        (climb s g scope owner.id fuel).2 ∧
      (climb s g scope owner.id fuel).1.entityAt (climb s g scope owner.id fuel).2 = owner.id := by
  induction fuel generalizing g scope with
  | zero => exact ⟨hg, .refl, hend.entityAt_eq hs howner hne⟩
  | succ fuel ih =>
    by_cases hsettled : Settled s g scope owner.id
    · rw [climb_settled hsettled]
      exact ⟨hg, .refl, hsettled.entityAt_eq hs howner hne⟩
    · obtain ⟨ho, base, hb⟩ := next_of_not_settled hsettled
      obtain ⟨hreach, j, hj, hget⟩ := homed_reach ht hg hscope (List.mem_of_find?_eq_some hb)
      rw [climb_step ho hb, hj] at hend ⊢
      have hlen : j + 1 ≤ (g.reach scope base).1.joins.length :=
        (List.getElem?_eq_some_iff.1 hget).1
      have htarget : (g.reach scope base).1.entity s (j + 1) = s.entity base.target := by
        simp [entity, entityAt, hget]
      -- The owner is further up: it is not the entity of this scope.
      have hup : owner ∈ s.lineage ((g.reach scope base).1.entity s (j + 1)) := by
        rw [entity, hs.climbs _ base hb] at howner
        rw [htarget]
        refine (List.mem_cons.1 howner).resolve_left fun hself => ho ?_
        rw [hself, (hs.placed _).resolve_left (hself ▸ hne)]
      obtain ⟨hhomed, hway, howner⟩ := ih hreach hlen hup hend
      have hgrows := (hreach.rooted.kept_climb s hlen owner.id fuel).2.1
      have hinherits : (g.reach scope base).1.Inherits scope (j + 1) :=
        inherits_iff.2 ⟨_, hget, rfl, List.find?_some hb⟩
      exact ⟨hhomed, .head (hgrows.inherits hinherits) hway, howner⟩

/-- The scope of the entity that declares a member is inherited by the scope the member is asked
of. -/
theorem homed_climbTo (hs : s.Ascends) (hacyclic : s.Acyclic) (hg : g.Homed s) {scope : Nat}
    (hscope : scope ≤ g.joins.length) {owner : Entity}
    (howner : owner ∈ s.lineage (g.entity s scope)) (hne : owner ≠ default) :
    (climbTo s g scope owner.id).1.Homed s ∧
      Relation.ReflTransGen (climbTo s g scope owner.id).1.Inherits scope
        (climbTo s g scope owner.id).2 ∧
      (climbTo s g scope owner.id).1.entityAt (climbTo s g scope owner.id).2 = owner.id :=
  homed_climb ht hs hg hscope howner hne (hg.rooted.climb_settles hacyclic hscope (by omega))

omit ht in
/-- A climb leads away from the root. It joins nothing when it comes to a scope that is there. -/
theorem Rooted.climb_le (hg : g.Rooted) {scope : Nat} (hscope : scope ≤ g.joins.length)
    (owner fuel : Nat) : scope ≤ (climb s g scope owner fuel).2 ∧
      ((climb s g scope owner fuel).2 ≤ g.joins.length → (climb s g scope owner fuel).1 = g) := by
  induction fuel generalizing g scope with
  | zero => exact ⟨Nat.le_refl _, fun _ => rfl⟩
  | succ fuel ih =>
    by_cases hsettled : Settled s g scope owner
    · rw [climb_settled hsettled]
      exact ⟨Nat.le_refl _, fun _ => rfl⟩
    · obtain ⟨ho, base, hb⟩ := next_of_not_settled hsettled
      rw [climb_step ho hb]
      cases hfind : g.find? scope base.name with
      | some j =>
        rw [reach_of_find? hfind]
        obtain ⟨hj, rfl⟩ := find?_some hfind
        obtain ⟨hle, hsame⟩ := ih hg hj
        exact ⟨Nat.le_trans (Nat.le_succ_of_le (hg j)) hle, hsame⟩
      | none =>
        rw [reach_of_none hfind]
        have hlast : g.joins.length + 1 ≤ (g.joins ++ [GraphJoin.mk scope base]).length := by simp
        obtain ⟨hle, -⟩ := ih (hg.append ⟨scope, base⟩ hscope) hlast
        exact ⟨Nat.le_trans (Nat.le_succ_of_le hscope) hle, fun hback =>
          absurd (Nat.le_trans hle hback) (Nat.not_succ_le_self _)⟩

end JoinGraph

namespace Member

open JoinGraph (Homed climbTo)

variable {s : Schema} {g : JoinGraph} {scope : Nat} {name : String}

theorem nearestProperty?_some {e owner : Entity} {p : Property}
    (h : s.nearestProperty? e name = some (owner, p)) :
    owner ∈ s.lineage e ∧ owner ≠ default := by
  obtain ⟨other, hother, hp⟩ := List.exists_of_findSome?_eq_some h
  obtain ⟨q, hq, hpair⟩ := Option.map_eq_some_iff.1 hp
  obtain ⟨rfl, rfl⟩ := Prod.mk.inj hpair
  refine ⟨hother, ?_⟩
  rintro rfl
  exact absurd (List.mem_of_find?_eq_some hq) List.not_mem_nil

theorem nearestNavigation?_owner {e owner : Entity} {n : Navigation}
    (h : s.nearestNavigation? e name = some (owner, n)) :
    owner ∈ s.lineage e ∧ owner ≠ default ∧ n ∈ owner.navigations := by
  obtain ⟨other, hother, hn⟩ := List.exists_of_findSome?_eq_some h
  obtain ⟨m, hm, hpair⟩ := Option.map_eq_some_iff.1 hn
  obtain ⟨rfl, rfl⟩ := Prod.mk.inj hpair
  refine ⟨hother, ?_, List.mem_of_find?_eq_some hm⟩
  rintro rfl
  exact absurd (List.mem_of_find?_eq_some hm) List.not_mem_nil

section Told
variable (ht : s.TellsApart) (hs : s.Ascends) (hacyclic : s.Acyclic)
include ht hs hacyclic

theorem kept_homed : Kept s (·.Homed s) where
  climb hg hscope hp := by
    obtain ⟨hmem, hne⟩ := nearestProperty?_some hp
    exact (JoinGraph.homed_climbTo ht hs hacyclic hg hscope hmem hne).1
  hop {g scope _ owner n} hg hscope hn := by
    obtain ⟨hmem, hne, hown⟩ := nearestNavigation?_owner hn
    obtain ⟨hclimb, -, hat⟩ := JoinGraph.homed_climbTo ht hs hacyclic hg hscope hmem hne
    have horigin : n ∈ ((climbTo s g scope owner.id).1.entity s
        (climbTo s g scope owner.id).2).navigations := by
      rw [JoinGraph.entity, hat, hs.entity_id hmem hne]
      exact hown
    exact (JoinGraph.homed_reach ht hclimb (hg.rooted.climbTo_le hscope) horigin).1

theorem homed_resolveEach (hg : g.Homed s) {paths : List String} {columns : List Column}
    {g' : JoinGraph} (h : resolveEach s g paths = .ok (g', columns)) : g'.Homed s :=
  (kept_homed ht hs hacyclic).resolveEach hg h

/-- The scope of a member's column, when it is there, is inherited by the scope the member is asked
of. -/
theorem inherits_leaf (hg : g.Homed s) (hscope : scope ≤ g.joins.length) {owner : Entity}
    {p : Property} (hp : s.nearestProperty? (g.entity s scope) name = some (owner, p))
    {found : Nat} {column : String} (hleaf : (leaf s g scope name).2 = .ok (found, column))
    (hfound : found ≤ g.joins.length) :
    Relation.ReflTransGen g.Inherits scope found ∧ column = p.column := by
  obtain ⟨hmem, hne⟩ := nearestProperty?_some hp
  cases hi : p.ignored with
  | true => simp [leaf, hp, hi] at hleaf
  | false =>
    simp only [leaf, hp, hi, Bool.false_eq_true, if_false, Except.ok.injEq, Prod.mk.injEq] at hleaf
    obtain ⟨rfl, rfl⟩ := hleaf
    obtain ⟨-, hway, -⟩ := JoinGraph.homed_climbTo ht hs hacyclic hg hscope hmem hne
    have hsame : (climbTo s g scope owner.id).1 = g := (hg.rooted.climb_le hscope _ _).2 hfound
    rw [hsame] at hway
    exact ⟨hway, rfl⟩

end Told

end Member
end EntityQuery
