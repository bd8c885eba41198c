import EntityQuery.Proofs.Member.Route
import EntityQuery.Proofs.Plan.Compiled

/-! Paths that share their joins.

However many paths are resolved in one graph, and whatever becomes of each, its joins are the edges
of a tree: each leads to a scope of its own, from one that was there before, and no two follow one
navigation from one scope (`JoinGraph.IsTree`). Paths may be spelled in more ways than one: with
white space around the names and a function around the path, which leave the names (`named`) what
they are, with names in another case, and with or without the steps to a base that is reached anyway
(`Respelled`). All spellings are read alike (`NamesRespelled.readNames_eq`) and so share their
joins: they come to one scope and name one column there (`resolveAll_shared`). -/
namespace EntityQuery

/-! ### Trees -/

/-- The joins are the edges of a tree. -/
structure JoinGraph.IsTree (s : Schema) (g : JoinGraph) : Prop where
  /-- A join leads from a scope that was there before to the entity that its navigation, one of the
  entity it hangs off, points at. -/
  joined : ∀ {j : Nat} {join : GraphJoin}, g.joins[j]? = some join →
    join.parent < j + 1 ∧ join.navigation ∈ (g.entity s join.parent).navigations ∧
      g.entityAt (j + 1) = join.navigation.target
  /-- One join leads to each scope but the root. -/
  single : ∀ scope, 0 < scope → scope ≤ g.joins.length →
    ∃! edge : Nat × Nat, edge.2 ∈ g.children edge.1 ∧ edge.2 + 1 = scope
  /-- No two joins follow navigations of one name from one scope. -/
  shared : ∀ {i j : Nat} {a b : GraphJoin}, g.joins[i]? = some a → g.joins[j]? = some b →
    a.parent = b.parent → Text.sameLower a.navigation.name b.navigation.name = true → i = j
  /-- The children of a scope are the joins that hang off it, each listed once. -/
  listed : ∀ scope j, (g.children scope).count j =
    if j < g.joins.length ∧ g.parent j = scope then 1 else 0
  /-- A navigation that is followed from a scope for the first time is attached there. -/
  attached : ∀ {scope : Nat} {n : Navigation}, scope ≤ g.joins.length →
    g.find? scope n.name = none → g.Attached scope n (g.reach scope n).1 (g.reach scope n).2
  /-- A scope is known by the navigations that lead to it. -/
  known : ∀ {a b : Nat}, a ≤ g.joins.length → b ≤ g.joins.length → g.trail a = g.trail b → a = b

theorem JoinGraph.Homed.isTree {s : Schema} {g : JoinGraph} (hg : g.Homed s) : g.IsTree s where
  joined h := ⟨Nat.lt_succ_of_le (hg.rooted.parent_le h), hg.owned h, by simp [entityAt, h]⟩
  single scope hpos hle := by
    obtain ⟨j, rfl⟩ : ∃ j, scope = j + 1 := ⟨scope - 1, by omega⟩
    refine ⟨(g.parent j, j), ⟨mem_children.2 ⟨hle, rfl⟩, rfl⟩, ?_⟩
    rintro ⟨parent, i⟩ ⟨hmem, hscope⟩
    obtain rfl := Nat.succ.inj hscope
    rw [(mem_children.1 hmem).2]
  shared {i j a b} ha hb hparent hname := by
    have hfirst := hg.first ha
    have hsame : g.find? a.parent a.navigation.name = g.find? b.parent b.navigation.name := by
      simp only [find?, hparent, Text.sameLower, Text.sameLower_iff.1 hname]
    rw [hsame, hg.first hb] at hfirst
    exact (Option.some.inj hfirst).symm
  listed scope j := by
    split
    · next hmem => exact List.count_eq_one_of_mem (g.nodup_children scope) (mem_children.2 hmem)
    · next hnot => exact List.count_eq_zero.2 fun hmem => hnot (mem_children.1 hmem)
  attached hscope hfind := hg.rooted.reach_attached hscope hfind
  known ha hb := hg.trail_injective ha hb

namespace Member

variable {s : Schema} {g : JoinGraph} {id : Nat}

/-! ### Spellings of a path -/

/-- What the first of some names means is declared by an ancestor, so that following it climbs. -/
def Climbs (s : Schema) (id : Nat) : List String → Prop
  | [] => False
  | [name] => (s.entity id).property? name = none ∧ (s.nearestProperty? (s.entity id) name).isSome
  | name :: _ :: _ =>
    (s.entity id).navigation? name = none ∧ (s.nearestNavigation? (s.entity id) name).isSome

/-- Two spellings of the names of a path, asked of the entity at a position. -/
inductive NamesRespelled (s : Schema) : Nat → List String → List String → Prop where
  | refl (id : Nat) (names : List String) : NamesRespelled s id names names
  | symm {id : Nat} {names names' : List String} : NamesRespelled s id names names' →
    NamesRespelled s id names' names
  | trans {id : Nat} {names names' names'' : List String} : NamesRespelled s id names names' →
    NamesRespelled s id names' names'' → NamesRespelled s id names names''
  /-- The name of a navigation is written in another case, and what follows may be respelled. -/
  | name {id : Nat} {name name' next next' : String} {rest rest' : List String} {owner : Entity}
    {n : Navigation} : Text.sameName name name' = true →
    s.nearestNavigation? (s.entity id) name = some (owner, n) →
    NamesRespelled s n.target (next :: rest) (next' :: rest') →
    NamesRespelled s id (name :: next :: rest) (name' :: next' :: rest')
  /-- A step to the base that is taken anyway is written out. -/
  | base {id : Nat} {names : List String} {base : Navigation} :
    (s.entity id).baseNavigation? = some base → Climbs s id names →
    NamesRespelled s id (base.name :: names) names

/-- Two spellings of a path. The row count is no path to a member. -/
structure Respelled (s : Schema) (id : Nat) (path path' : String) : Prop where
  member : isRowCount path = false
  member' : isRowCount path' = false
  names : NamesRespelled s id (named path) (named path')

/-! ### Spellings are read alike -/

theorem sameName_left {a b : String} (h : Text.sameName a b = true) (name : String) :
    Text.sameName name a = Text.sameName name b := by
  rw [Text.sameName_iff] at h
  rw [Text.sameName, Text.sameName, h]

theorem nearestNavigation?_congr {name name' : String} (h : Text.sameName name name' = true)
    (e : Entity) : s.nearestNavigation? e name = s.nearestNavigation? e name' := by
  simp only [Schema.nearestNavigation?, Entity.navigation?, sameName_left h]

theorem nearestProperty?_declared {e owner : Entity} {name : String} {p : Property}
    (h : s.nearestProperty? e name = some (owner, p)) : owner.property? name = some p := by
  obtain ⟨other, -, hother⟩ := List.exists_of_findSome?_eq_some h
  obtain ⟨q, hq, hpair⟩ := Option.map_eq_some_iff.1 hother
  obtain ⟨rfl, rfl⟩ := Prod.mk.inj hpair
  exact hq

theorem nearestNavigation?_declared {e owner : Entity} {name : String} {n : Navigation}
    (h : s.nearestNavigation? e name = some (owner, n)) : owner.navigation? name = some n := by
  obtain ⟨other, -, hother⟩ := List.exists_of_findSome?_eq_some h
  obtain ⟨m, hm, hpair⟩ := Option.map_eq_some_iff.1 hother
  obtain ⟨rfl, rfl⟩ := Prod.mk.inj hpair
  exact hm

section Told
variable (ht : s.TellsApart) (hs : s.Ascends)
include hs

/-- A member that an entity does not declare itself is that of its base. -/
theorem nearestProperty?_base {base : Navigation}
    (hbase : (s.entity id).baseNavigation? = some base) {name : String}
    (h : (s.entity id).property? name = none) :
    s.nearestProperty? (s.entity id) name = s.nearestProperty? (s.entity base.target) name := by
  simp [Schema.nearestProperty?, hs.climbs id base hbase, h]

theorem nearestNavigation?_base {base : Navigation}
    (hbase : (s.entity id).baseNavigation? = some base) {name : String}
    (h : (s.entity id).navigation? name = none) :
    s.nearestNavigation? (s.entity id) name = s.nearestNavigation? (s.entity base.target) name := by
  simp [Schema.nearestNavigation?, hs.climbs id base hbase, h]

/-- The way up to an owner that is not the entity itself begins with the step to the base. -/
theorem ascent_of_ne {base : Navigation} (hbase : (s.entity id).baseNavigation? = some base)
    {owner : Entity} (howner : owner ∈ s.lineage (s.entity id)) (hne : owner ≠ default)
    (hself : owner ≠ s.entity id) :
    s.ascent id owner.id = base :: s.ascent base.target owner.id :=
  hs.ascent_base (fun hid => hself (by rw [hid, hs.entity_id howner hne])) hbase

include ht

/-- The navigation to the base is found by its name. -/
theorem nearestNavigation?_self {base : Navigation}
    (hbase : (s.entity id).baseNavigation? = some base) :
    s.nearestNavigation? (s.entity id) base.name = some (s.entity id, base) := by
  have hmem : base ∈ (s.entity id).navigations := List.mem_of_find?_eq_some hbase
  have hfound : (s.entity id).navigation? base.name = some base := by
    cases hn : (s.entity id).navigation? base.name with
    | none => simpa using List.find?_eq_none.1 hn base hmem
    | some n =>
      obtain ⟨hn, hname⟩ := Entity.navigation?_some hn
      rw [ht.unique hn hmem (Text.sameLower_of_sameName hname)]
  simp [Schema.nearestNavigation?, hs.climbs id base hbase, hfound]

theorem readNames_base {base : Navigation} (hbase : (s.entity id).baseNavigation? = some base)
    {names : List String} (h : Climbs s id names) :
    readNames s id (base.name :: names) = readNames s id names := by
  have hself := nearestNavigation?_self ht hs hbase
  have hstay : s.ascent id (s.entity id).id = [] := by rw [hs.id_of_base hbase, hs.ascent_self]
  match names, h with
  | [name], ⟨hnone, hsome⟩ =>
    obtain ⟨⟨owner, p⟩, hp⟩ := Option.isSome_iff_exists.1 hsome
    obtain ⟨hmem, hne⟩ := nearestProperty?_some hp
    have hup : owner ≠ s.entity id := fun hown => by
      simp [hown ▸ nearestProperty?_declared hp] at hnone
    have hp' := nearestProperty?_base hs hbase hnone ▸ hp
    rw [readNames_some hself, hstay, readNames, readNames, readLeaf_some hp, readLeaf_some hp',
      ascent_of_ne hs hbase hmem hne hup]
    cases p.ignored <;> rfl
  | name :: next :: rest, ⟨hnone, hsome⟩ =>
    obtain ⟨⟨owner, n⟩, hn⟩ := Option.isSome_iff_exists.1 hsome
    obtain ⟨hmem, hne, -⟩ := nearestNavigation?_owner hn
    have hup : owner ≠ s.entity id := fun hown => by
      simp [hown ▸ nearestNavigation?_declared hn] at hnone
    have hn' := nearestNavigation?_base hs hbase hnone ▸ hn
    rw [readNames_some hself, hstay, readNames_some hn, readNames_some hn',
      ascent_of_ne hs hbase hmem hne hup]
    cases readNames s n.target (next :: rest) <;> rfl

/-- Spellings of a path say the same. -/
theorem NamesRespelled.readNames_eq {names names' : List String}
    (h : NamesRespelled s id names names') : readNames s id names = readNames s id names' := by
  induction h with
  | refl => rfl
  | symm _ ih => exact ih.symm
  | trans _ _ ih ih' => exact ih.trans ih'
  | name hname hn _ ih =>
    rw [readNames_some hn, readNames_some (nearestNavigation?_congr hname _ ▸ hn), ih]
  | base hbase hclimbs => exact readNames_base ht hs hbase hclimbs

end Told

/-! ### Runs -/

/-- Resolves paths one after another, whatever becomes of each. -/
def resolveAll (s : Schema) (g : JoinGraph) :
    List String → JoinGraph × List (Except Error Column)
  | [] => (g, [])
  | path :: rest =>
    let (g, found) := resolve s g path
    let (g, others) := resolveAll s g rest
    (g, found :: others)

theorem resolveAll_cons (path : String) (rest : List String) :
    resolveAll s g (path :: rest) = ((resolveAll s (resolve s g path).1 rest).1,
      (resolve s g path).2 :: (resolveAll s (resolve s g path).1 rest).2) := by
  rw [resolveAll]

section Told
variable (ht : s.TellsApart) (hs : s.Ascends) (hacyclic : s.Acyclic)
include ht hs hacyclic

/-- What a run finds stays what it was read as, to the end of the run. -/
theorem resolveAll_reads (hg : g.Homed s) (paths : List String) :
    (resolveAll s g paths).1.Homed s ∧ g.Grows (resolveAll s g paths).1 ∧
      ∀ path c, (path, .ok c) ∈ paths.zip (resolveAll s g paths).2 →
        ∃ r, read s g.root path = .ok r ∧ c.Reads (resolveAll s g paths).1 path r := by
  induction paths generalizing g with
  | nil => exact ⟨hg, .refl g, fun path c h => absurd h List.not_mem_nil⟩
  | cons first rest ih =>
    have hfirst : (resolve s g first).1.Homed s :=
      (kept_homed ht hs hacyclic).resolve hg first
    have hgrows : g.Grows (resolve s g first).1 :=
      (steady_resolve hacyclic hg.rooted first).1.grows
    have hread := fun c (hc : (resolve s g first).2 = .ok c) =>
      read_of_resolve ht hs hacyclic hg hc
    rw [resolveAll_cons]
    generalize resolve s g first = step at hfirst hgrows hread ⊢
    obtain ⟨hhomed, hmore, hrest⟩ := ih hfirst
    refine ⟨hhomed, hgrows.trans hmore, fun path c h => ?_⟩
    rw [List.zip_cons_cons, List.mem_cons, Prod.mk.injEq] at h
    rcases h with ⟨rfl, hc⟩ | h
    · obtain ⟨r, hr, hreads, -⟩ := hread c hc.symm
      exact ⟨r, hr, hreads.grows hmore hfirst.rooted hhomed.rooted⟩
    · rw [← hgrows.root]
      exact hrest path c h

end Told

/-- **Joins are shared**, and the joins of a graph are a tree, after any run from a root: paths
that resolve and are spellings of each other come to one scope and name one column. -/
theorem resolveAll_shared {sources : List (String × Mapping.Document)}
    (hb : Schema.build sources = .ok s) (hnames : s.NamesApart) (root : Nat)
    (paths : List String) :
    (resolveAll s (.ofRoot root) paths).1.IsTree s ∧
      ∀ path c path' c', (path, .ok c) ∈ paths.zip (resolveAll s (.ofRoot root) paths).2 →
        (path', .ok c') ∈ paths.zip (resolveAll s (.ofRoot root) paths).2 →
        Respelled s root path path' → c.scope = c'.scope ∧ c.column = c'.column := by
  have ht := hnames.tellsApart
  have hs := Schema.ascends hb
  obtain ⟨d, hbuilt⟩ := Schema.build_ok hb
  obtain ⟨hhomed, -, hreads⟩ := resolveAll_reads ht hs hbuilt.acyclic
    (JoinGraph.homed_ofRoot s root) paths
  rw [show (JoinGraph.ofRoot root).root = root from rfl] at hreads
  refine ⟨hhomed.isTree, fun path c path' c' hc hc' hsame => ?_⟩
  obtain ⟨r, hr, hread⟩ := hreads path c hc
  obtain ⟨r', hr', hread'⟩ := hreads path' c' hc'
  have heq := hsame.names.readNames_eq ht hs
  rw [readNames_of_read hsame.member hr, readNames_of_read hsame.member' hr'] at heq
  obtain ⟨hway, hcolumn⟩ := Prod.mk.inj (Except.ok.inj heq)
  refine ⟨hhomed.trail_injective hread.reached hread'.reached ?_, ?_⟩
  · rw [hread.trail, hread'.trail, hway]
  · rw [hread.column, hread'.column, hcolumn]

/-- Of these the first resolves as far as to the customer, and the others name the customer of an
order that is an invoice. -/
def invoicePaths : List String :=
  ["Customer.Missing.Name", "Customer.Name", "max( ORDER . customer .Name)"]

theorem respelled_invoicePaths :
    Respelled Plan.salesSchema 1 "Customer.Name" "max( ORDER . customer .Name)" where
  member := by decide +kernel
  member' := by decide +kernel
  names := by
    have hshort : named "Customer.Name" = ["Customer", "Name"] :=
      @named_dotted ["Customer", "Name"] (by decide) (by decide) (by decide)
    have hlong : named "max( ORDER . customer .Name)" = ["ORDER", "customer", "Name"] :=
      @named_call "max" [" ORDER ", " customer ", "Name"]
        ⟨by decide, by decide⟩ (by decide) (by decide) (by decide) (by decide)
    obtain ⟨base, hbase, hname⟩ : ∃ base,
        (Plan.salesSchema.entity 1).baseNavigation? = some base ∧ base.name = "Order" :=
      ⟨_, rfl, rfl⟩
    obtain ⟨owner, toOrder, hupper, htarget⟩ : ∃ owner n,
        Plan.salesSchema.nearestNavigation? (Plan.salesSchema.entity 1) "Order" = some (owner, n) ∧
          n.target = 0 := ⟨_, _, rfl, rfl⟩
    obtain ⟨owner', toCustomer, hcustomer⟩ : ∃ owner n,
        Plan.salesSchema.nearestNavigation? (Plan.salesSchema.entity 0) "Customer" =
          some (owner, n) := ⟨_, _, rfl⟩
    have hclimbs : Climbs Plan.salesSchema 1 ["Customer", "Name"] := ⟨rfl, rfl⟩
    have hwritten := NamesRespelled.base hbase hclimbs
    have hrest : NamesRespelled Plan.salesSchema toOrder.target ["Customer", "Name"]
        ["customer", "Name"] := by
      rw [htarget]
      exact .name (by decide) hcustomer (.refl _ _)
    rw [hname] at hwritten
    rw [hshort, hlong]
    exact hwritten.symm.trans (.name (by decide) hupper hrest)

theorem resolveAll_shared_invoicePaths : Plan.salesSchema.NamesApart ∧ ∃ g c c' e,
    resolveAll Plan.salesSchema (.ofRoot 1) invoicePaths = (g, [.error e, .ok c, .ok c']) ∧
      g.IsTree Plan.salesSchema ∧ c.scope = c'.scope ∧ c.column = c'.column ∧
      c.measure = .value ∧ c'.measure = .aggregate "MAX" := by
  have hnames : Plan.salesSchema.NamesApart := by decide +kernel
  obtain ⟨htree, hsame⟩ := resolveAll_shared Plan.salesSchema_builds hnames 1 invoicePaths
  have hmeasures : (resolveAll Plan.salesSchema (.ofRoot 1) invoicePaths).2.map
      (·.toOption.map (·.measure)) = [none, some .value, some (.aggregate "MAX")] := by
    decide +kernel
  revert htree hsame hmeasures
  generalize resolveAll Plan.salesSchema (.ofRoot 1) invoicePaths = run
  rintro htree hsame hmeasures
  obtain ⟨g, results⟩ := run
  match results with
  | [.error e, .ok c, .ok c'] =>
    simp only [List.map_cons, List.map_nil, Except.toOption, Option.map_some, List.cons.injEq,
      Option.some.injEq] at hmeasures
    obtain ⟨hscope, hcolumn⟩ := hsame "Customer.Name" c "max( ORDER . customer .Name)" c'
      (by simp [invoicePaths]) (by simp [invoicePaths]) respelled_invoicePaths
    exact ⟨hnames, g, c, c', e, rfl, htree, hscope, hcolumn, hmeasures.2.1, hmeasures.2.2.1⟩
  | [] | [_] | [_, _] | _ :: _ :: _ :: _ :: _ => simp at hmeasures
  | .ok _ :: _ => simp [Except.toOption] at hmeasures
  | [_, .error _, _] => simp [Except.toOption] at hmeasures
  | [_, _, .error _] => simp [Except.toOption] at hmeasures

end Member
end EntityQuery
