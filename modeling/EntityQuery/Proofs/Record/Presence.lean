import EntityQuery.Proofs.Plan.Compiled
import EntityQuery.Proofs.Plan.Homed
import EntityQuery.Proofs.Record.Merged

/-! Where there are records.

A scope has data when the row has a value other than null under its alias. A record without data is
left out, and whether it has any is decided from below: a nested record that is there is data, and
what a base brings comes into the record of its subtype. So a record has data only where a scope of
its subtree has (`Rooted.hasDataBelow_of_record`). The other way round nothing may be lost when
bases are merged; then there are records exactly where there is data (`records_presented`). -/
namespace EntityQuery

namespace OrderedMap
variable {α : Type u} {m : OrderedMap α} {key other : String} {value : α} {entry : String × α}

theorem mem_keys_put : other ∈ keys (put m key value) ↔ other ∈ keys m ∨ other = key := by
  rw [keys_put]
  split
  · next hkey => exact ⟨Or.inl, fun h => h.elim id fun heq => heq ▸ hkey⟩
  · rw [List.mem_append, List.mem_singleton]

theorem mem_put (h : entry ∈ put m key value) : entry ∈ m ∨ entry = (key, value) := by
  induction m with
  | nil => exact .inr (List.mem_singleton.1 h)
  | cons first rest ih =>
    obtain ⟨name, v⟩ := first
    by_cases hname : name = key
    · rw [put, if_pos hname, List.mem_cons, hname] at h
      exact h.elim .inr fun h => .inl (List.mem_cons_of_mem _ h)
    · rw [put, if_neg hname, List.mem_cons] at h
      apply h.elim
      · exact fun heq => .inl (heq ▸ List.mem_cons_self ..)
      · exact fun h => (ih h).imp_left (List.mem_cons_of_mem _)

theorem mem_keys_putNew : other ∈ keys (putNew m key value) ↔ other ∈ keys m ∨ other = key := by
  unfold putNew
  split
  · next hkey =>
    obtain ⟨v, hv⟩ := Option.isSome_iff_exists.1 hkey
    have hmem : key ∈ keys m := List.mem_map_of_mem (mem_of_get? hv)
    exact ⟨Or.inl, fun h => h.elim id fun heq => heq ▸ hmem⟩
  · simp [keys]

theorem mem_putNew (h : entry ∈ putNew m key value) : entry ∈ m ∨ entry = (key, value) := by
  unfold putNew at h
  split at h
  · exact .inl h
  · exact (List.mem_append.1 h).imp_right List.mem_singleton.1

end OrderedMap

namespace Record
open OrderedMap (keys)
variable {r nested : Record} {n : Navigation} {name : String} {entry : String × Record}

/-- Data are a value that is not null or a nested record. -/
theorem isVoid_eq_false : r.isVoid = false ↔
    (∃ held ∈ r.values, held.2 ≠ .null) ∨ ∃ name, name ∈ keys r.navigations := by
  have hnavigations : r.navigations.isEmpty = false ↔ ∃ name, name ∈ keys r.navigations := by
    cases r.navigations with
    | nil => simp [keys]
    | cons first rest => simp [keys]
  rw [isVoid, Bool.and_eq_false_iff, hnavigations, List.all_eq_false]
  simp only [Value.isNull_iff, ne_eq]

/-! ### What a join brings -/

theorem mem_keys_absorbed (entries navigations : List (String × Record)) :
    name ∈ keys (entries.foldl
        (fun navigations entry => OrderedMap.putNew navigations entry.1 entry.2) navigations) ↔
      name ∈ keys navigations ∨ name ∈ keys entries := by
  induction entries generalizing navigations with
  | nil => simp [keys]
  | cons first rest ih =>
    rw [List.foldl_cons, ih, OrderedMap.mem_keys_putNew, or_assoc]
    simp [keys]

theorem mem_absorbed (entries navigations : List (String × Record))
    (h : entry ∈ entries.foldl
      (fun navigations entry => OrderedMap.putNew navigations entry.1 entry.2) navigations) :
    entry ∈ navigations ∨ entry ∈ entries := by
  induction entries generalizing navigations with
  | nil => exact .inl h
  | cons first rest ih =>
    obtain h | h := ih _ h
    · apply (OrderedMap.mem_putNew h).imp_right
      intro heq
      rw [heq]
      exact List.mem_cons_self ..
    · exact .inr (List.mem_cons_of_mem _ h)

/-- A base brings its navigations, and another join its record under its own name if there is data
in it. -/
theorem mem_keys_attach : name ∈ keys (r.attach n nested).navigations ↔
    name ∈ keys r.navigations ∨ if n.inheritance then name ∈ keys nested.navigations
      else nested.isVoid = false ∧ n.name = name := by
  unfold attach
  split
  · rw [absorb]
    exact mem_keys_absorbed ..
  · split
    · next hvoid => simp [hvoid]
    · next hdata =>
      rw [Bool.not_eq_true] at hdata
      rw [OrderedMap.mem_keys_put, hdata, eq_comm (a := n.name)]
      simp

/-- Every nested record is one that a join brought, as it is. -/
theorem mem_attach (h : entry ∈ (r.attach n nested).navigations) : entry ∈ r.navigations ∨
    if n.inheritance then entry ∈ nested.navigations else entry = (n.name, nested) := by
  unfold attach at h
  split at h
  · next hbase =>
    rw [if_pos hbase]
    exact mem_absorbed _ _ h
  · next hother =>
    rw [if_neg hother]
    split at h
    · exact .inl h
    · exact OrderedMap.mem_put h

/-- Absorbing brings no value that was nowhere before. -/
theorem mem_absorbValues {entries values : OrderedMap Value} {held : String × Value}
    (h : held ∈ entries.foldl absorbValue values) :
    ∃ source ∈ values ++ entries, source.2 = held.2 := by
  induction entries generalizing values with
  | nil => exact ⟨held, by simpa using h, rfl⟩
  | cons first rest ih =>
    obtain ⟨source, hsource, heq⟩ := ih h
    obtain hsource | hsource := List.mem_append.1 hsource
    · obtain hsource | rfl := OrderedMap.mem_put hsource
      · exact ⟨source, List.mem_append_left _ hsource, heq⟩
      · exact ⟨first, List.mem_append_right _ (List.mem_cons_self ..), heq⟩
    · exact ⟨source, List.mem_append_right _ (List.mem_cons_of_mem _ hsource), heq⟩

end Record

namespace JoinGraph
open OrderedMap (keys)

variable {s : Schema} {g : JoinGraph} {names : Naming} {row : Row}

/-! ### Data -/

/-- Whether the row has a value other than null for a column of the scope. -/
def hasData (g : JoinGraph) (names : Naming) (row : Row) (scope : Nat) : Bool :=
  row.any fun entry => (readAs? (g.aliasName names scope) entry).isSome && !entry.2.isNull

theorem hasData_iff {scope : Nat} : g.hasData names row scope = true ↔
    ∃ column v, (rowName (g.aliasName names scope) column, v) ∈ row ∧ v ≠ .null := by
  simp only [hasData, List.any_eq_true, Bool.and_eq_true, Option.isSome_iff_exists, Prod.exists,
    readAs?_eq_some, Bool.not_eq_true', Bool.eq_false_iff, ne_eq, Value.isNull_iff, Prod.mk.injEq]
  constructor
  · rintro ⟨_, v, hmem, ⟨column, _, rfl, rfl⟩, hv⟩
    exact ⟨column, v, hmem, hv⟩
  · rintro ⟨column, v, hmem, hv⟩
    exact ⟨_, v, hmem, ⟨column, v, rfl, rfl⟩, hv⟩

/-- A scope hangs off another over one join. -/
def Hangs (g : JoinGraph) (scope below : Nat) : Prop := ∃ j ∈ g.children scope, below = j + 1

/-- The scope or one below it has data, over joins of any kind. -/
def HasDataBelow (g : JoinGraph) (names : Naming) (row : Row) (scope : Nat) : Prop :=
  ∃ below, Relation.ReflTransGen g.Hangs scope below ∧ g.hasData names row below = true

theorem hasDataBelow_iff {scope : Nat} : g.HasDataBelow names row scope ↔
    g.hasData names row scope = true ∨
      ∃ j ∈ g.children scope, g.HasDataBelow names row (j + 1) := by
  constructor
  · rintro ⟨below, hway, hdata⟩
    obtain rfl | ⟨_, ⟨j, hj, rfl⟩, hrest⟩ := Relation.ReflTransGen.cases_head_iff.1 hway
    · exact .inl hdata
    · exact .inr ⟨j, hj, below, hrest, hdata⟩
  · rintro (hdata | ⟨j, hj, below, hway, hdata⟩)
    · exact ⟨scope, .refl, hdata⟩
    · exact ⟨below, .head ⟨j, hj, rfl⟩ hway, hdata⟩

/-- Every scope of the graph is below the root. -/
theorem Rooted.hangs_root (hg : g.Rooted) {scope : Nat} (h : scope ≤ g.joins.length) :
    Relation.ReflTransGen g.Hangs 0 scope := by
  induction scope using Nat.strongRecOn with
  | ind scope ih =>
    cases scope with
    | zero => exact .refl
    | succ j =>
      have hle := hg j
      have hparent := ih (g.parent j) (by omega) (by omega)
      exact hparent.tail ⟨j, mem_children.2 ⟨h, rfl⟩, rfl⟩

theorem hangs_le {scope below : Nat} (hway : Relation.ReflTransGen g.Hangs scope below)
    (h : scope ≤ g.joins.length) : below ≤ g.joins.length := by
  induction hway with
  | refl => exact h
  | tail _ hlast _ =>
    obtain ⟨j, hj, rfl⟩ := hlast
    exact (mem_children.1 hj).1

theorem Rooted.hasDataBelow_root (hg : g.Rooted) : g.HasDataBelow names row 0 ↔
    ∃ scope ≤ g.joins.length, g.hasData names row scope = true := by
  constructor
  · rintro ⟨scope, hway, hdata⟩
    exact ⟨scope, hangs_le hway (Nat.zero_le _), hdata⟩
  · rintro ⟨scope, hscope, hdata⟩
    exact ⟨scope, hg.hangs_root hscope, hdata⟩

/-! ### Navigations -/

theorem mem_children_iff {scope j : Nat} : j ∈ g.children scope ↔
    ∃ join, g.joins[j]? = some join ∧ join.parent = scope := by
  rw [mem_children, parent]
  constructor
  · intro h
    obtain ⟨hlen, hparent⟩ := h
    have hget := List.getElem?_eq_getElem hlen
    exact ⟨_, hget, by simpa [hget] using hparent⟩
  · intro h
    obtain ⟨join, hget, hparent⟩ := h
    exact ⟨(List.getElem?_eq_some_iff.1 hget).1, by simpa [hget] using hparent⟩

theorem mem_bases_iff {scope j : Nat} : j ∈ g.bases scope ↔
    ∃ join, g.joins[j]? = some join ∧ join.parent = scope ∧ join.navigation.inheritance = true := by
  rw [← inherits_iff]
  simp [Inherits]

/-- The join is followed by a navigation of this name, from the scope itself or from one that is
merged into it. -/
def Offers (g : JoinGraph) (scope : Nat) (name : String) (j : Nat) : Prop :=
  ∃ join, g.joins[j]? = some join ∧ join.parent ∈ g.merged scope ∧
    join.navigation.inheritance = false ∧ join.navigation.name = name

theorem Rooted.offers_iff (hg : g.Rooted) {scope j : Nat} {name : String} :
    g.Offers scope name j ↔
      (∃ join, g.joins[j]? = some join ∧ join.parent = scope ∧
        join.navigation.inheritance = false ∧ join.navigation.name = name) ∨
      ∃ base ∈ g.bases scope, g.Offers (base + 1) name j := by
  have hmerged (other : Nat) : other ∈ g.merged scope ↔
      other = scope ∨ ∃ base ∈ g.bases scope, other ∈ g.merged (base + 1) := by
    rw [hg.merged_eq, List.mem_cons, List.mem_flatMap]
  simp only [Offers, hmerged]
  constructor
  · intro ⟨join, hget, hparent, hother, hname⟩
    obtain hparent | ⟨base, hbase, hparent⟩ := hparent
    · exact .inl ⟨join, hget, hparent, hother, hname⟩
    · exact .inr ⟨base, hbase, join, hget, hparent, hother, hname⟩
  · intro h
    obtain ⟨join, hget, hparent, hother, hname⟩ | ⟨base, hbase, join, hget, hparent, hrest⟩ := h
    · exact ⟨join, hget, .inl hparent, hother, hname⟩
    · exact ⟨join, hget, .inr ⟨base, hbase, hparent⟩, hrest⟩

/-- What a join brings to the navigations of a record, in the words of a test on them. -/
theorem mem_keys_attachJoins (js : List Nat) (r : Record) (name : String) :
    name ∈ keys (js.foldl (attachJoin s g names row) r).navigations ↔
      name ∈ keys r.navigations ∨ ∃ j ∈ js, ∃ join, g.joins[j]? = some join ∧
        if join.navigation.inheritance then name ∈ keys (g.recordOf s names row (j + 1)).navigations
        else (g.recordOf s names row (j + 1)).isVoid = false ∧ join.navigation.name = name := by
  induction js generalizing r with
  | nil => simp
  | cons j rest ih =>
    rw [List.foldl_cons, ih, attachJoin]
    cases hj : g.joins[j]? with
    | none => simp [hj]
    | some join => simp [hj, Record.mem_keys_attach, or_assoc]

theorem mem_attachJoins (js : List Nat) (r : Record) {entry : String × Record}
    (h : entry ∈ (js.foldl (attachJoin s g names row) r).navigations) :
    entry ∈ r.navigations ∨ ∃ j ∈ js, ∃ join, g.joins[j]? = some join ∧
      if join.navigation.inheritance then entry ∈ (g.recordOf s names row (j + 1)).navigations
      else entry = (join.navigation.name, g.recordOf s names row (j + 1)) := by
  induction js generalizing r with
  | nil => exact .inl h
  | cons j rest ih =>
    obtain h | ⟨k, hk, hbrought⟩ := ih _ h
    · rw [attachJoin] at h
      cases hj : g.joins[j]? with
      | none =>
        rw [hj] at h
        exact .inl h
      | some join =>
        rw [hj] at h
        apply (Record.mem_attach h).imp_right
        exact fun hbrought => ⟨j, List.mem_cons_self .., join, hj, hbrought⟩
    · exact .inr ⟨k, List.mem_cons_of_mem _ hk, hbrought⟩

/-- Bases absorbed one after another bring no value that was nowhere before. -/
theorem mem_absorbedBases (js : List Nat) {values : OrderedMap Value} {held : String × Value}
    (h : held ∈ js.foldl (fun values j =>
      (g.recordOf s names row (j + 1)).values.foldl Record.absorbValue values) values) :
    (∃ source ∈ values, source.2 = held.2) ∨
      ∃ j ∈ js, ∃ source ∈ (g.recordOf s names row (j + 1)).values, source.2 = held.2 := by
  induction js generalizing values with
  | nil => exact .inl ⟨held, h, rfl⟩
  | cons j rest ih =>
    obtain ⟨source, hsource, heq⟩ | ⟨k, hk, hbrought⟩ := ih h
    · obtain ⟨first, hfirst, heq'⟩ := Record.mem_absorbValues hsource
      obtain hfirst | hfirst := List.mem_append.1 hfirst
      · exact .inl ⟨first, hfirst, heq'.trans heq⟩
      · exact .inr ⟨j, List.mem_cons_self .., first, hfirst, heq'.trans heq⟩
    · exact .inr ⟨k, List.mem_cons_of_mem _ hk, hbrought⟩

section Tree
variable (hg : g.Rooted)
include hg

/-- A record has a navigation exactly where a join that is offered under its name has data. -/
theorem Rooted.mem_keys_recordOf (scope : Nat) (name : String) :
    name ∈ keys (g.recordOf s names row scope).navigations ↔
      ∃ j, g.Offers scope name j ∧ (g.recordOf s names row (j + 1)).isVoid = false := by
  refine hg.induction_below (motive := fun scope =>
    name ∈ keys (g.recordOf s names row scope).navigations ↔
      ∃ j, g.Offers scope name j ∧ (g.recordOf s names row (j + 1)).isVoid = false)
    (fun scope ih => ?_) scope
  rw [hg.recordOf_eq, mem_keys_attachJoins]
  constructor
  · intro h
    obtain hnone | ⟨j, hj, join, hget, hbrought⟩ := h
    · exact absurd hnone List.not_mem_nil
    obtain ⟨_, hget', hparent⟩ := mem_children_iff.1 hj
    obtain rfl := Option.some.inj (hget.symm.trans hget')
    split at hbrought
    · next hbase =>
      obtain ⟨k, hoffers, hdata⟩ := (ih j hj).1 hbrought
      have hmem := mem_bases_iff.2 ⟨join, hget, hparent, hbase⟩
      exact ⟨k, hg.offers_iff.2 (.inr ⟨j, hmem, hoffers⟩), hdata⟩
    · next hother =>
      rw [Bool.not_eq_true] at hother
      exact ⟨j, hg.offers_iff.2 (.inl ⟨join, hget, hparent, hother, hbrought.2⟩), hbrought.1⟩
  · intro ⟨k, hoffers, hdata⟩
    right
    obtain ⟨join, hget, hparent, hother, hname⟩ | ⟨j, hj, hoffers⟩ := hg.offers_iff.1 hoffers
    · refine ⟨k, mem_children_iff.2 ⟨join, hget, hparent⟩, join, hget, ?_⟩
      rw [if_neg (by simp [hother])]
      exact ⟨hdata, hname⟩
    · obtain ⟨join, hget, hparent, hbase⟩ := mem_bases_iff.1 hj
      have hchild := mem_children_iff.2 ⟨join, hget, hparent⟩
      refine ⟨j, hchild, join, hget, ?_⟩
      rw [if_pos hbase]
      exact (ih j hchild).2 ⟨k, hoffers, hdata⟩

/-- What is nested in a record is the record of a scope that is offered under that name. -/
theorem Rooted.nested_recordOf (scope : Nat) {name : String} {r : Record}
    (h : (name, r) ∈ (g.recordOf s names row scope).navigations) :
    ∃ j, g.Offers scope name j ∧ r = g.recordOf s names row (j + 1) := by
  refine hg.induction_below (motive := fun scope =>
    (name, r) ∈ (g.recordOf s names row scope).navigations →
      ∃ j, g.Offers scope name j ∧ r = g.recordOf s names row (j + 1))
    (fun scope ih h => ?_) scope h
  rw [hg.recordOf_eq] at h
  obtain hnone | ⟨j, hj, join, hget, hbrought⟩ := mem_attachJoins _ _ h
  · exact absurd hnone List.not_mem_nil
  obtain ⟨_, hget', hparent⟩ := mem_children_iff.1 hj
  obtain rfl := Option.some.inj (hget.symm.trans hget')
  split at hbrought
  · next hbase =>
    obtain ⟨k, hoffers, hr⟩ := ih j hj hbrought
    have hmem := mem_bases_iff.2 ⟨join, hget, hparent, hbase⟩
    exact ⟨k, hg.offers_iff.2 (.inr ⟨j, hmem, hoffers⟩), hr⟩
  · next hother =>
    rw [Bool.not_eq_true] at hother
    obtain ⟨hname, hr⟩ := Prod.mk.inj hbrought
    exact ⟨j, hg.offers_iff.2 (.inl ⟨join, hget, hparent, hother, hname.symm⟩), hr⟩

/-! ### Records and data -/

/-- The data of a record are its scope's own or those of a record below. -/
theorem Rooted.record_below (hkeys : row.keys.Nodup) (scope : Nat)
    (h : (g.recordOf s names row scope).isVoid = false) : g.hasData names row scope = true ∨
      ∃ j ∈ g.children scope, (g.recordOf s names row (j + 1)).isVoid = false := by
  obtain ⟨held, hmem, hvalue⟩ | ⟨name, hname⟩ := Record.isVoid_eq_false.1 h
  · rw [hg.values_recordOf] at hmem
    obtain ⟨source, hsource, heq⟩ | ⟨j, hj, source, hsource, heq⟩ := mem_absorbedBases _ hmem
    · have hread := (mem_ownValues hkeys _).1 hsource
      exact .inl (hasData_iff.2 ⟨source.1, source.2, hread, heq ▸ hvalue⟩)
    · have hdata := Record.isVoid_eq_false.2 (.inl ⟨source, hsource, heq ▸ hvalue⟩)
      exact .inr ⟨j, List.mem_of_mem_filter hj, hdata⟩
  · rw [hg.recordOf_eq, mem_keys_attachJoins] at hname
    obtain hnone | ⟨j, hj, join, -, hbrought⟩ := hname
    · exact absurd hnone List.not_mem_nil
    · split at hbrought
      · exact .inr ⟨j, hj, Record.isVoid_eq_false.2 (.inr ⟨name, hbrought⟩)⟩
      · exact .inr ⟨j, hj, hbrought.1⟩

/-- **A record has data only where there are data** in the scopes below. -/
theorem Rooted.hasDataBelow_of_record (hkeys : row.keys.Nodup) (scope : Nat)
    (h : (g.recordOf s names row scope).isVoid = false) : g.HasDataBelow names row scope := by
  refine hg.induction_below (motive := fun scope =>
    (g.recordOf s names row scope).isVoid = false → g.HasDataBelow names row scope)
    (fun scope ih h => ?_) scope h
  rw [hasDataBelow_iff]
  apply (hg.record_below hkeys scope h).imp_right
  intro ⟨j, hj, hdata⟩
  exact ⟨j, hj, ih j hj hdata⟩

variable (hbase : g.SingleBase) (hkeys : row.keys.Nodup) (hrow : ∀ name ∈ row.keys, Unmarked name)
include hbase hkeys hrow

/-- No value of a merged scope is lost to another. -/
theorem Rooted.exists_value_iff (scope : Nat) :
    (∃ held ∈ (g.recordOf s names row scope).values, held.2 ≠ .null) ↔
      ∃ column ∈ g.columns names row (g.merged scope), column.2.2 ≠ .null := by
  have hcarried : List.Forall₂ Carried (g.columns names row (g.merged scope))
      (g.recordOf s names row scope).values := (hg.carried_recordOf hbase hkeys hrow scope).2.1
  generalize g.columns names row (g.merged scope) = columns,
    (g.recordOf s names row scope).values = values at hcarried
  induction hcarried with
  | nil => simp
  | cons hheld _ ih => simp only [List.exists_mem_cons_iff, ih, hheld.1]

/-- What a scope or a record below has is in the record. -/
theorem Rooted.record_of_below (scope : Nat) (h : g.hasData names row scope = true ∨
    ∃ j ∈ g.children scope, (g.recordOf s names row (j + 1)).isVoid = false) :
    (g.recordOf s names row scope).isVoid = false := by
  obtain ⟨hall, htail⟩ := hg.columns_merged names row scope
  rw [Record.isVoid_eq_false, hg.exists_value_iff hbase hkeys hrow]
  obtain hdata | ⟨j, hj, hdata⟩ := h
  · obtain ⟨column, v, hmem, hv⟩ := hasData_iff.1 hdata
    have hown := (mem_ownValues hkeys _).2 hmem
    refine .inl ⟨(scope, column, v), ?_, hv⟩
    rw [hall]
    exact List.mem_append_left _ (List.mem_map_of_mem hown)
  obtain ⟨join, hget, hparent⟩ := mem_children_iff.1 hj
  cases hinherits : join.navigation.inheritance with
  | false =>
    have hoffers := hg.offers_iff.2 (.inl ⟨join, hget, hparent, hinherits, rfl⟩)
    exact .inr ⟨_, (hg.mem_keys_recordOf scope _).2 ⟨j, hoffers, hdata⟩⟩
  | true =>
    have hmem := mem_bases_iff.2 ⟨join, hget, hparent, hinherits⟩
    rw [Record.isVoid_eq_false, hg.exists_value_iff hbase hkeys hrow] at hdata
    obtain ⟨column, hcolumn, hv⟩ | ⟨name, hname⟩ := hdata
    · refine .inl ⟨column, ?_, hv⟩
      rw [hall, htail]
      exact List.mem_append_right _ (List.mem_flatMap.2 ⟨j, hmem, hcolumn⟩)
    · obtain ⟨k, hoffers, hdata⟩ := (hg.mem_keys_recordOf (j + 1) name).1 hname
      have hoffers' := hg.offers_iff.2 (.inr ⟨j, hmem, hoffers⟩)
      exact .inr ⟨name, (hg.mem_keys_recordOf scope name).2 ⟨k, hoffers', hdata⟩⟩

theorem Rooted.record_iff (scope : Nat) : (g.recordOf s names row scope).isVoid = false ↔
    g.HasDataBelow names row scope := by
  refine ⟨hg.hasDataBelow_of_record hkeys scope, fun h => ?_⟩
  refine hg.induction_below (motive := fun scope =>
    g.HasDataBelow names row scope → (g.recordOf s names row scope).isVoid = false)
    (fun scope ih h => ?_) scope h
  apply hg.record_of_below hbase hkeys hrow scope
  apply (hasDataBelow_iff.1 h).imp_right
  intro ⟨j, hj, hbelow⟩
  exact ⟨j, hj, ih j hj hbelow⟩

end Tree

/-- Where the records of some rows are. -/
structure Presented (s : Schema) (g : JoinGraph) (names : Naming) (rows : List Row) : Prop where
  /-- A row has a record exactly when some scope of the graph has data, in the order of the rows. -/
  present : g.records s names rows =
    (rows.filter fun row => (List.range (g.joins.length + 1)).any (g.hasData names row)).map
      (g.record s names)
  root : ∀ row, g.record s names row = g.recordOf s names row 0
  /-- A navigation is there exactly when a scope is offered under its name with data below it. -/
  navigations : ∀ row ∈ rows, ∀ scope name,
    name ∈ keys (g.recordOf s names row scope).navigations ↔
      ∃ j, g.Offers scope name j ∧ g.HasDataBelow names row (j + 1)
  /-- What stands under the name is the record of such a scope. -/
  nested : ∀ row ∈ rows, ∀ scope name r,
    (name, r) ∈ (g.recordOf s names row scope).navigations →
      ∃ j, g.Offers scope name j ∧ r = g.recordOf s names row (j + 1)

/-- **Records are exactly where there is data.** Where no scope inherits over two joins, rows none
of whose names ends with the mark have records and nested records for the scopes with data below
them, and no others. -/
theorem records_presented (hg : g.Rooted) (hbase : g.SingleBase) (a : AliasSupply) {rows : List Row}
    (hkeys : ∀ row ∈ rows, row.keys.Nodup)
    (hrow : ∀ row ∈ rows, ∀ name ∈ row.keys, Unmarked name) :
    Presented s g (g.assign a).1 rows where
  present := by
    rw [records, List.filter_map]
    congr 1
    apply List.filter_congr
    intro row hmem
    have hrecord : (g.recordOf s (g.assign a).1 row 0).isVoid = false ↔
        g.HasDataBelow (g.assign a).1 row 0 :=
      hg.record_iff hbase (hkeys row hmem) (hrow row hmem) 0
    rw [hg.hasDataBelow_root] at hrecord
    rw [Bool.eq_iff_iff, Function.comp_apply, Bool.not_eq_true', List.any_eq_true]
    show (g.recordOf s (g.assign a).1 row 0).isVoid = false ↔ _
    simp only [hrecord, List.mem_range, Nat.lt_succ_iff]
  root _ := rfl
  navigations row hmem scope name := by
    rw [hg.mem_keys_recordOf]
    simp only [hg.record_iff hbase (hkeys row hmem) (hrow row hmem)]
  nested _ _ scope _ _ h := hg.nested_recordOf scope h

/-- An invoice whose customer shows only a country, and a row without data. -/
def invoiceRows : List Row := [
  [("T_Id", .int32 1), ("T_Total", .int32 5), ("J2_Name", .text "Norway")],
  [("T_Id", .null), ("T_Total", .null), ("J2_Name", .null)]]

/-- Invoices with their totals and the countries of their customers. -/
def invoicesByCountry : Query where
  entity := "Invoice"
  filter := .composite .and []
  members := ["Id", "Total", "Customer.Country.Name"]
  sorting := []
  grouping := none
  paging := none

/-- The customer is a navigation of the order, which is the invoice's base, and has no data but in
its country. -/
theorem records_presented_invoices : ∃ plan,
    Plan.select Plan.salesSchema invoicesByCountry = .ok plan ∧
    plan.layout.graph.Rooted ∧ plan.layout.graph.SingleBase ∧
    (∀ row ∈ invoiceRows, row.keys.Nodup) ∧
    (∀ row ∈ invoiceRows, ∀ name ∈ row.keys, Unmarked name) ∧
    Presented Plan.salesSchema plan.layout.graph plan.layout.names invoiceRows ∧
    (plan.layout.graph.records Plan.salesSchema plan.layout.names invoiceRows).map
      (keys ·.navigations) = [["Customer"]] := by
  obtain ⟨plan, hplan, h⟩ := Except.exists_ok
    (x := Plan.select Plan.salesSchema invoicesByCountry)
    (fun plan => decide ((plan.layout.graph.records Plan.salesSchema plan.layout.names
      invoiceRows).map (keys ·.navigations) = [["Customer"]]))
    (by decide +kernel)
  have hnames : Plan.salesSchema.NamesApart := by decide +kernel
  have hg := (Plan.select_homed Plan.salesSchema_builds hnames.tellsApart hplan).rooted
  have hbase := Plan.select_singleBase Plan.salesSchema_builds hnames.tellsApart hplan
  have hkeys : ∀ row ∈ invoiceRows, row.keys.Nodup := by decide +kernel
  have hrow : ∀ row ∈ invoiceRows, ∀ name ∈ row.keys, Unmarked name := by decide +kernel
  have hall : Presented Plan.salesSchema plan.layout.graph plan.layout.names invoiceRows :=
    Plan.select_names hplan ▸ records_presented hg hbase {} hkeys hrow
  exact ⟨plan, hplan, hg, hbase, hkeys, hrow, hall, of_decide_eq_true h⟩

/-- Pupils whose school has a name in its base only, the second without data of its own. -/
def blankRows : List Row := [
  [("T_Id", .int32 1), ("J0_Name", .null), ("J1_Name", .text "base"), ("J2_Name", .null)],
  [("T_Id", .null), ("J0_Name", .null), ("J1_Name", .text "base"), ("J2_Name", .null)]]

/-- The school's scope inherits over two joins, and the second brings null in place of the name that
the first brought. The first pupil loses the school, and the second has no record. -/
theorem pupils_blank : ∃ s g columns, Schema.build pupils = .ok s ∧
    Member.resolveEach s (.ofRoot 0) ["Id", "École.Name", "Base.Name", "Root.Name"] =
      .ok (g, columns) ∧
    g.Rooted ∧ (∀ row ∈ blankRows, row.keys.Nodup) ∧
    (∀ row ∈ blankRows, ∀ name ∈ row.keys, Unmarked name) ∧
    g.Offers 0 "École" 0 ∧ (∀ row ∈ blankRows, g.HasDataBelow (g.assign {}).1 row 1) ∧
    (g.records s (g.assign {}).1 blankRows).map (fun r => (r.values, keys r.navigations)) =
      [([("Id", .int32 1)], [])] ∧
    ¬ Presented s g (g.assign {}).1 blankRows := by
  obtain ⟨s, hs, h⟩ := Except.exists_ok (x := Schema.build pupils) (fun s =>
    match Member.resolveEach s (.ofRoot 0) ["Id", "École.Name", "Base.Name", "Root.Name"] with
    | .error _ => false
    | .ok (g, _) => decide (
        g.joins.length = 3 ∧ 1 ∈ g.children 1 ∧
        (g.joins[0]?.any fun join => join.parent == 0 && !join.navigation.inheritance &&
          join.navigation.name == "École") = true ∧
        (∀ row ∈ blankRows, g.hasData (g.assign {}).1 row 2 = true) ∧
        (g.records s (g.assign {}).1 blankRows).map (fun r => (r.values, keys r.navigations)) =
          [([("Id", .int32 1)], [])]))
    (by decide +kernel)
  cases hresolve : Member.resolveEach s (.ofRoot 0)
      ["Id", "École.Name", "Base.Name", "Root.Name"] with
  | error e => simp [hresolve] at h
  | ok found =>
    obtain ⟨g, columns⟩ := found
    simp only [hresolve, decide_eq_true_eq] at h
    obtain ⟨hlen, hchild, hschool, hdata, hrecords⟩ := h
    obtain ⟨d, hb⟩ := Schema.build_ok hs
    have hg := (Member.resolveEach_found hb.acyclic (rooted_ofRoot 0) hresolve).rooted
    have hoffers : g.Offers 0 "École" 0 := by
      obtain ⟨join, hget, hjoin⟩ := Option.any_eq_true _ _ |>.1 hschool
      simp only [Bool.and_eq_true, beq_iff_eq, Bool.not_eq_true'] at hjoin
      have hroot : 0 ∈ g.merged 0 := hg.merged_eq 0 ▸ List.mem_cons_self ..
      exact ⟨join, hget, hjoin.1.1 ▸ hroot, hjoin.1.2, hjoin.2⟩
    have hbelow : ∀ row ∈ blankRows, g.HasDataBelow (g.assign {}).1 row 1 := fun row hmem =>
      ⟨2, .single ⟨1, hchild, rfl⟩, hdata row hmem⟩
    refine ⟨s, g, columns, hs, hresolve, hg, by decide +kernel, by decide +kernel, hoffers, hbelow,
      hrecords, fun hall => ?_⟩
    -- Both rows have data, and there is one record.
    have hlength := congrArg List.length hrecords
    have hkept : (blankRows.filter fun row =>
        (List.range (g.joins.length + 1)).any (g.hasData (g.assign {}).1 row)) = blankRows := by
      apply List.filter_eq_self.2
      intro row hmem
      exact List.any_eq_true.2 ⟨2, List.mem_range.2 (by omega), hdata row hmem⟩
    rw [hall.present, hkept] at hlength
    exact absurd hlength (by simp [blankRows])

end JoinGraph
end EntityQuery
