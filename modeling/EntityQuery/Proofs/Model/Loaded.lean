import EntityQuery.Model.Descriptor
import EntityQuery.Proofs.Plan.Homed
import EntityQuery.Proofs.Record.Merged

/-! What the fields of a model are set from.

A member is resolved to a column of the scope of the entity that declares it. The record that a
model is loaded from has that column among those of the merged scopes, and the field asks for it by
its name alone. It gets the first column of this name in the order of the merged scopes: the one
the member was resolved to unless a nearer scope shows a column of that name too
(`fields_loaded`). -/
namespace EntityQuery

variable {s : Schema}

/-! ### Fields -/

namespace Descriptor

variable {μ : Type}

/-- Sets a field from a value. Null leaves it alone. -/
def setFrom (e : Entity) (member : String) (set : μ → Value → Except Error μ) (v : Value)
    (model : μ) : Except Error μ :=
  if v.isNull then .ok model else inContext (.usage (.loading e.name member)) (set model v)

/-- Wherever a member is registered among the fields, loading sets it from this value. -/
def LoadsFrom (d : Descriptor μ) (s : Schema) (e : Entity) (r : Record) (member : String)
    (v : Value) : Prop :=
  ∀ earlier set later, s.resolve d.entity = .ok e →
    d.fields = earlier ++ (member, set) :: later → d.load s r = do
      let model ← inContext (.usage (.constructing e.name)) (d.construct.run' (arguments s e r))
      let model ← earlier.foldlM (setField s e r) model
      let model ← setFrom e member set v model
      let model ← later.foldlM (setField s e r) model
      let (model, _) ← d.navigations.foldlM (setNavigation s) (model, r.navigations)
      return model

/-- The field of a mapped member that no constructor takes is set from its column. -/
theorem setField_eq {e owner : Entity} {r : Record} {member : String} {p : Property} {v : Value}
    (hp : s.nearestProperty? e member = some (owner, p)) (hmapped : p.ignored = false)
    (hfree : p.constructor = none) (hv : r.value? p.column = some v)
    (set : μ → Value → Except Error μ) (model : μ) :
    setField s e r model (member, set) = setFrom e member set v model := by
  have hcolumn : fieldColumn? s e member = some p.column := by
    simp [fieldColumn?, hp, hmapped, hfree]
  cases hnull : v.isNull <;>
    simp [setField, setFrom, fieldValue?, hcolumn, hv, hnull]

theorem loadsFrom_of_value {e owner : Entity} {r : Record} {member : String} {p : Property}
    {v : Value} (hp : s.nearestProperty? e member = some (owner, p)) (hmapped : p.ignored = false)
    (hfree : p.constructor = none) (hv : r.value? p.column = some v) (d : Descriptor μ) :
    d.LoadsFrom s e r member v := by
  intro earlier set later he hfields
  have hset := setField_eq hp hmapped hfree hv set
  have hfound : (s.resolve d.entity).mapError (fun fault => Error.ofCause (.mapping fault)) =
      .ok e := by rw [he]; rfl
  have hbind : ∀ f : Entity → Except Error μ, (Except.ok e >>= f) = f e := fun _ => rfl
  simp only [load, hfound, hbind, hfields, List.foldlM_append, List.foldlM_cons, hset, bind_assoc]

end Descriptor

/-! ### Records -/

namespace OrderedMap

variable {α : Type} {own middle : OrderedMap α} {key : String}

/-- Where nothing before has the name, the entry of this name is found. -/
theorem named?_or_first (h : ∀ entry ∈ own ++ middle, Text.sameName entry.1 key = false) (value : α)
    (rest : OrderedMap α) :
    (named? own key).or (getFold? (middle ++ (key, value) :: rest) key) = some value := by
  obtain ⟨hown, hmiddle⟩ := List.forall_mem_append.1 h
  rw [named?_eq_none (getFold?_eq_none.2 hown), getFold?_append, getFold?_eq_none.2 hmiddle]
  simp [getFold?]

/-- Where something before has the name, the value is one of those. -/
theorem named?_or_rival (h : ∃ entry ∈ own ++ middle, Text.sameName entry.1 key = true)
    (rest : OrderedMap α) : ∃ entry ∈ own ++ middle, Text.sameName entry.1 key = true ∧
      (named? own key).or (getFold? (middle ++ rest) key) = some entry.2 := by
  rw [getFold?_append]
  cases hown : named? own key with
  | some value =>
    obtain ⟨name, hmem, hsame⟩ := named?_some hown
    exact ⟨(name, value), List.mem_append_left _ hmem, hsame, rfl⟩
  | none =>
    have hfree := getFold?_eq_none.1 (Option.or_eq_none_iff.1 hown).2
    cases hmiddle : getFold? middle key with
    | some value =>
      obtain ⟨name, hmem, hsame⟩ := getFold?_some hmiddle
      exact ⟨(name, value), List.mem_append_right _ hmem, hsame, rfl⟩
    | none =>
      obtain ⟨entry, hmem, hsame⟩ := h
      have hnot := List.forall_mem_append.2 ⟨hfree, getFold?_eq_none.1 hmiddle⟩ entry hmem
      simp [hnot] at hsame

end OrderedMap

namespace JoinGraph

variable {g : JoinGraph} {names : Naming} {row : Row}

theorem mem_columns {scopes : List Nat} {scope : Nat} {entry : String × Value} :
    (scope, entry) ∈ g.columns names row scopes ↔
      scope ∈ scopes ∧ entry ∈ ownValues (g.aliasName names scope) row := by
  simp [columns, List.mem_flatMap]

section Columns
variable {scope found : Nat} {column : String} {v : Value}
  {before after : List (Nat × String × Value)}
  (h : g.columns names row (g.merged scope) = before ++ (found, column, v) :: after)
include h

/-- The scope's own columns stand before the columns of the scopes beyond it. -/
theorem Rooted.columns_beyond (hg : g.Rooted) (hne : found ≠ scope) : ∃ middle,
    before = (ownValues (g.aliasName names scope) row).map (scope, ·) ++ middle ∧
      g.columns names row (g.merged scope).tail = middle ++ (found, column, v) :: after := by
  have hall := (hg.columns_merged names row scope).1
  rw [h] at hall
  obtain ⟨middle, hown, htail⟩ | ⟨middle, hbefore, htail⟩ := List.append_eq_append_iff.1 hall
  · cases middle with
    | nil => exact ⟨[], by simpa using hown.symm, htail.symm⟩
    | cons first rest =>
      obtain ⟨rfl, -⟩ := List.cons.inj htail
      have hmem : (found, column, v) ∈
          (ownValues (g.aliasName names scope) row).map (scope, ·) := by simp [hown]
      obtain ⟨own, -, heq⟩ := List.mem_map.1 hmem
      exact absurd (Prod.mk.inj heq).1.symm hne
  · exact ⟨middle, hbefore, htail⟩

/-- A column that comes first of its name among the merged scopes, or that is the scope's own, is
found by its name. Else one of those before it is. -/
theorem Rooted.value?_recordOf (hg : g.Rooted) (hkeys : row.keys.Nodup) (hname : Plain column) :
    ((found = scope ∨ ∀ other ∈ before, Text.sameName other.2.1 column = false) →
      (g.recordOf s names row scope).value? column = some v) ∧
    (found ≠ scope → (∃ other ∈ before, Text.sameName other.2.1 column = true) →
      ∃ rival ∈ before, Text.sameName rival.2.1 column = true ∧
        (g.recordOf s names row scope).value? column = some rival.2.2) := by
  obtain ⟨-, hlookup⟩ := hg.lookup_recordOf hname s names row scope
  rw [hlookup]
  by_cases hscope : found = scope
  · refine ⟨fun _ => ?_, fun hne => absurd hscope hne⟩
    have hmem : (found, column, v) ∈ g.columns names row (g.merged scope) := by simp [h]
    rw [hscope] at hmem
    have hown := OrderedMap.get?_of_mem (nodup_ownValues hkeys _) (mem_columns.1 hmem).2
    rw [OrderedMap.named?, hown, Option.some_or, Option.some_or]
  · obtain ⟨middle, hbefore, htail⟩ := hg.columns_beyond h hscope
    have hentries : before.map Prod.snd =
        ownValues (g.aliasName names scope) row ++ middle.map Prod.snd := by
      simp [hbefore, Function.comp_def]
    rw [htail, List.map_append, List.map_cons]
    refine ⟨fun hfree => ?_, fun _ hrival => ?_⟩
    · have hfirst : ∀ entry ∈ before.map Prod.snd, Text.sameName entry.1 column = false :=
        List.forall_mem_map.2 (hfree.resolve_left hscope)
      exact OrderedMap.named?_or_first (hentries ▸ hfirst) v _
    · obtain ⟨other, hmem, hsame⟩ := hrival
      obtain ⟨entry, hentry, hsame, hfound⟩ := OrderedMap.named?_or_rival
        ⟨other.2, hentries ▸ List.mem_map_of_mem hmem, hsame⟩ ((column, v) :: after.map Prod.snd)
      rw [← hentries] at hentry
      obtain ⟨rival, hrival, rfl⟩ := List.mem_map.1 hentry
      exact ⟨rival, hrival, hsame, hfound⟩

end Columns

end JoinGraph

/-! ### Queries -/

namespace Plan

open Member (Column)

variable {q : Query} {plan : CompiledQuery}

section Told
variable {sources : List (String × Mapping.Document)} (hs : Schema.build sources = .ok s)
  (ht : s.TellsApart) (h : Plan.select s q = .ok plan)
include hs ht h

omit ht in
/-- A column that a path of the projection leads to is of a scope that is there. -/
theorem shown_le {e : Entity} (he : entityNamed s q.entity = .ok e) {path : String}
    (hpath : path ∈ Member.expand s e q.members) {shown : Column}
    (hshown : (Member.resolve s plan.layout.graph path).2 = .ok shown) :
    shown.scope ≤ plan.layout.graph.joins.length := by
  obtain ⟨d, hb⟩ := Schema.build_ok hs
  obtain ⟨root, g, display, rest, columns, needed, hroot, hdisplay, hrest, -⟩ := select_resolved h
  obtain rfl := Except.ok.inj (hroot.symm.trans he)
  have hfound := Member.resolveEach_found hb.acyclic (JoinGraph.rooted_ofRoot root.id) hdisplay
  have hgrown := (Member.resolveEach_found hb.acyclic hfound.rooted hrest).grows
  obtain ⟨c, hc, hagain⟩ := hfound.again path hpath
  obtain rfl := Except.ok.inj (hshown.symm.trans (hagain hgrown))
  exact Nat.le_trans (hfound.bounded shown hc) hgrown.length_le

/-- **A field is set from the column of its member.** Let a projection show the column `shown` that
a member resolves to from some scope, and a row have `v` under its name. Loading the scope's record
sets the member's field from `v`, when no column that is read before it has the name of this one, or
the scope has the column itself. If neither is so, the field is set from a column before it. -/
theorem fields_loaded {e : Entity} (he : entityNamed s q.entity = .ok e) {path : String}
    (hpath : path ∈ Member.expand s e q.members) {shown : Column}
    (hshown : (Member.resolve s plan.layout.graph path).2 = .ok shown)
    (hvalue : shown.measure = .value) {scope : Nat}
    (hscope : scope ≤ plan.layout.graph.joins.length)
    {member : String} {owner : Entity} {p : Property}
    (hp : s.nearestProperty? (plan.layout.graph.entity s scope) member = some (owner, p))
    (hmapped : p.ignored = false) (hfree : p.constructor = none)
    (hleaf : (Member.leaf s plan.layout.graph scope member).2 = .ok (shown.scope, shown.column))
    (hplain : Plain shown.column) {row : Row} (hkeys : row.keys.Nodup) {v : Value}
    (hv : OrderedMap.get? row (plan.layout.resultName shown) = some v) {μ : Type}
    (d : Descriptor μ) :
    ∃ before after,
      plan.layout.graph.columns plan.layout.names row (plan.layout.graph.merged scope) =
        before ++ (shown.scope, shown.column, v) :: after ∧
      ((shown.scope = scope ∨ ∀ other ∈ before, Text.sameName other.2.1 shown.column = false) →
        d.LoadsFrom s (plan.layout.graph.entity s scope)
          (plan.layout.graph.recordOf s plan.layout.names row scope) member v) ∧
      (shown.scope ≠ scope → (∃ other ∈ before, Text.sameName other.2.1 shown.column = true) →
        ∃ rival ∈ before, Text.sameName rival.2.1 shown.column = true ∧
          d.LoadsFrom s (plan.layout.graph.entity s scope)
            (plan.layout.graph.recordOf s plan.layout.names row scope) member rival.2.2) := by
  obtain ⟨built, hb⟩ := Schema.build_ok hs
  have hg := select_homed hs ht h
  obtain ⟨hway, hcolumn⟩ := Member.inherits_leaf ht (Schema.ascends hs) hb.acyclic hg hscope hp
    hleaf (shown_le hs h he hpath hshown)
  have hname : plan.layout.resultName shown =
      rowName (plan.layout.aliasName shown.scope) shown.column := by
    simp [Layout.resultName, Column.resultName, Layout.aliasName, rowName, hvalue, toString]
  have hread : (shown.column, v) ∈ ownValues (plan.layout.aliasName shown.scope) row :=
    (mem_ownValues hkeys _).2 (hname ▸ OrderedMap.mem_of_get? hv)
  obtain ⟨before, after, hsplit⟩ := List.append_of_mem
    (JoinGraph.mem_columns.2 ⟨hg.rooted.mem_merged.2 hway, hread⟩)
  obtain ⟨hfirst, hlater⟩ := hg.rooted.value?_recordOf (s := s) hsplit hkeys hplain
  refine ⟨before, after, hsplit, fun hfree' => ?_, fun hne hrival => ?_⟩
  · exact Descriptor.loadsFrom_of_value hp hmapped hfree (hcolumn ▸ hfirst hfree') d
  · obtain ⟨rival, hmem, hsame, hheld⟩ := hlater hne hrival
    exact ⟨rival, hmem, hsame,
      Descriptor.loadsFrom_of_value hp hmapped hfree (hcolumn ▸ hheld) d⟩

end Told

/-! ### Notes

The entities of `JoinGraph.notes` all have a column of one name, up to case. -/

def notesSchema : Schema :=
  match Schema.build JoinGraph.notes with
  | .ok s => s
  | .error _ => ⟨[]⟩

theorem notesSchema_builds : Schema.build JoinGraph.notes = .ok notesSchema := rfl

theorem notesSchema_tellsApart : notesSchema.TellsApart := by
  have hnames : ∀ e ∈ notesSchema.entities,
      e.navigations.Pairwise fun n m => Text.sameLower n.name m.name = false := by decide +kernel
  exact fun e he => e.tellsApart_iff.2 (hnames e he)

/-- Members of one entity. -/
def membersOf (entity : String) (members : List String) : Query where
  entity
  filter := .composite .and []
  members
  sorting := []
  grouping := none
  paging := none

/-- A model that is the remark, if there is one. -/
def remarkReader (entity : String) : Descriptor (Option Value) where
  entity
  construct := pure none
  fields := [("Remark", fun _ v => .ok (some v))]

def remarked : Row := [("T_Id", .int32 1), ("J1_Note", .text "remark")]

/-- A receipt's remark is that of the order, two scopes up. -/
theorem fields_loaded_remark : ∃ plan,
    Plan.select notesSchema (membersOf "Receipt" ["Id", "Remark"]) = .ok plan ∧
    (remarkReader "Receipt").LoadsFrom notesSchema (plan.layout.graph.entity notesSchema 0)
      (plan.layout.graph.record notesSchema plan.layout.names remarked) "Remark" (.text "remark") ∧
    ((remarkReader "Receipt").load notesSchema
      (plan.layout.graph.record notesSchema plan.layout.names remarked)).toOption =
        some (some (.text "remark")) := by
  let shown : Column := ⟨"Remark", 2, "Note", .value⟩
  obtain ⟨plan, hplan, h⟩ := Except.exists_ok
    (x := Plan.select notesSchema (membersOf "Receipt" ["Id", "Remark"])) (fun plan => decide (
      (Member.resolve notesSchema plan.layout.graph "Remark").2.toOption = some shown ∧
      (Member.leaf notesSchema plan.layout.graph 0 "Remark").2.toOption = some (2, "Note") ∧
      notesSchema.nearestProperty? (plan.layout.graph.entity notesSchema 0) "Remark" =
        some (notesSchema.entity 0, {name := "Remark", column := "Note"}) ∧
      OrderedMap.get? remarked (plan.layout.resultName shown) = some (.text "remark") ∧
      plan.layout.graph.columns plan.layout.names remarked (plan.layout.graph.merged 0) =
        [(0, "Id", .int32 1), (2, "Note", .text "remark")] ∧
      ((remarkReader "Receipt").load notesSchema
        (plan.layout.graph.record notesSchema plan.layout.names remarked)).toOption =
          some (some (.text "remark"))))
    (by decide +kernel)
  obtain ⟨hshown, hleaf, hp, hv, hcolumns, hload⟩ := of_decide_eq_true h
  obtain ⟨before, after, hsplit, hset, -⟩ := fields_loaded notesSchema_builds notesSchema_tellsApart
    hplan rfl (by decide +kernel : "Remark" ∈ Member.expand notesSchema (notesSchema.entity 2) _)
    (Except.eq_ok_of_toOption hshown) rfl (Nat.zero_le _) hp rfl rfl
    (Except.eq_ok_of_toOption hleaf) (by decide +kernel) (by decide +kernel) hv
    (remarkReader "Receipt")
  refine ⟨plan, hplan, hset (.inr fun other hother => ?_), hload⟩
  rw [hcolumns] at hsplit
  -- Only the key is read before the remark.
  match before with
  | [] => exact absurd hother List.not_mem_nil
  | [first] =>
    obtain rfl := List.mem_singleton.1 hother
    obtain ⟨rfl, -⟩ := List.cons.inj hsplit
    decide +kernel
  | _ :: _ :: rest => simp at hsplit

def noticed : Row :=
  [("T_Id", .int32 1), ("T_Note", .text "notice"), ("J0_Note", .text "remark")]

/-- An invoice's notice is read before the order's remark, and the remark is set from it. -/
theorem notes_confused : ∃ plan shown,
    Plan.select notesSchema (membersOf "Invoice" ["Id", "Notice", "Remark"]) = .ok plan ∧
    (Member.resolve notesSchema plan.layout.graph "Remark").2 = .ok shown ∧
    (Member.leaf notesSchema plan.layout.graph 0 "Remark").2 = .ok (shown.scope, shown.column) ∧
    OrderedMap.get? noticed (plan.layout.resultName shown) = some (.text "remark") ∧
    ((remarkReader "Invoice").load notesSchema
      (plan.layout.graph.record notesSchema plan.layout.names noticed)).toOption =
        some (some (.text "notice")) := by
  let shown : Column := ⟨"Remark", 1, "Note", .value⟩
  obtain ⟨plan, hplan, h⟩ := Except.exists_ok
    (x := Plan.select notesSchema (membersOf "Invoice" ["Id", "Notice", "Remark"]))
    (fun plan => decide (
      (Member.resolve notesSchema plan.layout.graph "Remark").2.toOption = some shown ∧
      (Member.leaf notesSchema plan.layout.graph 0 "Remark").2.toOption = some (1, "Note") ∧
      OrderedMap.get? noticed (plan.layout.resultName shown) = some (.text "remark") ∧
      ((remarkReader "Invoice").load notesSchema
        (plan.layout.graph.record notesSchema plan.layout.names noticed)).toOption =
          some (some (.text "notice"))))
    (by decide +kernel)
  obtain ⟨hshown, hleaf, hv, hload⟩ := of_decide_eq_true h
  exact ⟨plan, shown, hplan, Except.eq_ok_of_toOption hshown, Except.eq_ok_of_toOption hleaf, hv,
    hload⟩

end Plan

end EntityQuery
