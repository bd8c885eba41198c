import Mathlib.Order.WellFounded
import EntityQuery.Proofs.Schema.Built

/-! Chains of bases.

The check of cycles lets a draft pass only where every chain of bases ends, and this is what
inductions along bases rest on (`Built.base_induction`). The fuel of lineages and of keys is enough
for every chain: a lineage is the entity followed by the lineage of its base
(`Checked.lineage_base`), and an entity without a key of its own has that of its base
(`Draft.keys_inherited`), hence that of the nearest ancestor with one
(`Checked.nearest_keys`). -/
namespace EntityQuery

/-- One entity is the base of another. -/
def Schema.IsBase (s : Schema) (base id : Nat) : Prop := (s.entity id).base = some base

/-- A property as it is inherited: the database generates no value for it. -/
def Property.inherited (p : Property) : Property := {p with sequence := false}

open Mapping (Document EntityDef)

/-- Whether the definition of an entity has keys of its own. -/
def Entity.declaresKeys (definitions : List EntityDef) (e : Entity) : Bool :=
  !(definitions.getD e.id {}).keys.isEmpty

namespace Schema

variable {sources : List (String × Document)} {s : Schema} {d : Draft} {id base k fuel : Nat}

namespace Draft

theorem ends_base (h : d.ends id (k + 1) = true) (hbase : d.base? id = some base) :
    d.ends base k = true := by
  simpa [ends, hbase] using h

theorem base?_of_ends_zero (h : d.ends id 0 = true) : d.base? id = none := by
  simpa [ends] using h

/-! ### Keys -/

/-- Once a chain of bases ends, more fuel finds the same keys. -/
theorem keysWithin_stable (h : d.ends id k = true) (hk : k ≤ fuel) :
    d.keysWithin id fuel = d.keysWithin id k := by
  induction k generalizing id fuel with
  | zero =>
    cases fuel with
    | zero => rfl
    | succ fuel => simp [keysWithin, base?_of_ends_zero h]
  | succ k ih =>
    obtain ⟨fuel, rfl⟩ := Nat.exists_eq_add_of_le' (Nat.le_of_add_left_le hk : 1 ≤ fuel)
    rw [keysWithin, keysWithin]
    split
    · next hbase => rw [ih (ends_base h hbase) (Nat.le_of_succ_le_succ hk)]
    · rfl

theorem keys_declared (h : (d.definition id).keys ≠ []) :
    d.keys id = (d.definition id).keys.map keyOf := by
  unfold keys
  cases d.defs.length with
  | zero => rfl
  | succ fuel => simp [keysWithin, h]

theorem keys_bare (h : (d.definition id).keys = []) (hbase : d.base? id = none) :
    d.keys id = [] := by
  unfold keys
  cases d.defs.length <;> simp [keysWithin, h, hbase]

theorem keys_inherited (hends : d.ends id d.defs.length = true) (h : (d.definition id).keys = [])
    (hbase : d.base? id = some base) : d.keys id = (d.keys base).map Property.inherited := by
  cases hlength : d.defs.length with
  | zero =>
    rw [hlength] at hends
    simp [base?_of_ends_zero hends] at hbase
  | succ k =>
    rw [hlength] at hends
    have hstable := keysWithin_stable (ends_base hends hbase) (Nat.le_succ k)
    simp only [keys, hlength, keysWithin, h, hbase, hstable]
    rfl

end Draft

/-! ### Induction along bases -/

namespace Built

/-- What holds of an entity when it holds of its base holds of all entities. -/
theorem base_induction (hb : Built d s) (hc : Checked sources d) {motive : Nat → Prop}
    (step : ∀ id < d.defs.length, (∀ base, d.base? id = some base → motive base) → motive id) :
    ∀ id < d.defs.length, motive id := by
  have hchain : ∀ k id, id < d.defs.length → d.ends id k = true → motive id := by
    intro k
    induction k with
    | zero =>
      intro id hid hends
      refine step id hid fun base hbase => ?_
      simp [Draft.base?_of_ends_zero hends] at hbase
    | succ k ih =>
      intro id hid hends
      exact step id hid fun base hbase =>
        ih base (hc.base?_lt hid hbase) (Draft.ends_base hends hbase)
  exact fun id hid => hchain _ id hid (hb.ends id hid)

/-- The entity at a position is built from the definition there. -/
theorem entity_base (hb : Built d s) (hid : id < d.defs.length) :
    (s.entity id).base = d.base? id :=
  (Draft.entity_ok (hb.entity id hid)).2.2.2.2

theorem entity_id (hb : Built d s) (hid : id < d.defs.length) : (s.entity id).id = id :=
  (Draft.entity_ok (hb.entity id hid)).2.2.1

theorem entity_keys (hb : Built d s) (hid : id < d.defs.length) :
    (s.entity id).keys = d.keys id :=
  Draft.filter_key (Draft.entity_ok (hb.entity id hid)).1

theorem isBase_iff (hb : Built d s) : s.IsBase base id ↔
    id < d.defs.length ∧ d.base? id = some base := by
  unfold Schema.IsBase
  by_cases hid : id < d.defs.length
  · rw [hb.entity_base hid]
    exact (and_iff_right hid).symm
  · rw [hb.entity_beyond hid]
    exact iff_of_false (fun h => nomatch h) fun h => hid h.1

end Built

namespace Checked

theorem wellFounded_isBase (hc : Checked sources d) (hb : Built d s) :
    WellFounded s.IsBase := by
  refine ⟨fun id => ⟨id, fun base hbase => ?_⟩⟩
  obtain ⟨hid, hbase⟩ := hb.isBase_iff.1 hbase
  refine hb.base_induction hc (motive := Acc s.IsBase) (fun id _ ih => ?_) base
    (hc.base?_lt hid hbase)
  exact ⟨id, fun base hbase => ih base (hb.isBase_iff.1 hbase).2⟩

/-! ### Lineages -/

theorem lineageFrom_stable (hc : Checked sources d) (hb : Built d s) (hid : id < d.defs.length)
    (h : d.ends id k = true) (hk : k ≤ fuel) :
    s.lineageFrom (s.entity id) fuel = s.lineageFrom (s.entity id) k := by
  induction k generalizing id fuel with
  | zero =>
    have hroot : s.base? (s.entity id) = none := by
      simp [Schema.base?, hb.entity_base hid, Draft.base?_of_ends_zero h]
    cases fuel with
    | zero => rfl
    | succ fuel => simp [Schema.lineageFrom, hroot]
  | succ k ih =>
    obtain ⟨fuel, rfl⟩ := Nat.exists_eq_add_of_le' (Nat.le_of_add_left_le hk : 1 ≤ fuel)
    simp only [Schema.lineageFrom, Schema.base?, hb.entity_base hid]
    cases hbase : d.base? id with
    | none => rfl
    | some base =>
      simp only [Option.map_some]
      rw [ih (hc.base?_lt hid hbase) (Draft.ends_base h hbase) (Nat.le_of_succ_le_succ hk)]

theorem lineage_root (hb : Built d s) (hid : id < d.defs.length) (h : d.base? id = none) :
    s.lineage (s.entity id) = [s.entity id] := by
  unfold Schema.lineage
  cases s.entities.length with
  | zero => rfl
  | succ k => simp [Schema.lineageFrom, Schema.base?, hb.entity_base hid, h]

theorem lineage_base (hc : Checked sources d) (hb : Built d s) (hid : id < d.defs.length)
    (h : d.base? id = some base) :
    s.lineage (s.entity id) = s.entity id :: s.lineage (s.entity base) := by
  have hends := hb.ends id hid
  obtain ⟨k, hk⟩ : ∃ k, d.defs.length = k + 1 := Nat.exists_eq_add_of_le' (by omega)
  rw [hk] at hends
  have hstable := hc.lineageFrom_stable hb (hc.base?_lt hid h) (Draft.ends_base hends h)
    (Nat.le_succ k)
  calc s.lineage (s.entity id)
      = s.lineageFrom (s.entity id) (k + 1) := by rw [Schema.lineage, hb.length, hk]
    _ = s.entity id :: s.lineageFrom (s.entity base) k := by
      simp [Schema.lineageFrom, Schema.base?, hb.entity_base hid, h]
    _ = s.entity id :: s.lineage (s.entity base) := by
      rw [Schema.lineage, hb.length, hk, hstable]

theorem mem_lineage (hc : Checked sources d) (hb : Built d s) : ∀ id < d.defs.length,
    ∀ e ∈ s.lineage (s.entity id), Relation.ReflTransGen s.IsBase e.id id := by
  refine hb.base_induction hc fun id hid ih e he => ?_
  cases hbase : d.base? id with
  | none =>
    rw [lineage_root hb hid hbase] at he
    rw [List.mem_singleton.1 he, hb.entity_id hid]
  | some base =>
    rw [hc.lineage_base hb hid hbase] at he
    rcases List.mem_cons.1 he with rfl | he
    · rw [hb.entity_id hid]
    · exact (ih base hbase e he).tail (hb.isBase_iff.2 ⟨hid, hbase⟩)

/-- No entity is met twice on the way up. -/
theorem nodup_lineage (hc : Checked sources d) (hb : Built d s) : ∀ id < d.defs.length,
    ((s.lineage (s.entity id)).map (·.id)).Nodup := by
  refine hb.base_induction hc fun id hid ih => ?_
  cases hbase : d.base? id with
  | none =>
    rw [lineage_root hb hid hbase]
    exact List.nodup_singleton _
  | some base =>
    rw [hc.lineage_base hb hid hbase, List.map_cons, List.nodup_cons]
    refine ⟨fun hmem => ?_, ih base hbase⟩
    obtain ⟨e, he, heq⟩ := List.mem_map.1 hmem
    have hup := hc.mem_lineage hb base (hc.base?_lt hid hbase) e he
    rw [heq, hb.entity_id hid] at hup
    have hcycle := Relation.TransGen.tail' hup (hb.isBase_iff.2 ⟨hid, hbase⟩)
    exact (hc.wellFounded_isBase hb).transGen.asymmetric id id hcycle hcycle

/-! ### Inherited keys -/

theorem definition_eq_getD (hc : Checked sources d) (id : Nat) :
    d.definition id = (definitions sources).getD id {} := by
  rw [Draft.definition, ← map_entries, ← hc.defs]
  simp only [List.getD_eq_getElem?_getD, List.getElem?_map]
  cases d.defs[id]? <;> rfl

theorem declaresKeys_entity (hc : Checked sources d) (hb : Built d s) (hid : id < d.defs.length) :
    (s.entity id).declaresKeys (definitions sources) = true ↔ (d.definition id).keys ≠ [] := by
  rw [Entity.declaresKeys, hb.entity_id hid, ← hc.definition_eq_getD]
  simp

/-- The key of an entity is that of the nearest entity of its lineage with a key of its own. -/
theorem nearest_keys (hc : Checked sources d) (hb : Built d s) : ∀ id < d.defs.length,
    (s.entity id).keys ≠ [] → ∃ owner,
      (s.lineage (s.entity id)).find? (·.declaresKeys (definitions sources)) = some owner ∧
        (s.entity id).keys.map Property.inherited = owner.keys.map Property.inherited := by
  refine hb.base_induction hc fun id hid ih hkeys => ?_
  by_cases hown : (d.definition id).keys = []
  · have hnot : ¬ (s.entity id).declaresKeys (definitions sources) = true := fun h =>
      (hc.declaresKeys_entity hb hid).1 h hown
    cases hbase : d.base? id with
    | none =>
      rw [hb.entity_keys hid, Draft.keys_bare hown hbase] at hkeys
      exact absurd rfl hkeys
    | some base =>
      have hsame : (s.entity id).keys = (s.entity base).keys.map Property.inherited := by
        rw [hb.entity_keys hid, hb.entity_keys (hc.base?_lt hid hbase),
          Draft.keys_inherited (hb.ends id hid) hown hbase]
      obtain ⟨owner, howner, heq⟩ := ih base hbase fun hnil => hkeys (by simp [hsame, hnil])
      refine ⟨owner, ?_, ?_⟩
      · rw [hc.lineage_base hb hid hbase, List.find?_cons_of_neg hnot, howner]
      · rw [← heq, hsame, List.map_map]
        rfl
  · have hyes := (hc.declaresKeys_entity hb hid).2 hown
    refine ⟨s.entity id, ?_, rfl⟩
    cases hbase : d.base? id with
    | none => rw [lineage_root hb hid hbase, List.find?_cons_of_pos hyes]
    | some base => rw [hc.lineage_base hb hid hbase, List.find?_cons_of_pos hyes]

end Checked
end Schema
end EntityQuery
