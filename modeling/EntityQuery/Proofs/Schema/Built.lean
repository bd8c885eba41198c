import EntityQuery.Proofs.JoinGraph.Growth
import EntityQuery.Proofs.Schema.Members

/-! What the checks of a schema leave.

A schema that was built is read off a draft that passed all checks (`Built`). Its navigations have
key pairs, and one that leads to a base is the entity's own way to it, so that following these
comes to an end. -/
namespace EntityQuery.Schema

variable {s : Schema} {d : Draft} {id : Nat}

/-- The schema holds the entities of a draft whose chains of bases end. -/
structure Built (d : Draft) (s : Schema) : Prop where
  length : s.entities.length = d.defs.length
  entity : ∀ id < d.defs.length, d.entity id = .ok (s.entity id)
  ends : ∀ id < d.defs.length, d.ends id d.defs.length = true

theorem Checked.built {sources : List (String × Mapping.Document)} (hc : Checked sources d)
    (h : (List.range d.defs.length).mapM d.entity = .ok s.entities) : Built d s := by
  have hall := Except.mapM_eq_ok.1 h
  have hlength : s.entities.length = d.defs.length := by
    rw [← hall.length_eq, List.length_range]
  refine ⟨hlength, fun id hid => ?_, hc.ends⟩
  have hget := hall.get (i := id) (by simpa using hid) (by simpa [hlength] using hid)
  simpa [Schema.entity, hlength, hid] using hget

theorem build_ok {sources : List (String × Mapping.Document)}
    (h : Schema.build sources = .ok s) : ∃ d, Built d s := by
  obtain ⟨d, hc, hentities⟩ := build_eq_ok.1 h
  exact ⟨d, hc.built hentities⟩

/-! ### Navigations -/

theorem Draft.keyed_of_declares {properties : List Property} {n : Navigation}
    (h : d.Declares id properties n) : n.keys ≠ [] ∧ n.inheritance = false := by
  obtain ⟨given, hbuilt⟩ := h.built
  obtain ⟨target, keys, -, hkeys, -, rfl⟩ := Draft.navigation_ok hbuilt
  exact ⟨hkeys, rfl⟩

theorem Draft.keyed_of_base {properties : List Property} {base : Nat} {own : Navigation}
    (h : d.baseNavigation id base properties = .ok own) : own.keys ≠ [] := by
  obtain ⟨hlength, hkeys, rfl⟩ := Draft.baseNavigation_ok h
  have hcount : 0 < (properties.filter (·.key)).length := List.length_pos_iff.2 hkeys
  rw [← List.length_pos_iff, List.length_map, List.length_zip, ← hlength, Nat.min_self]
  exact hcount

namespace Built

/-- Behind the last position stands an entity without members. -/
theorem entity_beyond (hb : Built d s) (hid : ¬ id < d.defs.length) : s.entity id = default := by
  simp [Schema.entity, hb.length, Nat.le_of_not_lt hid]

theorem baseNavigation?_beyond (hb : Built d s) (hid : ¬ id < d.defs.length) :
    (s.entity id).baseNavigation? = none := by
  rw [hb.entity_beyond hid]
  rfl

theorem keyed (hb : Built d s) {n : Navigation} (hn : n ∈ (s.entity id).navigations) :
    n.keys ≠ [] := by
  by_cases hid : id < d.defs.length
  · obtain ⟨-, hall, -⟩ := Draft.entity_ok (hb.entity id hid)
    obtain ⟨declared, hdeclared, ⟨-, heq⟩ | ⟨base, own, -, hown, -, heq⟩⟩ :=
      Draft.navigations_ok hall
    · exact (Draft.keyed_of_declares (hdeclared n (heq ▸ hn))).1
    · rw [heq] at hn
      rcases List.mem_append.1 hn with hn | hn
      · exact (Draft.keyed_of_declares (hdeclared n hn)).1
      · exact List.mem_singleton.1 hn ▸ Draft.keyed_of_base hown
  · rw [hb.entity_beyond hid] at hn
    exact absurd hn List.not_mem_nil

/-- The navigation that is followed as that to the base leads there. -/
theorem base?_of_navigation (hb : Built d s) {n : Navigation}
    (hn : (s.entity id).baseNavigation? = some n) : d.base? id = some n.target := by
  by_cases hid : id < d.defs.length
  · obtain ⟨-, hall, -⟩ := Draft.entity_ok (hb.entity id hid)
    obtain ⟨declared, hdeclared, ⟨-, heq⟩ | ⟨base, own, hbase, hown, -, heq⟩⟩ :=
      Draft.navigations_ok hall
    · have hmem := List.mem_of_find?_eq_some hn
      have htrue := List.find?_some hn
      simp [(Draft.keyed_of_declares (hdeclared n (heq ▸ hmem))).2] at htrue
    · have hmem := List.mem_of_find?_eq_some hn
      have htrue := List.find?_some hn
      rw [heq] at hmem
      rcases List.mem_append.1 hmem with hmem | hmem
      · simp [(Draft.keyed_of_declares (hdeclared n hmem)).2] at htrue
      · obtain ⟨-, -, rfl⟩ := Draft.baseNavigation_ok hown
        rw [List.mem_singleton.1 hmem, hbase]
  · rw [hb.baseNavigation?_beyond hid] at hn
    exact absurd hn (by simp)

theorem basesEnd (hb : Built d s) {k : Nat} (hends : d.ends id k = true) : s.BasesEnd id k := by
  induction k generalizing id with
  | zero =>
    show (s.entity id).baseNavigation? = none
    cases hn : (s.entity id).baseNavigation? with
    | none => rfl
    | some n => simp [Draft.ends, hb.base?_of_navigation hn] at hends
  | succ k ih =>
    intro n hn
    rw [Draft.ends, hb.base?_of_navigation hn] at hends
    exact ih hends

/-- Chains of bases end: those that do not are refused. -/
theorem acyclic (hb : Built d s) : s.Acyclic := by
  intro id
  rw [hb.length]
  by_cases hid : id < d.defs.length
  · exact hb.basesEnd (hb.ends id hid)
  · have hbase := hb.baseNavigation?_beyond hid
    cases d.defs.length with
    | zero => exact hbase
    | succ k => exact fun base h => absurd (hbase.symm.trans h) (by simp)

end Built

end EntityQuery.Schema
