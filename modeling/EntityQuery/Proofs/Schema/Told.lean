import EntityQuery.Proofs.JoinGraph.Growth
import EntityQuery.Proofs.Schema.WellFormed

/-! Navigations told apart by their names.

A navigation is looked up by its name up to ASCII case, and it shares a join with whatever has its
name in lower case. Both mean one navigation only while no two of an entity have one name in lower
case (`Entity.TellsApart`). The check that adds a navigation folds the earlier name in ASCII only
and compares it with the later one in lower case: it refuses a second `Payer` and lets a second
`École` pass. What is left when it passed is said here for every schema that is built
(`navigations_told`). -/
namespace EntityQuery

/-- Following one navigation from a scope and then another leads to one scope. -/
def JoinGraph.SharesJoin (g : JoinGraph) (scope : Nat) (n m : Navigation) : Prop :=
  (g.reach scope n).2 = ((g.reach scope n).1.reach scope m).2

/-- Joins are shared by the name in lower case, and by nothing else. -/
theorem JoinGraph.sharesJoin_iff (g : JoinGraph) (scope : Nat) (n m : Navigation) :
    g.SharesJoin scope n m ↔ Text.sameLower n.name m.name = true := by
  obtain ⟨j, hj, hfound⟩ := find?_reach g scope n
  obtain ⟨k, hk, hfound'⟩ := find?_reach (g.reach scope n).1 scope m
  obtain ⟨hlt, hn, hfirst⟩ := List.findIdx?_eq_some_iff_getElem.1 hfound
  simp only [Bool.and_eq_true, beq_iff_eq, Text.sameLower_iff] at hn
  rw [SharesJoin, hj, hk, Nat.add_right_cancel_iff, Text.sameLower_iff]
  constructor
  · rintro rfl
    -- Behind the second step the join still stands where it was, now found under the other name.
    have hgrows : (g.reach scope n).1.Grows ((g.reach scope n).1.reach scope m).1 :=
      ⟨root_reach .., joins_reach ..⟩
    obtain ⟨hlt', hm, -⟩ := List.findIdx?_eq_some_iff_getElem.1 hfound'
    simp only [Bool.and_eq_true, beq_iff_eq, Text.sameLower_iff] at hm
    have hsame := hgrows.getElem? hlt
    rw [List.getElem?_eq_getElem hlt, List.getElem?_eq_getElem hlt', Option.some.injEq] at hsame
    rw [← hn.2, ← hm.2, hsame]
  · intro hname
    have hsame : (g.reach scope n).1.find? scope m.name = some j := by
      rw [← hfound]
      simp only [find?, Text.sameLower, hname]
    rw [reach_of_find? hsame] at hk
    exact Nat.succ.inj hk

/-- A navigation that is found is the entity's and has the name that was looked up. -/
theorem Entity.navigation?_some {e : Entity} {name : String} {n : Navigation}
    (h : e.navigation? name = some n) : n ∈ e.navigations ∧ Text.sameName n.name name = true :=
  ⟨List.mem_of_find?_eq_some h,
    List.find?_some (p := fun n : Navigation => Text.sameName n.name name) h⟩

/-- The navigations of an entity have different names in lower case. Hence each is found by its
name, and no two are followed along one join. -/
structure Entity.TellsApart (e : Entity) : Prop where
  distinct : e.navigations.Pairwise fun n m => Text.sameLower n.name m.name = false
  found : ∀ n ∈ e.navigations, e.navigation? n.name = some n
  unshared : e.navigations.Pairwise fun n m => ∀ (g : JoinGraph) (scope : Nat),
    ¬ g.SharesJoin scope n m ∧ ¬ g.SharesJoin scope m n

/-- All of it follows from the names. -/
theorem Entity.tellsApart_iff (e : Entity) : e.TellsApart ↔
    e.navigations.Pairwise fun n m => Text.sameLower n.name m.name = false := by
  refine ⟨TellsApart.distinct, fun h => ⟨h, fun n hn => ?_, h.imp fun hne g scope => ?_⟩⟩
  · have hdistinct : (e.navigations.map fun n => Text.lower n.name).Nodup :=
      List.pairwise_map.2 (h.imp fun hne => mt Text.sameLower_iff.2 (Bool.eq_false_iff.1 hne))
    cases hfound : e.navigation? n.name with
    | none => simpa using List.find?_eq_none.1 hfound n hn
    | some m =>
      obtain ⟨hm, hname⟩ := navigation?_some hfound
      have hlower := Text.sameLower_iff.1 (Text.sameLower_of_sameName hname)
      rw [List.inj_on_of_nodup_map hdistinct hm hn hlower]
  · rw [JoinGraph.sharesJoin_iff, JoinGraph.sharesJoin_iff, Text.sameLower_iff, Text.sameLower_iff]
    have hnames := mt Text.sameLower_iff.2 (Bool.eq_false_iff.1 hne)
    exact ⟨hnames, Ne.symm hnames⟩

namespace Schema

variable {sources : List (String × Mapping.Document)} {s : Schema} {d : Draft} {id : Nat}
  {properties : List Property}

/-! ### What the check leaves -/

namespace Draft

/-- An earlier name is not the lower case of a later one, up to the case of ASCII letters. -/
def Passes (n m : Navigation) : Prop :=
  Text.sameName n.name (String.ofList (Text.lower m.name)) = false

theorem addNavigation_passes {entity : String} {done added : List Navigation} {n : Navigation}
    (h : addNavigation entity properties done n = .ok added) (hdone : done.Pairwise Passes) :
    added.Pairwise Passes := by
  obtain ⟨rfl, -⟩ := addNavigation_ok h
  simp only [addNavigation] at h
  split at h
  · simp at h
  · next hfree =>
    simp only [Bool.or_eq_true, not_or, Bool.not_eq_true, List.any_eq_false] at hfree
    refine List.pairwise_append.2 ⟨hdone, List.pairwise_singleton .., fun m hm k hk => ?_⟩
    obtain rfl := List.mem_singleton.1 hk
    simpa only [Passes, Bool.not_eq_true] using hfree.2 m hm

theorem navigations_pass {all : List Navigation} (h : d.navigations id properties = .ok all) :
    all.Pairwise Passes := by
  simp only [navigations, Except.bind_eq_ok] at h
  obtain ⟨declared, hdeclared, h⟩ := h
  have hpass : declared.Pairwise Passes := by
    refine Except.foldlM_keeps (motive := List.Pairwise Passes) ?_ .nil hdeclared
    intro done given added hdone hstep
    simp only [Except.bind_eq_ok] at hstep
    obtain ⟨built, -, hadd⟩ := hstep
    exact addNavigation_passes hadd hdone
  cases hbase : d.base? id with
  | none =>
    simp only [hbase, Except.pure_eq_ok] at h
    exact h ▸ hpass
  | some base =>
    simp only [hbase, Except.bind_eq_ok] at h
    obtain ⟨own, -, hadd⟩ := h
    exact addNavigation_passes hadd hpass

/-- A name whose case is that of ASCII letters does not come again in lower case. -/
theorem Passes.sameLower {n m : Navigation} (h : Passes n m)
    (hn : Text.asciiCased n.name = true) : Text.sameLower n.name m.name = false := by
  by_contra hsame
  rw [Bool.not_eq_false, Text.sameLower_iff] at hsame
  rw [Passes, ← hsame] at h
  rw [Text.asciiCased, h] at hn
  exact Bool.noConfusion hn

end Draft

/-! ### Schemas that are built -/

/-- **What names tell of navigations.** In a schema that was built, a navigation has the lower-case
name of an earlier one only where lower-casing changes letters beyond ASCII in the earlier name.
So an entity tells its navigations apart where all its names but the last are of ASCII case, and in
general exactly where no two of them are equal in lower case. -/
theorem navigations_told (h : Schema.build sources = .ok s) : ∀ e ∈ s.entities,
    (e.navigations.Pairwise fun n m =>
      Text.sameLower n.name m.name = true → Text.asciiCased n.name = false) ∧
    ((∀ n ∈ e.navigations.dropLast, Text.asciiCased n.name = true) → e.TellsApart) ∧
    (e.TellsApart ↔
      e.navigations.Pairwise fun n m => Text.sameLower n.name m.name = false) := by
  obtain ⟨d, hb⟩ := build_ok h
  refine hb.forall_entities fun id hid => ?_
  have hpass := Draft.navigations_pass (Draft.entity_ok (hb.entity id hid)).2.1
  refine ⟨hpass.imp fun hnm hsame => ?_, fun hcased => ?_, Entity.tellsApart_iff _⟩
  · by_contra hcased
    rw [hnm.sameLower (Bool.not_eq_false _ ▸ hcased)] at hsame
    exact Bool.noConfusion hsame
  · rw [Entity.tellsApart_iff]
    rcases List.eq_nil_or_concat (s.entity id).navigations with hnil | ⟨front, last, hall⟩
    · rw [hnil]
      exact .nil
    · rw [List.concat_eq_append] at hall
      rw [hall] at hpass hcased ⊢
      rw [List.dropLast_concat] at hcased
      rw [List.pairwise_append] at hpass ⊢
      refine ⟨?_, List.pairwise_singleton .., fun n hn m hm =>
        (hpass.2.2 n hn m hm).sameLower (hcased n hn)⟩
      exact hpass.1.imp_of_mem fun hn _ hnm => hnm.sameLower (hcased _ hn)

/-- A receipt is told to whom it goes from what it is. -/
theorem navigations_told_receipts : ∃ s, build receipts = .ok s ∧
    (s.entity 0).navigations.map (·.name) = ["Payer", "Invoice"] ∧ (s.entity 0).TellsApart := by
  obtain ⟨s, hs, h⟩ := Except.exists_ok (x := build receipts)
    (fun s => decide ((s.entity 0).navigations.map (·.name) = ["Payer", "Invoice"] ∧
      s.entity 0 ∈ s.entities))
    (by decide +kernel)
  obtain ⟨hnames, hmem⟩ := of_decide_eq_true h
  have hascii : ∀ name ∈ ["Payer", "Invoice"], name.toList.all (·.toNat < 128) = true := by decide
  have hcased : ∀ n ∈ (s.entity 0).navigations.dropLast, Text.asciiCased n.name = true := by
    intro n hn
    have hname : n.name ∈ ["Payer", "Invoice"] :=
      hnames ▸ List.mem_map_of_mem (List.dropLast_subset _ hn)
    exact Text.asciiCased_of_ascii fun c hc =>
      of_decide_eq_true (List.all_eq_true.1 (hascii n.name hname) c hc)
  exact ⟨s, hs, hnames, (navigations_told hs _ hmem).2.1 hcased⟩

/-- A pupil has a school and had one before. -/
def schools : List (String × Mapping.Document) := [
  ("schools", ⟨[
    { name := "Pupil", keys := [{name := "Id"}]
      properties := [{name := "SchoolId"}, {name := "FormerId"}]
      navigations := [
        {name := "École", target := "School", keys := [⟨"SchoolId", "Id"⟩]},
        {name := "École", target := "Former", keys := [⟨"FormerId", "Id"⟩]}] },
    { name := "School", keys := [{name := "Id"}] },
    { name := "Former", keys := [{name := "Id"}] }]⟩)]

/-- Both navigations have one name, which finds the first and joins both as one. -/
theorem schools_confused : ∃ s n m, build schools = .ok s ∧ (s.entity 0).navigations = [n, m] ∧
    n.name = "École" ∧ m.name = "École" ∧ n.target = 1 ∧ m.target = 2 ∧
    (s.entity 0).navigation? m.name = some n ∧ ¬ (s.entity 0).TellsApart ∧
    ∀ (g : JoinGraph) scope, g.SharesJoin scope n m := by
  let n : Navigation := ⟨"École", 1, .inner, [⟨"SchoolId", "Id"⟩], false⟩
  let m : Navigation := ⟨"École", 2, .inner, [⟨"FormerId", "Id"⟩], false⟩
  obtain ⟨s, hs, h⟩ := Except.exists_ok (x := build schools)
    (fun s => decide ((s.entity 0).navigations = [n, m])) (by decide +kernel)
  have hall := of_decide_eq_true h
  refine ⟨s, n, m, hs, hall, rfl, rfl, rfl, rfl, ?_, fun htold => ?_, fun g scope => ?_⟩
  · simp [Entity.navigation?, hall, n, m]
  · have hdistinct := htold.distinct
    rw [hall] at hdistinct
    simp [n, m] at hdistinct
  · rw [JoinGraph.sharesJoin_iff]
    exact Text.sameLower_refl _

end Schema
end EntityQuery
