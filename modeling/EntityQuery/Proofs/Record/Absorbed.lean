import Mathlib.Data.List.Forall2
import Mathlib.Data.List.Nodup
import EntityQuery.Record.OfRow

/-! Columns under marks.

A base's column comes into the record of its subtype under its own name, or under that name and the
mark when the subtype has the name already, up to ASCII case. It would replace a column there only
if that had the new name exactly. This never happens while no name stands before one that it is
made of by marks (`Layered`), and absorbing keeps the names so (`absorbed`).

What is looked up by a name without a mark is what the subtype itself has, and failing that the
first column of that name among the absorbed, whatever their marks (`lookup_absorbed`). -/
namespace EntityQuery

/-! ### Maps -/

namespace OrderedMap
variable {α : Type u} {m : OrderedMap α} {key : String} {value : α}

theorem put_of_notMem (h : key ∉ keys m) : put m key value = m ++ [(key, value)] := by
  induction m with
  | nil => rfl
  | cons entry rest ih =>
    simp only [keys, List.map_cons, List.mem_cons, not_or] at h
    rw [put, if_neg (Ne.symm h.1), ih h.2, List.cons_append]

/-- Entries of different names are a map as they stand. -/
theorem ofPairs_of_nodup {pairs : List (String × α)} (h : (keys pairs).Nodup) :
    ofPairs pairs = pairs := by
  have hput : ∀ done rest : List (String × α), (keys (done ++ rest)).Nodup →
      rest.foldl (fun m entry => put m entry.1 entry.2) done = done ++ rest := by
    intro done rest
    induction rest generalizing done with
    | nil => simp
    | cons entry rest ih =>
      intro h
      have hnew : entry.1 ∉ keys done := by
        simp only [keys, List.map_append, List.map_cons] at h
        exact fun hmem => List.nodup_middle.1 h |>.notMem (List.mem_append_left _ hmem)
      rw [List.foldl_cons, put_of_notMem hnew, ih _ (by simpa using h)]
      simp
  exact hput [] pairs h

theorem get?_of_mem (h : (keys m).Nodup) (hmem : (key, value) ∈ m) : get? m key = some value := by
  induction m with
  | nil => exact absurd hmem List.not_mem_nil
  | cons entry rest ih =>
    simp only [keys, List.map_cons, List.nodup_cons] at h
    obtain rfl | hmem := List.mem_cons.1 hmem
    · exact if_pos rfl
    · have hother : entry.1 ≠ key := by
        rintro rfl
        exact h.1 (List.mem_map.2 ⟨_, hmem, rfl⟩)
      rw [get?, if_neg hother]
      exact ih h.2 hmem

theorem get?_append (a b : OrderedMap α) (key : String) :
    get? (a ++ b) key = (get? a key).or (get? b key) := by
  induction a with
  | nil => rfl
  | cons entry rest ih =>
    rw [List.cons_append, get?, get?]
    split
    · rfl
    · exact ih

theorem getFold?_append (a b : OrderedMap α) (key : String) :
    getFold? (a ++ b) key = (getFold? a key).or (getFold? b key) := by
  induction a with
  | nil => rfl
  | cons entry rest ih =>
    rw [List.cons_append, getFold?, getFold?]
    split
    · rfl
    · exact ih

theorem getFold?_put_of_ne {other : String} (h : Text.sameName key other = false) :
    getFold? (put m key value) other = getFold? m other := by
  induction m with
  | nil => simp [put, getFold?, h]
  | cons entry rest ih =>
    obtain ⟨name, v⟩ := entry
    by_cases hname : name = key
    · simp [put, getFold?, hname, h]
    · simp [put, getFold?, hname, ih]

theorem getFold?_eq_none : getFold? m key = none ↔
    ∀ entry ∈ m, Text.sameName entry.1 key = false := by
  induction m with
  | nil => simp [getFold?]
  | cons entry rest ih =>
    obtain ⟨name, v⟩ := entry
    cases h : Text.sameName name key <;> simp [getFold?, h, ih]

/-- What is found by a name stands under it, up to ASCII case. -/
theorem getFold?_some (h : getFold? m key = some value) :
    ∃ name, (name, value) ∈ m ∧ Text.sameName name key = true := by
  induction m with
  | nil => simp [getFold?] at h
  | cons entry rest ih =>
    obtain ⟨name, v⟩ := entry
    cases hname : Text.sameName name key with
    | true =>
      obtain rfl : v = value := by simpa [getFold?, hname] using h
      exact ⟨name, List.mem_cons_self .., hname⟩
    | false =>
      obtain ⟨other, hmem, hother⟩ := ih (by simpa [getFold?, hname] using h)
      exact ⟨other, List.mem_cons_of_mem _ hmem, hother⟩

theorem mem_of_get? (h : get? m key = some value) : (key, value) ∈ m := by
  induction m with
  | nil => simp [get?] at h
  | cons entry rest ih =>
    obtain ⟨name, v⟩ := entry
    by_cases hname : name = key
    · obtain rfl : v = value := by simpa [get?, hname] using h
      exact hname ▸ List.mem_cons_self ..
    · exact List.mem_cons_of_mem _ (ih (by simpa [get?, hname] using h))

theorem named?_some (h : named? m key = some value) :
    ∃ name, (name, value) ∈ m ∧ Text.sameName name key = true := by
  obtain h | ⟨-, h⟩ := Option.or_eq_some_iff.1 h
  · exact ⟨key, mem_of_get? h, Text.sameName_refl key⟩
  · exact getFold?_some h

theorem get?_eq_none_of_getFold? (h : getFold? m key = none) : get? m key = none := by
  refine Option.eq_none_iff_forall_ne_some.2 fun value hvalue => ?_
  simpa using getFold?_eq_none.1 h _ (mem_of_get? hvalue)

theorem named?_eq_none (h : getFold? m key = none) : named? m key = none := by
  rw [named?, h, get?_eq_none_of_getFold? h, Option.or_none]

end OrderedMap

/-! ### The columns of an alias -/

theorem afterFront?_eq_some {front cs rest : List Char} :
    afterFront? front cs = some rest ↔ cs = front ++ rest := by
  induction front generalizing cs with
  | nil => simp [afterFront?]
  | cons f front ih =>
    cases cs with
    | nil => simp [afterFront?]
    | cons c cs =>
      by_cases h : f = c
      · simp [afterFront?, h, ih]
      · simp [afterFront?, h, Ne.symm h]

/-- The name under which a row has a column of an alias. -/
def rowName (aliasName column : String) : String := aliasName ++ "_" ++ column

/-- What an entry of a row is for an alias: nothing, or the value of one of its columns. -/
def readAs? (aliasName : String) (entry : String × Value) : Option (String × Value) :=
  (afterFront? (aliasName.toList ++ ['_']) entry.1.toList).map fun column =>
    (String.ofList column, entry.2)

theorem readAs?_eq_some {aliasName c : String} {v : Value} {entry : String × Value} :
    readAs? aliasName entry = some (c, v) ↔ entry = (rowName aliasName c, v) := by
  obtain ⟨name, w⟩ := entry
  simp only [readAs?, Option.map_eq_some_iff, afterFront?_eq_some, Prod.mk.injEq]
  constructor
  · rintro ⟨column, hname, rfl, rfl⟩
    refine ⟨String.toList_inj.1 ?_, rfl⟩
    simp [hname, rowName]
  · rintro ⟨rfl, rfl⟩
    exact ⟨c.toList, by simp [rowName], String.ofList_toList, rfl⟩

section Row
variable {row : Row} (h : row.keys.Nodup) (aliasName : String)
include h

theorem nodup_readAs? : (OrderedMap.keys (row.filterMap (readAs? aliasName))).Nodup := by
  refine List.pairwise_map.2 (List.pairwise_filterMap.2 ((List.pairwise_map.1 h).imp ?_))
  rintro a b hne ⟨c, v⟩ ha ⟨c', v'⟩ hb rfl
  rw [readAs?_eq_some.1 ha, readAs?_eq_some.1 hb] at hne
  exact hne rfl

/-- The columns of an alias, in the order of the row. -/
theorem ownValues_eq : ownValues aliasName row = row.filterMap (readAs? aliasName) :=
  OrderedMap.ofPairs_of_nodup (nodup_readAs? h aliasName)

theorem nodup_ownValues : (ownValues aliasName row).keys.Nodup :=
  ownValues_eq h aliasName ▸ nodup_readAs? h aliasName

theorem mem_ownValues {c : String} {v : Value} :
    (c, v) ∈ ownValues aliasName row ↔ (rowName aliasName c, v) ∈ row := by
  simp [ownValues_eq h, List.mem_filterMap, readAs?_eq_some]

end Row

/-! ### Marks -/

/-- A column's name with so many marks behind it. -/
def marked (column : String) : Nat → String
  | 0 => column
  | n + 1 => marked column n ++ "(base)"

/-- The name does not end with the mark. -/
def Unmarked (name : String) : Prop := ∀ front, name ≠ front ++ "(base)"

theorem unmarked_iff {name : String} :
    Unmarked name ↔ ¬ "(base)".toList <:+ name.toList := by
  refine not_exists.symm.trans (not_congr ⟨?_, ?_⟩)
  · rintro ⟨front, rfl⟩
    exact ⟨front.toList, by simp⟩
  · rintro ⟨front, hname⟩
    exact ⟨String.ofList front, String.toList_inj.1 (by simp [← hname])⟩

instance : DecidablePred Unmarked := fun _ => decidable_of_iff _ unmarked_iff.symm

/-- The name does not end with the mark in any case. -/
def Plain (name : String) : Prop := ∀ front, Text.sameName (front ++ "(base)") name = false

theorem plain_iff {name : String} : Plain name ↔ ¬ "(base)".toList <:+ Text.fold name := by
  have hmark : Text.fold "(base)" = "(base)".toList := by decide +kernel
  constructor
  · rintro h ⟨front, hfront⟩
    obtain ⟨letters, -, -, rfl, -⟩ := List.map_eq_append_iff.1 hfront.symm
    have hsame : Text.sameName (String.ofList letters ++ "(base)") name = true := by
      rw [Text.sameName_iff, Text.fold_append, hmark, ← hfront, Text.fold, String.toList_ofList]
    rw [h] at hsame
    exact Bool.noConfusion hsame
  · intro h front
    rw [Bool.eq_false_iff, ne_eq, Text.sameName_iff, Text.fold_append, hmark]
    exact fun hfold => h ⟨_, hfold⟩

instance : DecidablePred Plain := fun _ => decidable_of_iff _ plain_iff.symm

theorem marked_mark (column : String) (n : Nat) :
    marked (column ++ "(base)") n = marked column (n + 1) := by
  induction n with
  | zero => rfl
  | succ n ih => exact congrArg (· ++ "(base)") ih

theorem mark_injective {a b : String} (h : a ++ "(base)" = b ++ "(base)") : a = b := by
  simpa using h

/-- No name stands before one that it is made of by marks. So none comes twice. -/
def Layered (names : List String) : Prop := names.Pairwise fun a b => ∀ n, a ≠ marked b n

theorem Layered.nodup {names : List String} (h : Layered names) : names.Nodup :=
  h.imp fun hne => hne 0

theorem layered_of_unmarked {names : List String} (hnodup : names.Nodup)
    (h : ∀ name ∈ names, Unmarked name) : Layered names := by
  refine List.Pairwise.imp_of_mem (fun ha _ hne n => ?_) hnodup
  cases n with
  | zero => exact hne
  | succ n => exact h _ ha _

namespace Record

/-- An entry came into a record, marked once more or not at all. -/
def Moved (entry held : String × Value) : Prop :=
  held.2 = entry.2 ∧ (held.1 = entry.1 ∨ held.1 = entry.1 ++ "(base)")

/-- A column comes behind those of the record when none has its name, and else under its mark. -/
theorem absorbValue_eq (values : OrderedMap Value) (entry : String × Value) :
    (absorbValue values entry = values ++ [entry] ∧
        ∀ own ∈ values, Text.sameName own.1 entry.1 = false) ∨
      (absorbValue values entry = OrderedMap.put values (entry.1 ++ "(base)") entry.2 ∧
        ∃ own ∈ values, Text.sameName own.1 entry.1 = true) := by
  obtain ⟨column, v⟩ := entry
  cases h : values.any fun own => Text.sameName own.1 column with
  | true => exact .inr ⟨by simp [absorbValue, h], by simpa using h⟩
  | false =>
    have hfree : ∀ own ∈ values, Text.sameName own.1 column = false := by simpa using h
    have hnew : column ∉ values.keys := fun hmem => by
      obtain ⟨own, hown, rfl⟩ := List.mem_map.1 hmem
      simpa using hfree own hown
    refine .inl ⟨?_, hfree⟩
    rw [← OrderedMap.put_of_notMem hnew]
    simp [absorbValue, h]

/-- One column comes behind those that are there. -/
theorem absorbValue_appends {values : OrderedMap Value} {entry : String × Value}
    (h : ∀ own ∈ values.keys, ∀ n, own ≠ marked entry.1 (n + 1)) :
    ∃ held, Moved entry held ∧ absorbValue values entry = values ++ [held] ∧
      ∀ own ∈ values.keys, ∀ n, own ≠ marked held.1 n := by
  obtain ⟨habsorb, hfree⟩ | ⟨habsorb, -⟩ := absorbValue_eq values entry
  · have hnew : ∀ own ∈ values.keys, own ≠ entry.1 := by
      rintro own hown rfl
      obtain ⟨held, hheld, heq⟩ := List.mem_map.1 hown
      simpa [heq] using hfree held hheld
    refine ⟨entry, ⟨rfl, .inl rfl⟩, habsorb, fun own hown n => ?_⟩
    cases n with
    | zero => exact hnew own hown
    | succ n => exact h own hown n
  · have hnew : entry.1 ++ "(base)" ∉ values.keys := fun hmem => h _ hmem 0 rfl
    refine ⟨(entry.1 ++ "(base)", entry.2), ⟨rfl, .inr rfl⟩, ?_, fun own hown n => ?_⟩
    · rw [habsorb, OrderedMap.put_of_notMem hnew]
    · rw [marked_mark]
      exact h own hown n

/-- A base's columns come behind those that are there, one after another: none replaces one. -/
theorem absorbed {entries values : OrderedMap Value} (hentries : Layered entries.keys)
    (hvalues : Layered values.keys)
    (habove : ∀ own ∈ values.keys, ∀ column ∈ entries.keys, ∀ n, own ≠ marked column (n + 1)) :
    ∃ held, List.Forall₂ Moved entries held ∧ entries.foldl absorbValue values = values ++ held ∧
      Layered (OrderedMap.keys (values ++ held)) := by
  induction entries generalizing values with
  | nil => exact ⟨[], .nil, by simp, by simpa using hvalues⟩
  | cons entry rest ih =>
    obtain ⟨hentry, hrest⟩ := List.pairwise_cons.1 hentries
    obtain ⟨first, hmoved, habsorb, hnew⟩ := absorbValue_appends fun own hown =>
      habove own hown entry.1 (List.mem_cons_self ..)
    have hlayered : Layered (OrderedMap.keys (values ++ [first])) := by
      rw [OrderedMap.keys, List.map_append]
      exact List.pairwise_append.2 ⟨hvalues, List.pairwise_singleton .., fun own hown name hname =>
        List.mem_singleton.1 hname ▸ hnew own hown⟩
    have hbelow : ∀ column ∈ OrderedMap.keys rest, ∀ n, first.1 ≠ marked column (n + 1) := by
      intro column hcolumn n heq
      obtain hname | hname := hmoved.2
      · exact hentry column hcolumn (n + 1) (hname ▸ heq)
      · exact hentry column hcolumn n (mark_injective (hname ▸ heq))
    obtain ⟨held, hall, hfold, hkeys⟩ := ih hrest hlayered fun own hown column hcolumn n => by
      rw [OrderedMap.keys, List.map_append, List.mem_append] at hown
      obtain hown | hown := hown
      · exact habove own hown column (List.mem_cons_of_mem _ hcolumn) n
      · exact List.mem_singleton.1 hown ▸ hbelow column hcolumn n
    refine ⟨first :: held, .cons hmoved hall, ?_, by simpa using hkeys⟩
    rw [List.foldl_cons, habsorb, hfold]
    simp

/-! ### Looking up -/

open OrderedMap (get? getFold? named?)

/-- A name that a column of the record has already finds that column and not the new one. -/
theorem getFold?_of_taken {values : OrderedMap Value} {entry : String × Value} (name : String)
    (h : ∃ own ∈ values, Text.sameName own.1 entry.1 = true) :
    (getFold? values name).or (getFold? [entry] name) = getFold? values name := by
  cases hfound : getFold? values name with
  | some v => rfl
  | none =>
    obtain ⟨own, hown, hsame⟩ := h
    have hother := OrderedMap.getFold?_eq_none.1 hfound own hown
    have hentry : Text.sameName entry.1 name = false := by
      by_contra hsame'
      rw [Text.sameName_trans hsame (Bool.not_eq_false _ ▸ hsame')] at hother
      exact Bool.noConfusion hother
    simp [getFold?, hentry]

section Lookup
variable {name : String} (hname : Plain name)
include hname

/-- To a name without marks one more column is one more to be found, behind those that are there. -/
theorem lookup_absorbValue (values : OrderedMap Value) (entry : String × Value) :
    getFold? (absorbValue values entry) name =
        (getFold? values name).or (getFold? [entry] name) ∧
      named? (absorbValue values entry) name =
        (named? values name).or (getFold? [entry] name) := by
  obtain ⟨habsorb, hfree⟩ | ⟨habsorb, htaken⟩ := absorbValue_eq values entry
  · rw [habsorb]
    refine ⟨OrderedMap.getFold?_append .., ?_⟩
    rw [named?, named?, OrderedMap.getFold?_append, OrderedMap.get?_append]
    by_cases hsame : entry.1 = name
    · have hnone : getFold? values name = none := OrderedMap.getFold?_eq_none.2 (hsame ▸ hfree)
      simp [hnone, OrderedMap.get?_eq_none_of_getFold? hnone, get?, getFold?, hsame]
    · simp [get?, hsame, Option.or_assoc]
  · have hother : entry.1 ++ "(base)" ≠ name := by
      rintro rfl
      simpa using hname entry.1
    rw [habsorb, named?, named?, OrderedMap.getFold?_put_of_ne (hname _), OrderedMap.get?_put,
      if_neg hother, Option.or_assoc, getFold?_of_taken name htaken]
    exact ⟨rfl, rfl⟩

/-- Such a name finds a column of the record itself, and failing that the first absorbed. -/
theorem lookup_absorbed (entries values : OrderedMap Value) :
    getFold? (entries.foldl absorbValue values) name =
        (getFold? values name).or (getFold? entries name) ∧
      named? (entries.foldl absorbValue values) name =
        (named? values name).or (getFold? entries name) := by
  induction entries generalizing values with
  | nil => simp [getFold?]
  | cons entry rest ih =>
    obtain ⟨hfold, hnamed⟩ := lookup_absorbValue hname values entry
    have hsplit := OrderedMap.getFold?_append [entry] rest name
    rw [List.singleton_append] at hsplit
    rw [List.foldl_cons, (ih _).1, (ih _).2, hfold, hnamed, hsplit, Option.or_assoc,
      Option.or_assoc]
    exact ⟨rfl, rfl⟩

end Lookup

end Record

end EntityQuery
