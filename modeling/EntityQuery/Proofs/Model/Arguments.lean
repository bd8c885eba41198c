import EntityQuery.Model.Descriptor
import EntityQuery.Schema.Build
import Mathlib.Data.List.Induction

/-! Which property a constructor argument comes from.

A constructor asks for an argument by the name of a parameter, up to case. Several properties of a
lineage can name one parameter. Their values are put under it one after another, nearest first, so
what is found is the value of the last one that spells the parameter as the nearest does: not the
nearest, by which members are looked up, unless the two have one value (`argument_nearest_iff`). -/
namespace EntityQuery

/-! ### Maps -/

namespace OrderedMap
variable {α : Type} {m : OrderedMap α}

theorem ofPairs_concat (pairs : List (String × α)) (entry : String × α) :
    ofPairs (pairs ++ [entry]) = put (ofPairs pairs) entry.1 entry.2 := by
  rw [ofPairs, List.foldl_append, List.foldl_cons, List.foldl_nil, ← ofPairs]

/-- Of the values put under a key the last one stays. -/
theorem get?_ofPairs (pairs : List (String × α)) (key : String) :
    get? (ofPairs pairs) key = (pairs.reverse.find? (·.1 = key)).map Prod.snd := by
  induction pairs using List.reverseRecOn with
  | nil => rfl
  | append_singleton pairs entry ih =>
    rw [ofPairs_concat, get?_put, ih, List.reverse_concat, List.find?_cons]
    by_cases h : entry.1 = key <;> simp [h]

theorem nodup_keys_ofPairs (pairs : List (String × α)) : (keys (ofPairs pairs)).Nodup := by
  induction pairs using List.reverseRecOn with
  | nil => exact .nil
  | append_singleton pairs entry ih =>
    rw [ofPairs_concat]
    exact nodup_keys_put ih ..

/-- Keys stand in the order in which they came first. -/
theorem find?_keys_ofPairs (p : String → Bool) (pairs : List (String × α)) :
    (keys (ofPairs pairs)).find? p = (pairs.find? fun entry => p entry.1).map Prod.fst := by
  induction pairs using List.reverseRecOn with
  | nil => rfl
  | append_singleton pairs entry ih =>
    have hput : (keys (put (ofPairs pairs) entry.1 entry.2)).find? p =
        ((keys (ofPairs pairs)).find? p).or ([entry.1].find? p) := by
      rw [keys_put]
      split
      · next hmem =>
        cases hp : p entry.1 with
        | false => simp [hp]
        | true =>
          obtain ⟨key, hkey⟩ := Option.isSome_iff_exists.1 (List.find?_isSome.2 ⟨_, hmem, hp⟩)
          rw [hkey, Option.some_or]
      · exact List.find?_append
    rw [ofPairs_concat, hput, ih, List.find?_append, Option.map_or]
    cases hp : p entry.1 <;> simp [hp]

/-- What is found up to case stands under the first key of the name. -/
theorem getFold?_eq_bind (h : (keys m).Nodup) (name : String) :
    getFold? m name = ((keys m).find? (Text.sameName · name)).bind (get? m) := by
  induction m with
  | nil => rfl
  | cons entry rest ih =>
    obtain ⟨key, v⟩ := entry
    obtain ⟨hnew, hrest⟩ := List.nodup_cons.1 h
    rw [getFold?, keys, List.map_cons, List.find?_cons]
    cases hsame : Text.sameName key name with
    | true => simp [get?]
    | false =>
      rw [if_neg (by simp), ih hrest, ← keys]
      refine Option.bind_congr fun other hother => ?_
      have hne : key ≠ other := fun heq => hnew (heq ▸ List.mem_of_find?_eq_some hother)
      rw [get?, if_neg hne]

/-- What is taken by a name is what is found by it. -/
theorem fst_takeFold? (m : OrderedMap α) (name : String) :
    (takeFold? m name).map Prod.fst = getFold? m name := by
  induction m with
  | nil => rfl
  | cons entry rest ih =>
    obtain ⟨key, v⟩ := entry
    rw [takeFold?, getFold?]
    split
    · rfl
    · rw [← ih, Option.map_map]
      rfl

/-- Taking one entry leaves what is found by another name. -/
theorem getFold?_of_takeFold? {rest : OrderedMap α} {other name : String} {v : α}
    (h : takeFold? m other = some (v, rest)) (hother : Text.sameName other name = false) :
    getFold? rest name = getFold? m name := by
  induction m generalizing rest with
  | nil => exact absurd h (by simp [takeFold?])
  | cons entry more ih =>
    obtain ⟨key, w⟩ := entry
    rw [takeFold?] at h
    by_cases hkey : Text.sameName key other = true
    · rw [if_pos hkey] at h
      obtain ⟨rfl, rfl⟩ := Prod.mk.inj (Option.some.inj h)
      have hname : Text.sameName key name = false := by
        by_contra hsame
        rw [Text.sameName_comm] at hkey
        rw [Text.sameName_trans hkey (Bool.not_eq_false _ ▸ hsame)] at hother
        exact Bool.noConfusion hother
      rw [getFold?, hname]
      rfl
    · rw [if_neg hkey] at h
      obtain ⟨⟨found, left⟩, htake, heq⟩ := Option.map_eq_some_iff.1 h
      obtain ⟨rfl, rfl⟩ := Prod.mk.inj heq
      rw [getFold?, getFold?, ih htake]

end OrderedMap

/-! ### Taking arguments -/

namespace WithArguments

/-- The value that a constructor gets when it asks for an argument, whichever other arguments it
took before. -/
def Hands (args : OrderedMap Value) (name : String) (v : Value) : Prop :=
  ∀ earlier : List String, (∀ other ∈ earlier, Text.sameName other name = false) →
    (do discard (earlier.mapM takeValue); takeValue name).run' args = .ok v

variable {args : OrderedMap Value} {name : String}

theorem bind_of {α β : Type} {step : WithArguments α} {rest : OrderedMap Value} {a : α}
    (h : step args = .ok (a, rest)) (f : α → WithArguments β) : (step >>= f) args = f a rest := by
  show step args >>= (fun taken => f taken.1 taken.2) = _
  rw [h]
  rfl

/-- Taking an argument leaves the others. -/
theorem takeValue_ok (args : OrderedMap Value) (other : String) : ∃ rest,
    takeValue other args = .ok ((OrderedMap.getFold? args other).getD .null, rest) ∧
      ∀ name, Text.sameName other name = false →
        OrderedMap.getFold? rest name = OrderedMap.getFold? args name := by
  rw [← OrderedMap.fst_takeFold?, takeValue]
  cases htake : OrderedMap.takeFold? args other with
  | none => exact ⟨args, rfl, fun _ _ => rfl⟩
  | some taken =>
    exact ⟨taken.2, rfl, fun _ hother => OrderedMap.getFold?_of_takeFold? htake hother⟩

theorem mapM_takeValue_ok {earlier : List String}
    (h : ∀ other ∈ earlier, Text.sameName other name = false) (args : OrderedMap Value) :
    ∃ vs rest, earlier.mapM takeValue args = .ok (vs, rest) ∧
      OrderedMap.getFold? rest name = OrderedMap.getFold? args name := by
  induction earlier generalizing args with
  | nil => exact ⟨[], args, rfl, rfl⟩
  | cons other earlier ih =>
    obtain ⟨hother, hearlier⟩ := List.forall_mem_cons.1 h
    obtain ⟨rest, htake, hleft⟩ := takeValue_ok args other
    obtain ⟨vs, rest', hmore, hsame⟩ := ih hearlier rest
    refine ⟨(OrderedMap.getFold? args other).getD .null :: vs, rest', ?_,
      hsame.trans (hleft name hother)⟩
    rw [List.mapM_cons, bind_of htake, bind_of hmore]
    rfl

/-- The value handed over is the one found by the name, and null where there is none. -/
theorem hands_iff {v : Value} :
    Hands args name v ↔ (OrderedMap.getFold? args name).getD .null = v := by
  have htaken {earlier : List String} (h : ∀ other ∈ earlier, Text.sameName other name = false) :
      (do discard (earlier.mapM takeValue); takeValue name : WithArguments Value).run' args =
        .ok ((OrderedMap.getFold? args name).getD .null) := by
    obtain ⟨vs, rest, hearlier, hsame⟩ := mapM_takeValue_ok h args
    obtain ⟨left, htake, -⟩ := takeValue_ok rest name
    have hdiscard : (discard (earlier.mapM takeValue)) args = .ok ((), rest) := by
      show (fun taken => _) <$> earlier.mapM takeValue args = _
      rw [hearlier]
      rfl
    show Prod.fst <$> (discard (earlier.mapM takeValue) >>= fun _ => takeValue name) args = _
    rw [bind_of hdiscard, htake, hsame]
    rfl
  constructor
  · intro h
    have hnothing := h [] (by simp)
    rw [htaken (by simp)] at hnothing
    exact Except.ok.inj hnothing
  · rintro rfl earlier h
    exact htaken h

end WithArguments

/-! ### The properties of a lineage -/

/-- What a property has to hand to a constructor: the parameter it names, and the value of its
column. -/
def Record.argument? (r : Record) (p : Property) : Option (String × Value) := do
  let parameter ← p.constructor
  let v ← r.value? p.column
  return (parameter, v)

namespace Descriptor

/-- The argument of the nearest property in the lineage that names the parameter and whose column
the record has, under the name as the property spells it. Members are looked up in the same way
(`Schema.nearestProperty?`). -/
def nearestArgument? (s : Schema) (e : Entity) (r : Record) (name : String) :
    Option (String × Value) :=
  (s.lineage e).findSome? fun owner => owner.columns.findSome? fun p =>
    (r.argument? p).filter fun argument => Text.sameName argument.1 name

/-- The value of the last property in the lineage that names the parameter by just this text and
whose column the record has. -/
def lastArgument? (s : Schema) (e : Entity) (r : Record) (parameter : String) : Option Value :=
  (s.lineage e).reverse.findSome? fun owner => owner.columns.reverse.findSome? fun p =>
    ((r.argument? p).filter fun argument => argument.1 = parameter).map Prod.snd

/-- Loading makes the model from these arguments and then sets its fields and navigations. -/
def ConstructsFrom {μ : Type} (d : Descriptor μ) (s : Schema) (e : Entity) (r : Record)
    (args : OrderedMap Value) : Prop :=
  d.load s r = do
    let model ← inContext (.usage (.constructing e.name)) (d.construct.run' args)
    let model ← d.fields.foldlM (setField s e r) model
    let (model, _) ← d.navigations.foldlM (setNavigation s) (model, r.navigations)
    return model

/-- The arguments that a lineage supplies, nearest first. -/
def supplied (s : Schema) (e : Entity) (r : Record) : List (String × Value) :=
  (s.lineage e).flatMap fun owner => owner.columns.filterMap r.argument?

variable {s : Schema} {e : Entity} {r : Record}

theorem arguments_eq : arguments s e r = OrderedMap.ofPairs (supplied s e r) := rfl

theorem constructsFrom_arguments {μ : Type} {d : Descriptor μ} (he : s.resolve d.entity = .ok e)
    (r : Record) : d.ConstructsFrom s e r (arguments s e r) := by
  rw [ConstructsFrom, load, he]
  rfl

theorem find?_argument (r : Record) (properties : List Property) (p : String × Value → Bool) :
    (properties.filterMap r.argument?).find? p =
      properties.findSome? fun property => (r.argument? property).filter p := by
  rw [← List.head?_filter, List.filter_filterMap, List.head?_filterMap]

theorem nearestArgument?_eq (name : String) : nearestArgument? s e r name =
    (supplied s e r).find? fun argument => Text.sameName argument.1 name := by
  simp only [supplied, List.find?_flatMap, find?_argument]
  rfl

theorem lastArgument?_eq (parameter : String) : lastArgument? s e r parameter =
    ((supplied s e r).reverse.find? (·.1 = parameter)).map Prod.snd := by
  simp only [lastArgument?, supplied, List.reverse_flatMap, List.find?_flatMap, Function.comp_def,
    ← List.filterMap_reverse, find?_argument, List.map_findSome?]

/-- What a constructor finds by a name: the last argument that is spelled as the nearest is. -/
theorem getFold?_arguments (name : String) : OrderedMap.getFold? (arguments s e r) name =
    ((nearestArgument? s e r name).map Prod.fst).bind (lastArgument? s e r) := by
  rw [arguments_eq, OrderedMap.getFold?_eq_bind (OrderedMap.nodup_keys_ofPairs _),
    OrderedMap.find?_keys_ofPairs, nearestArgument?_eq]
  refine Option.bind_congr fun parameter _ => ?_
  rw [OrderedMap.get?_ofPairs, lastArgument?_eq]

/-- Where there is a nearest argument, there is a last one of its spelling. -/
theorem exists_lastArgument? {name parameter : String} {v : Value}
    (h : nearestArgument? s e r name = some (parameter, v)) :
    ∃ last, lastArgument? s e r parameter = some last := by
  rw [nearestArgument?_eq] at h
  have hfound : ((supplied s e r).reverse.find? (·.1 = parameter)).isSome :=
    List.find?_isSome.2 ⟨_, List.mem_reverse.2 (List.mem_of_find?_eq_some h), by simp⟩
  obtain ⟨last, hlast⟩ := Option.isSome_iff_exists.1 hfound
  exact ⟨last.2, by rw [lastArgument?_eq, hlast, Option.map_some]⟩

open WithArguments (Hands hands_iff)

/-- **An argument comes from the last property that spells its parameter as the nearest does.** A
constructor gets null for a parameter that no property supplies. Else it gets a value, and this is
the value of the nearest property if and only if the last property that spells the parameter like
the nearest has the same value. -/
theorem argument_nearest_iff (s : Schema) (e : Entity) (r : Record) :
    (∀ {μ : Type} (d : Descriptor μ), s.resolve d.entity = .ok e →
      d.ConstructsFrom s e r (arguments s e r)) ∧
    ∀ name,
      (nearestArgument? s e r name = none → Hands (arguments s e r) name .null) ∧
      ∀ parameter v, nearestArgument? s e r name = some (parameter, v) →
        (∃ last, lastArgument? s e r parameter = some last ∧
          Hands (arguments s e r) name last) ∧
        (Hands (arguments s e r) name v ↔ lastArgument? s e r parameter = some v) := by
  refine ⟨fun d he => constructsFrom_arguments he r, fun name => ⟨fun hnone => ?_, ?_⟩⟩
  · rw [hands_iff, getFold?_arguments, hnone]
    rfl
  · intro parameter v hnearest
    have hfound : OrderedMap.getFold? (arguments s e r) name = lastArgument? s e r parameter := by
      rw [getFold?_arguments, hnearest, Option.map_some, Option.bind_some]
    obtain ⟨last, hlast⟩ := exists_lastArgument? hnearest
    refine ⟨⟨last, hlast, ?_⟩, ?_⟩
    · rw [hands_iff, hfound, hlast, Option.getD_some]
    · rw [hands_iff, hfound, hlast, Option.getD_some, Option.some_inj]

/-! ### Titles

An invoice inherits an order, and each has a column of its own for the title. -/

def titles : List (String × Mapping.Document) := [
  ("titles", ⟨[
    { name := "Order", table := some "orders", keys := [{name := "Id"}]
      properties := [{name := "Title", constructor := some "title"}] },
    { name := "Invoice", base := some "Order"
      properties := [{name := "Heading", constructor := some "title"}] }]⟩)]

def titlesSchema : Schema :=
  match Schema.build titles with
  | .ok s => s
  | .error _ => ⟨[]⟩

theorem titlesSchema_builds : Schema.build titles = .ok titlesSchema := rfl

/-- A model that is the title of an invoice. -/
def titleReader : Descriptor Value where
  entity := "Invoice"
  construct := WithArguments.takeValue "Title"

def headed : Record := ⟨"Invoice", [("Id", .int32 1), ("Heading", .text "heading")], []⟩

/-- Of an invoice that is read without the order's title, the heading is the title. -/
theorem argument_nearest_iff_headed :
    titlesSchema.resolve titleReader.entity = .ok (titlesSchema.entity 1) ∧
    titleReader.ConstructsFrom titlesSchema (titlesSchema.entity 1) headed
      (arguments titlesSchema (titlesSchema.entity 1) headed) ∧
    nearestArgument? titlesSchema (titlesSchema.entity 1) headed "Title" =
      some ("title", .text "heading") ∧
    Hands (arguments titlesSchema (titlesSchema.entity 1) headed) "Title" (.text "heading") := by
  have he : titlesSchema.resolve titleReader.entity = .ok (titlesSchema.entity 1) := rfl
  have hnearest : nearestArgument? titlesSchema (titlesSchema.entity 1) headed "Title" =
      some ("title", .text "heading") := by decide +kernel
  have hlast : lastArgument? titlesSchema (titlesSchema.entity 1) headed "title" =
      some (.text "heading") := by decide +kernel
  obtain ⟨hconstructs, harguments⟩ :=
    argument_nearest_iff titlesSchema (titlesSchema.entity 1) headed
  obtain ⟨-, hiff⟩ := (harguments "Title").2 "title" (.text "heading") hnearest
  exact ⟨he, hconstructs titleReader he, hnearest, hiff.2 hlast⟩

def titled : Record :=
  ⟨"Invoice", [("Id", .int32 1), ("Heading", .text "heading"), ("Title", .text "title")], []⟩

/-- Of an invoice that is read with the order's title, the constructor gets that in place of the
heading, which is nearer. -/
theorem heading_overtaken : Schema.build titles = .ok titlesSchema ∧
    titlesSchema.resolve titleReader.entity = .ok (titlesSchema.entity 1) ∧
    nearestArgument? titlesSchema (titlesSchema.entity 1) titled "Title" =
      some ("title", .text "heading") ∧
    titleReader.load titlesSchema titled = .ok (.text "title") :=
  ⟨titlesSchema_builds, rfl, by decide +kernel, rfl⟩

end Descriptor

end EntityQuery
