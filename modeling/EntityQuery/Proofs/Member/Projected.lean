import EntityQuery.Proofs.Member.Meaning

/-! What a projection is written out as.

A projection without members, or of a member that leads to an entity, is written out as one path for
each column of the entity and of its ancestors but for hidden keys. The walk along the lineage that
writes them keeps the names it has come by; what it writes is told here by the nearer entities of
the lineage instead (`places`, `lineageColumns_eq`): a column that one of these hides stands under
the way up to its owner. No place has the names or the property of another (`pairwise_places`), and
where names are bare (`Bare`) the names of a place are read again from its path
(`segments_foldl_under`). -/
namespace EntityQuery

open Text (sameName trim)

namespace Member

/-! ### Bare names -/

/-- A name that a path gives as it is written. -/
structure Bare (name : String) : Prop where
  full : name ≠ ""
  trimmed : trim name = name
  undotted : '.' ∉ name.toList
  flat : '(' ∉ name.toList

theorem bare_iff {name : String} : Bare name ↔
    name ≠ "" ∧ trim name = name ∧ '.' ∉ name.toList ∧ '(' ∉ name.toList :=
  ⟨fun ⟨h, h', h'', h'''⟩ => ⟨h, h', h'', h'''⟩, fun ⟨h, h', h'', h'''⟩ => ⟨h, h', h'', h'''⟩⟩

instance (name : String) : Decidable (Bare name) := decidable_of_iff _ bare_iff.symm

/-- A bare name in another case is neither empty nor does it have a parenthesis. -/
theorem Bare.of_sameName {name name' : String} (h : Bare name)
    (hsame : sameName name name' = true) : name' ≠ "" ∧ '(' ∉ name'.toList := by
  rw [Text.sameName_iff] at hsame
  refine ⟨?_, fun hmem => h.flat (mem_fold_open.1 (hsame ▸ mem_fold_open.2 hmem))⟩
  rintro rfl
  exact h.full (by simpa [Text.fold] using hsame)

end Member

open Member (Bare)

/-- All names of a schema are bare. -/
def Schema.BareNames (s : Schema) : Prop :=
  ∀ e ∈ s.entities, Bare e.name ∧ ∀ name ∈ e.memberNames, Bare name

instance (s : Schema) : Decidable s.BareNames := inferInstanceAs (Decidable (∀ e ∈ s.entities, _))

namespace Member

variable {s : Schema} {root id target : Nat} {front path name : String} {names : List String}
  {way : List Navigation} {nearer rest : List Entity} {owner : Entity} {p : Property}

/-- The names of a path in front of others, which may be none. -/
def frontNames (front : String) : List String := if front = "" then [] else segments front

theorem under_eq (front name : String) :
    under front name = if front = "" then name else front ++ "." ++ name := rfl

theorem under_ne (hname : Bare name) (front : String) : under front name ≠ "" := by
  rw [under_eq]
  split
  · exact hname.full
  · simp

theorem segments_under (hname : Bare name) (front : String) :
    segments (under front name) = frontNames front ++ [name] := by
  have hself : segments name = [name] := by rw [segments_single hname.undotted, hname.trimmed]
  rw [under_eq, frontNames]
  split
  · rw [hself, List.nil_append]
  · rw [segments_join, hself]

/-- Names are read as they were written one under another. -/
theorem segments_foldl_under (hnames : ∀ name ∈ names, Bare name) (hne : names ≠ [])
    (front : String) : segments (names.foldl under front) = frontNames front ++ names := by
  induction names generalizing front with
  | nil => exact absurd rfl hne
  | cons name rest ih =>
    obtain ⟨hname, hrest⟩ := List.forall_mem_cons.1 hnames
    cases rest with
    | nil => exact segments_under hname front
    | cons next rest =>
      rw [List.foldl_cons, ih hrest (List.cons_ne_nil _ _), frontNames,
        if_neg (under_ne hname front), segments_under hname, List.append_assoc,
        List.singleton_append]

theorem flat_under (hname : Bare name) (hfront : '(' ∉ front.toList) :
    '(' ∉ (under front name).toList := by
  rw [under_eq]
  split
  · exact hname.flat
  · simp [hfront, hname.flat]

theorem flat_foldl_under (hnames : ∀ name ∈ names, Bare name) (hfront : '(' ∉ front.toList) :
    '(' ∉ (names.foldl under front).toList := by
  induction names generalizing front with
  | nil => exact hfront
  | cons name rest ih =>
    obtain ⟨hname, hrest⟩ := List.forall_mem_cons.1 hnames
    exact ih hrest (flat_under hname hfront)

/-- A path without a parenthesis is one of names alone. -/
theorem asks_of_flat (h : '(' ∉ path.toList) : Asks path (segments path) .value := by
  refine .value fun function argument happlies => ?_
  obtain ⟨-, -, -, before, between, after, -, hpath⟩ := happlies
  exact h (by simp [hpath])

/-! ### The columns that are written out -/

/-- One of the names is this one. -/
def hides (names : List String) (name : String) : Bool := names.any fun other => sameName other name

theorem hides_append (names names' : List String) (name : String) :
    hides (names ++ names') name = (hides names name || hides names' name) :=
  List.any_append

theorem hides_congr {name' : String} (h : sameName name name' = true) (names : List String) :
    hides names name = hides names name' := by
  simp only [hides, sameName_left h]

/-- One of these entities has a column under the name. -/
def covered (nearer : List Entity) (name : String) : Bool :=
  hides (nearer.flatMap fun e => e.columns.map (·.name)) name

theorem covered_eq_true : covered nearer name = true ↔
    ∃ e ∈ nearer, ∃ q ∈ e.columns, sameName q.name name = true := by
  simp [covered, hides]

/-- A property where it is shown, with the names that lead to it. -/
structure Place where
  names : List String
  owner : Entity
  property : Property

/-- A property behind the nearer entities of a lineage. Where these hide it, it is shown under the
way up to its owner. -/
def placeOf (nearer : List Entity) (owner : Entity) (p : Property) : Place where
  names := (if covered nearer p.name then (nearer ++ [owner]).tail.map (·.name) else []) ++ [p.name]
  owner
  property := p

/-- What an owner shows, which is all but hidden keys. -/
def placesOf (nearer : List Entity) (owner : Entity) : List Place :=
  (owner.columns.filter fun p => !(covered nearer p.name && p.key)).map (placeOf nearer owner)

/-- What the rest of a lineage shows. -/
def places (nearer : List Entity) : List Entity → List Place
  | [] => []
  | owner :: rest => placesOf nearer owner ++ places (nearer ++ [owner]) rest

theorem mem_placesOf {x : Place} : x ∈ placesOf nearer owner ↔ x.owner = owner ∧
    x.property ∈ owner.columns ∧ (covered nearer x.property.name && x.property.key) = false ∧
      x.names = (if covered nearer x.property.name then (nearer ++ [owner]).tail.map (·.name)
        else []) ++ [x.property.name] := by
  obtain ⟨names, holder, p⟩ := x
  simp only [placesOf, placeOf, List.mem_map, List.mem_filter, Place.mk.injEq, Bool.not_eq_true']
  constructor
  · rintro ⟨q, ⟨hq, hkept⟩, hnames, rfl, rfl⟩
    exact ⟨rfl, hq, hkept, hnames.symm⟩
  · rintro ⟨rfl, hp, hkept, hnames⟩
    exact ⟨p, ⟨hp, hkept⟩, hnames.symm, rfl, rfl⟩

theorem mem_places {x : Place} : x ∈ places nearer rest ↔ ∃ mid owner farther,
    rest = mid ++ owner :: farther ∧ x ∈ placesOf (nearer ++ mid) owner := by
  induction rest generalizing nearer with
  | nil => simp [places]
  | cons e rest ih =>
    rw [places, List.mem_append, ih]
    constructor
    · rintro (h | ⟨mid, owner, farther, rfl, h⟩)
      · exact ⟨[], e, rest, rfl, by rwa [List.append_nil]⟩
      · exact ⟨e :: mid, owner, farther, rfl, by rwa [List.append_cons]⟩
    · rintro ⟨mid, owner, farther, hrest, h⟩
      rcases List.append_eq_cons_iff.1 hrest.symm with ⟨rfl, hhead⟩ | ⟨mid', rfl, hrest'⟩
      · obtain ⟨rfl, rfl⟩ := List.cons.inj hhead
        exact .inl (by rwa [List.append_nil] at h)
      · exact .inr ⟨mid', owner, farther, hrest', by rwa [List.append_cons] at h⟩

/-- What is shown of a lineage has names and is shown by an entity of the lineage. -/
theorem mem_places_lineage {x : Place} : x ∈ places [] (s.lineage (s.entity target)) ↔
    ∃ nearer farther, s.lineage (s.entity target) = nearer ++ x.owner :: farther ∧
      x ∈ placesOf nearer x.owner := by
  rw [mem_places]
  simp only [List.nil_append]
  constructor
  · rintro ⟨nearer, owner, farther, hlineage, hx⟩
    obtain rfl := (mem_placesOf.1 hx).1
    exact ⟨nearer, farther, hlineage, hx⟩
  · exact fun ⟨nearer, farther, hlineage, hx⟩ => ⟨nearer, _, farther, hlineage, hx⟩

section Written
variable {chain : String} {seen : List String} {ps : List Property}

/-- The properties of one entity do not hide each other. -/
def Apart (ps : List Property) : Prop := ps.Pairwise fun p q => sameName p.name q.name = false

theorem ownerColumns_cons : ownerColumns front chain seen (p :: ps) =
    if hides seen p.name && p.key then ownerColumns front chain seen ps
    else ((ownerColumns front chain (seen ++ [p.name]) ps).1,
      (if hides seen p.name then under chain p.name else under front p.name) ::
        (ownerColumns front chain (seen ++ [p.name]) ps).2) := by
  rw [ownerColumns]
  rfl

/-- The columns of an owner are written with the way up to it where names before hide them, but for
hidden keys. -/
theorem ownerColumns_eq (hapart : Apart ps) :
    let kept := ps.filter fun p => !(hides seen p.name && p.key)
    ownerColumns front chain seen ps = (seen ++ kept.map (·.name), kept.map fun p =>
      if hides seen p.name then under chain p.name else under front p.name) := by
  induction ps generalizing seen with
  | nil => simp [ownerColumns]
  | cons p rest ih =>
    obtain ⟨hp, hrest⟩ := List.pairwise_cons.1 hapart
    have hsame : ∀ q ∈ rest, hides (seen ++ [p.name]) q.name = hides seen q.name := fun q hq => by
      simp [hides, hp q hq]
    rw [ownerColumns_cons]
    cases hskip : hides seen p.name && p.key with
    | true => rw [if_pos rfl, ih hrest, List.filter_cons_of_neg (by simp [hskip])]
    | false =>
      have hkept : (rest.filter fun q => !(hides (seen ++ [p.name]) q.name && q.key)) =
          rest.filter fun q => !(hides seen q.name && q.key) :=
        List.filter_congr fun q hq => by rw [hsame q hq]
      have hpaths : ((rest.filter fun q => !(hides seen q.name && q.key)).map fun q =>
          if hides (seen ++ [p.name]) q.name then under chain q.name else under front q.name) =
          (rest.filter fun q => !(hides seen q.name && q.key)).map fun q =>
            if hides seen q.name then under chain q.name else under front q.name :=
        List.map_congr_left fun q hq => by rw [hsame q (List.mem_of_mem_filter hq)]
      simp only [ih hrest, hkept, hpaths]
      rw [List.filter_cons_of_pos (by simp [hskip]), if_neg Bool.false_ne_true]
      simp

/-- Of two places of a lineage neither has the names nor the property of the other. -/
theorem pairwise_places (hapart : ∀ e ∈ rest, Apart e.columns) (honce : rest.Nodup) :
    (places nearer rest).Pairwise fun x y => x.names ≠ y.names ∧
      (x.owner, x.property) ≠ (y.owner, y.property) := by
  induction rest generalizing nearer with
  | nil => exact .nil
  | cons owner rest ih =>
    obtain ⟨hown, hrest⟩ := List.forall_mem_cons.1 hapart
    obtain ⟨hnot, honce⟩ := List.nodup_cons.1 honce
    refine List.pairwise_append.2 ⟨?_, ih hrest honce, fun x hx y hy => ?_⟩
    · refine List.pairwise_map.2 ((List.Pairwise.filter _ hown).imp fun {p q} hne => ?_)
      have hname : p.name ≠ q.name := fun heq => by simp [heq] at hne
      refine ⟨fun heq => hname ?_, fun heq => hname ?_⟩
      · exact (List.append_singleton_inj.1 heq).2
      · exact congrArg Property.name (Prod.mk.inj heq).2
    · obtain ⟨rfl, hp, -, hnames⟩ := mem_placesOf.1 hx
      obtain ⟨mid, other, farther, hsplit, hy⟩ := mem_places.1 hy
      obtain ⟨hother, -, -, hnames'⟩ := mem_placesOf.1 hy
      refine ⟨fun heq => ?_, fun heq => hnot ?_⟩
      · rw [hnames, hnames', List.append_singleton_inj] at heq
        obtain ⟨hchain, hname⟩ := heq
        have hcovered : covered (nearer ++ [x.owner] ++ mid) y.property.name = true :=
          covered_eq_true.2 ⟨x.owner, by simp, x.property, hp, by rw [hname, Text.sameName_refl]⟩
        -- The farther owner is hidden by the nearer one and so has a longer way up.
        have hlength := congrArg List.length hchain
        rw [if_pos hcovered] at hlength
        split at hlength <;> simp at hlength
      · rw [hsplit, (Prod.mk.inj heq).1, hother]
        simp

/-- Hidden keys hide nothing that was not hidden before. -/
theorem hides_kept (seen : List String) (ps : List Property) (name : String) :
    hides (seen ++ (ps.filter fun p => !(hides seen p.name && p.key)).map (·.name)) name =
      (hides seen name || hides (ps.map (·.name)) name) := by
  rw [hides_append]
  cases hseen : hides seen name with
  | true => rfl
  | false =>
    rw [Bool.false_or, Bool.false_or, hides, hides, List.any_map, List.any_map, List.any_filter]
    refine congrArg (ps.any ·) (funext fun p => ?_)
    cases hsame : sameName p.name name with
    | false => simp [hsame]
    | true => simp [hsame, hides_congr hsame, hseen]

/-- What is written of a lineage is what it shows, with the names one under another. -/
theorem lineageColumns_eq (hapart : ∀ e ∈ rest, Apart e.columns)
    (hseen : ∀ name, hides seen name = covered nearer name) (hchain : ∀ owner ∈ rest.head?,
      chain = ((nearer ++ [owner]).tail.map (·.name)).foldl under front) :
    lineageColumns front chain seen rest =
      (places nearer rest).map fun x => x.names.foldl under front := by
  induction rest generalizing nearer chain seen with
  | nil => rfl
  | cons owner rest ih =>
    obtain ⟨hown, hrest⟩ := List.forall_mem_cons.1 hapart
    have howner := hchain owner rfl
    have hwritten : ((owner.columns.filter fun p => !(hides seen p.name && p.key)).map fun p =>
        if hides seen p.name then under chain p.name else under front p.name) =
        (placesOf nearer owner).map fun x => x.names.foldl under front := by
      rw [placesOf, List.map_map]
      simp only [hseen]
      refine List.map_congr_left fun p _ => ?_
      rw [Function.comp_apply, placeOf, List.foldl_append, howner]
      split <;> rfl
    have hnext : ∀ name, hides (seen ++ (owner.columns.filter fun p =>
        !(hides seen p.name && p.key)).map (·.name)) name = covered (nearer ++ [owner]) name :=
      fun name => by
        rw [hides_kept, hseen, covered, covered, List.flatMap_append, hides_append,
          List.flatMap_singleton]
    rw [lineageColumns, ownerColumns_eq hown, hwritten, places, List.map_append]
    cases rest with
    | nil => simp [places]
    | cons base more =>
      refine congrArg (_ ++ ·) (ih hrest hnext ?_)
      rintro other ⟨⟩
      have htail : (nearer ++ [owner] ++ [base]).tail = (nearer ++ [owner]).tail ++ [base] :=
        List.tail_append_of_ne_nil (by simp)
      rw [howner, htail, List.map_append, List.foldl_append]
      rfl

end Written

end Member
end EntityQuery
