import EntityQuery.Proofs.JoinGraph.Nesting
import EntityQuery.Proofs.Member.Trail

/-! Scopes of two graphs that answer to each other.

Two graphs may have the same joins under other numbers, and one may have joins that the other has
not. Scopes answer to each other when one trail leads to both (`Matches`). What is declared of the
joins on a trail is then the same on both sides, and so is what is said of joins by trails alone:
which of them are needed for some scopes (`mem_joinsTo_iff_trail`), which are flipped
(`Matches.flipped_iff`), the kind they are made with (`Matches.kind_eq`), and what is asked of their
matches (`Matches.demands_iff`). -/
namespace EntityQuery.JoinGraph

/-- The same navigations lead to a scope of one graph and to one of another. -/
structure Matches (g g' : JoinGraph) (a b : Nat) : Prop where
  left : a ≤ g.joins.length
  right : b ≤ g'.joins.length
  trail : g.trail a = g'.trail b

/-- The scopes of two lists answer to each other. -/
structure Match (g g' : JoinGraph) (scopes scopes' : List Nat) : Prop where
  forth : ∀ a ∈ scopes, ∃ b ∈ scopes', Matches g g' a b
  back : ∀ b ∈ scopes', ∃ a ∈ scopes, Matches g g' a b

variable {s : Schema} {g g' : JoinGraph} {a b j k : Nat}

/-! ### Trails and joins -/

/-- A scope stands below a LEFT join when its trail has one. -/
theorem underLeft_eq_trail (g : JoinGraph) (scope : Nat) :
    g.underLeft scope = (g.trail scope).any (·.kind == .left) := by
  rw [underLeft, trail, List.any_filterMap]
  refine List.any_congr rfl fun j => ?_
  cases hget : g.joins[j]? <;> simp [isLeft, hget]

theorem Homed.mem_rootPath_iff (hg : g.Homed s) (hj : j < g.joins.length)
    (ha : a ≤ g.joins.length) : j ∈ g.rootPath a ↔ g.trail (j + 1) <+: g.trail a := by
  constructor
  · exact fun h => (hg.rooted.rootPath_prefix h).filterMap _
  · intro h
    induction a using Nat.strongRecOn with
    | ind a ih =>
      match a with
      | 0 => simp [hg.rooted.trail_succ (List.getElem?_eq_getElem hj)] at h
      | i + 1 =>
        have hget : g.joins[i]? = some g.joins[i] := List.getElem?_eq_getElem ha
        have hle := hg.rooted.parent_le hget
        rw [hg.rooted.trail_succ hget, List.prefix_concat_iff, ← hg.rooted.trail_succ hget] at h
        rcases h with h | h
        · obtain rfl := Nat.succ.inj (hg.trail_injective hj ha h)
          exact hg.rooted.mem_rootPath_self ha
        · have hmem := ih _ (by omega) (by omega) h
          rw [hg.rooted.rootPath_succ ha, parent_eq hget]
          exact List.mem_append_left _ hmem

/-- A join is needed for some scopes when its trail begins that of one of them. -/
theorem Homed.mem_joinsTo_iff_trail (hg : g.Homed s) (hj : j < g.joins.length) {scopes : List Nat}
    (hscopes : ∀ a ∈ scopes, a ≤ g.joins.length) :
    j ∈ g.joinsTo scopes ↔ ∃ a ∈ scopes, g.trail (j + 1) <+: g.trail a := by
  rw [hg.rooted.mem_joinsTo]
  exact exists_congr fun a => and_congr_right fun ha => hg.mem_rootPath_iff hj (hscopes a ha)

namespace Matches

theorem symm (h : Matches g g' a b) : Matches g' g b a := ⟨h.right, h.left, h.trail.symm⟩

theorem root (g g' : JoinGraph) : Matches g g' 0 0 :=
  ⟨Nat.zero_le _, Nat.zero_le _, by rw [trail_zero, trail_zero]⟩

theorem right_unique (hg' : g'.Homed s) {b' : Nat} (h : Matches g g' a b)
    (h' : Matches g g' a b') : b = b' :=
  hg'.trail_injective h.right h'.right (h.trail.symm.trans h'.trail)

theorem left_unique (hg : g.Homed s) {a' : Nat} (h : Matches g g' a b)
    (h' : Matches g g' a' b) : a = a' :=
  hg.trail_injective h.left h'.left (h.trail.trans h'.trail.symm)

theorem underLeft (h : Matches g g' a b) : g.underLeft a = g'.underLeft b := by
  rw [underLeft_eq_trail, underLeft_eq_trail, h.trail]

variable (hg : g.Rooted) (hg' : g'.Rooted)
include hg hg'

/-- Joins that answer to each other follow one navigation from scopes that do. -/
theorem join (h : Matches g g' (j + 1) (k + 1)) : ∃ p q n, g.joins[j]? = some ⟨p, n⟩ ∧
    g'.joins[k]? = some ⟨q, n⟩ ∧ Matches g g' p q := by
  have hleft : j < g.joins.length := h.left
  have hright : k < g'.joins.length := h.right
  obtain ⟨⟨p, n⟩, hget⟩ : ∃ join, g.joins[j]? = some join := ⟨_, List.getElem?_eq_getElem hleft⟩
  obtain ⟨⟨q, m⟩, hget'⟩ : ∃ join, g'.joins[k]? = some join := ⟨_, List.getElem?_eq_getElem hright⟩
  have htrail := h.trail
  rw [hg.trail_succ hget, hg'.trail_succ hget', List.append_singleton_inj] at htrail
  obtain ⟨hparents, rfl⟩ := htrail
  have hp : p ≤ j := hg.parent_le hget
  have hq : q ≤ k := hg'.parent_le hget'
  exact ⟨p, q, n, hget, hget', by omega, by omega, hparents⟩

theorem parent (h : Matches g g' (j + 1) (k + 1)) : Matches g g' (g.parent j) (g'.parent k) := by
  obtain ⟨p, q, n, hj, hk, hparent⟩ := h.join hg hg'
  rwa [parent_eq hj, parent_eq hk]

/-- The root answers to the root only. -/
theorem succ (h : Matches g g' a b) : a = 0 ∧ b = 0 ∨ ∃ j k, a = j + 1 ∧ b = k + 1 := by
  have htrail := h.trail
  match a, b with
  | 0, 0 => exact .inl ⟨rfl, rfl⟩
  | 0, k + 1 =>
    rw [hg'.trail_succ (List.getElem?_eq_getElem h.right)] at htrail
    simp at htrail
  | j + 1, 0 =>
    rw [hg.trail_succ (List.getElem?_eq_getElem h.left)] at htrail
    simp at htrail
  | j + 1, k + 1 => exact .inr ⟨j, k, rfl, rfl⟩

/-- Scopes with one trail are of one entity, when their roots are. -/
theorem entityAt (hroot : g.root = g'.root) (h : Matches g g' a b) :
    g.entityAt a = g'.entityAt b := by
  obtain ⟨rfl, rfl⟩ | ⟨j, k, rfl, rfl⟩ := h.succ hg hg'
  · exact hroot
  · obtain ⟨p, q, n, hj, hk, -⟩ := h.join hg hg'
    simp [JoinGraph.entityAt, hj, hk]

theorem isLeft (h : Matches g g' (j + 1) (k + 1)) : g.isLeft [] j = g'.isLeft [] k := by
  obtain ⟨p, q, n, hj, hk, -⟩ := h.join hg hg'
  simp [JoinGraph.isLeft, hj, hk]

theorem isNested (h : Matches g g' (j + 1) (k + 1)) : g.isNested [] j = g'.isNested [] k := by
  rw [isNested_declared, isNested_declared, h.isLeft hg hg', (h.parent hg hg').underLeft]

end Matches

theorem Match.symm {scopes scopes' : List Nat} (h : Match g g' scopes scopes') :
    Match g' g scopes' scopes where
  forth b hb :=
    let ⟨a, ha, hab⟩ := h.back b hb
    ⟨a, ha, hab.symm⟩
  back a ha :=
    let ⟨b, hb, hab⟩ := h.forth a ha
    ⟨b, hb, hab.symm⟩

/-! ### Needed joins -/

section Needed
variable (hg : g.Homed s) (hg' : g'.Homed s) {scopes scopes' : List Nat}
  (hscopes : Match g g' scopes scopes')
include hg hg' hscopes

theorem Matches.needed_iff (h : Matches g g' (j + 1) (k + 1)) :
    j ∈ g.joinsTo scopes ↔ k ∈ g'.joinsTo scopes' := by
  rw [hg.mem_joinsTo_iff_trail h.left fun a ha =>
      let ⟨_, _, hab⟩ := hscopes.forth a ha
      hab.left,
    hg'.mem_joinsTo_iff_trail h.right fun b hb =>
      let ⟨_, _, hab⟩ := hscopes.back b hb
      hab.right, h.trail]
  constructor
  · rintro ⟨a, ha, hpre⟩
    obtain ⟨b, hb, hab⟩ := hscopes.forth a ha
    exact ⟨b, hb, hab.trail ▸ hpre⟩
  · rintro ⟨b, hb, hpre⟩
    obtain ⟨a, ha, hab⟩ := hscopes.back b hb
    exact ⟨a, ha, hab.trail ▸ hpre⟩

/-- What is needed on one side is there on the other. -/
theorem Match.exists_needed (hj : j ∈ g.joinsTo scopes) :
    ∃ k ∈ g'.joinsTo scopes', Matches g g' (j + 1) (k + 1) := by
  obtain ⟨a, ha, hway⟩ := hg.rooted.mem_joinsTo.1 hj
  obtain ⟨b, hb, hab⟩ := hscopes.forth a ha
  have hlen := (hg.rooted.mem_rootPath_lt hway).2
  have hpre := (hg.mem_rootPath_iff hlen hab.left).1 hway
  rw [hab.trail] at hpre
  obtain ⟨scope, hscope, htrail⟩ := hg'.rooted.has_prefix hab.right hpre
  cases scope with
  | zero => simp [hg.rooted.trail_succ (List.getElem?_eq_getElem hlen)] at htrail
  | succ k =>
    have hmatch : Matches g g' (j + 1) (k + 1) := ⟨hlen, hscope, htrail.symm⟩
    exact ⟨k, (hmatch.needed_iff hg hg' hscopes).1 hj, hmatch⟩

/-- The joins that are needed on one side are those of the other in some order. -/
theorem Match.exists_perm : ∃ js, List.Perm js (g'.joinsTo scopes') ∧
    List.Forall₂ (fun k j => j ∈ g.joinsTo scopes ∧ k ∈ g'.joinsTo scopes' ∧
      Matches g g' (j + 1) (k + 1)) js (g.joinsTo scopes) := by
  choose! partner hmem hmatch using fun j => hscopes.exists_needed (j := j) hg hg'
  have hinj : ∀ i ∈ g.joinsTo scopes, ∀ j ∈ g.joinsTo scopes, partner i = partner j → i = j := by
    intro i hi j hj heq
    have hmatches := hmatch j hj
    rw [← heq] at hmatches
    exact Nat.succ.inj ((hmatch i hi).left_unique hg hmatches)
  refine ⟨(g.joinsTo scopes).map partner, ?_, ?_⟩
  · refine (List.perm_ext_iff_of_nodup ((hg.rooted.nodup_joinsTo scopes).map_on hinj)
      (hg'.rooted.nodup_joinsTo scopes')).2 fun k => ⟨fun hk => ?_, fun hk => ?_⟩
    · obtain ⟨j, hj, rfl⟩ := List.mem_map.1 hk
      exact hmem j hj
    · obtain ⟨j, hj, hjk⟩ := hscopes.symm.exists_needed hg' hg hk
      have hsame := (hmatch j hj).right_unique hg' hjk.symm
      exact List.mem_map.2 ⟨j, hj, Nat.succ.inj hsame⟩
  · rw [List.forall₂_map_left_iff, List.forall₂_same]
    exact fun j hj => ⟨hj, hmem j hj, hmatch j hj⟩

theorem Matches.flipped_iff (h : Matches g g' (j + 1) (k + 1)) :
    j ∈ g.flipNested [] (g.joinsTo scopes) ↔ k ∈ g'.flipNested [] (g'.joinsTo scopes') := by
  rw [hg.rooted.mem_flipNested, hg'.rooted.mem_flipNested, h.needed_iff hg hg' hscopes,
    h.isNested hg.rooted hg'.rooted]

/-- Joins that answer to each other are made with one kind. -/
theorem Matches.kind_eq (h : Matches g g' (j + 1) (k + 1)) :
    g.kind (g.flipNested [] (g.joinsTo scopes)) j =
      g'.kind (g'.flipNested [] (g'.joinsTo scopes')) k := by
  have hleft : g.isLeft (g.flipNested [] (g.joinsTo scopes)) j =
      g'.isLeft (g'.flipNested [] (g'.joinsTo scopes')) k := by
    rw [Bool.eq_iff_iff, isLeft_iff, h.flipped_iff hg hg' hscopes, h.isLeft hg.rooted hg'.rooted,
      ← isLeft_iff]
  rw [kind, kind, hleft]

/-- What is asked of the matches of one is asked of those of the other. -/
theorem Matches.demands_iff (h : Matches g g' (j + 1) (k + 1)) {child child' : Nat}
    (hchild : Matches g g' (child + 1) (child' + 1)) :
    child ∈ g.demands (g.flipNested [] (g.joinsTo scopes)) j ↔
      child' ∈ g'.demands (g'.flipNested [] (g'.joinsTo scopes')) k := by
  have hparent := hchild.parent hg.rooted hg'.rooted
  rw [mem_demands, mem_demands, hchild.flipped_iff hg hg' hscopes]
  refine and_congr_right fun _ => ⟨fun hj => ?_, fun hk => ?_⟩
  · rw [hj] at hparent
    exact hparent.right_unique hg' h
  · rw [hk] at hparent
    exact hparent.left_unique hg h

theorem Matches.exists_demand (h : Matches g g' (j + 1) (k + 1)) {child : Nat}
    (hchild : child ∈ g.demands (g.flipNested [] (g.joinsTo scopes)) j) :
    ∃ child' ∈ g'.demands (g'.flipNested [] (g'.joinsTo scopes')) k,
      Matches g g' (child + 1) (child' + 1) := by
  have hneeded := (hg.rooted.mem_flipNested.1 (mem_demands.1 hchild).1).1
  obtain ⟨child', -, hmatch⟩ := hscopes.exists_needed hg hg' hneeded
  exact ⟨child', (h.demands_iff hg hg' hscopes hmatch).1 hchild, hmatch⟩

end Needed

end EntityQuery.JoinGraph
