import Mathlib.Data.List.Nodup
import EntityQuery.Text.Case

/-! The two ways to compare names agree where both say yes.

Lower-casing looks at a character and, for a sigma, at what stands around it. None of this tells a
letter of ASCII from its capital, so names that are equal up to the case of ASCII letters have the
same lower case (`sameLower_of_sameName`). -/
namespace EntityQuery.Text

/-! ### Characters -/

/-- What does not tell the letters of ASCII from their capitals tells no character from its ASCII
small letter: the other characters are their own. -/
theorem toLower_invariant {β : Type} {f : Char → β}
    (hascii : ∀ n < 128, f (Char.ofNat n).toLower = f (Char.ofNat n)) (c : Char) :
    f c.toLower = f c := by
  by_cases h : c.toNat < 128
  · have hc := hascii c.toNat h
    rwa [Char.ofNat_toNat] at hc
  · have hupper : ¬ (c.val ≥ 'A'.val ∧ c.val ≤ 'Z'.val) := fun hc => by
      have hle : c.toNat ≤ 90 := hc.2
      omega
    have hsame : c.toLower = c := dif_neg hupper
    rw [hsame]

/-- The runs of a table that begin in ASCII. -/
def Table.ascii (t : Table) : Table := t.filter (·.1 < 128)

/-- Of a table, only these runs matter there. -/
theorem has_ascii (t : Table) {c : Char} (h : c.toNat < 128) :
    t.ascii.has c = t.has c := by
  unfold Table.has Table.ascii
  rw [List.any_filter]
  congr 1
  funext run
  by_cases hrun : run.1 < 128
  · simp [hrun]
  · have hbeyond : ¬ run.1 ≤ c.toNat := by omega
    simp [hrun, hbeyond]

/-- What holds of the characters of ASCII, looked at one by one: small letters are in ASCII too, and
neither the tables nor the mapping tell a letter from its small letter. -/
theorem ascii_toLower : ∀ n < 128,
    (Char.ofNat n).toNat < 128 ∧ (Char.ofNat n).toLower.toNat < 128 ∧
    caseIgnorable.ascii.has (Char.ofNat n).toLower = caseIgnorable.ascii.has (Char.ofNat n) ∧
    cased.ascii.has (Char.ofNat n).toLower = cased.ascii.has (Char.ofNat n) ∧
    lowerChar (Char.ofNat n).toLower = lowerChar (Char.ofNat n) ∧
    ((Char.ofNat n).toLower == 'Σ') = (Char.ofNat n == 'Σ') ∧
    (Char.ofNat n).toLower.toLower = (Char.ofNat n).toLower := by
  decide +kernel

theorem has_toLower {t : Table}
    (hascii : ∀ n < 128, t.ascii.has (Char.ofNat n).toLower = t.ascii.has (Char.ofNat n))
    (c : Char) : t.has c.toLower = t.has c := by
  refine toLower_invariant (fun n hn => ?_) c
  obtain ⟨hsmall, hlower, -⟩ := ascii_toLower n hn
  rw [← has_ascii t hsmall, ← has_ascii t hlower]
  exact hascii n hn

theorem caseIgnorable_toLower (c : Char) : caseIgnorable.has c.toLower = caseIgnorable.has c :=
  has_toLower (fun n hn => let ⟨_, _, h, _⟩ := ascii_toLower n hn; h) c

theorem cased_toLower (c : Char) : cased.has c.toLower = cased.has c :=
  has_toLower (fun n hn => let ⟨_, _, _, h, _⟩ := ascii_toLower n hn; h) c

theorem lowerChar_toLower (c : Char) : lowerChar c.toLower = lowerChar c :=
  toLower_invariant (fun n hn => let ⟨_, _, _, _, h, _⟩ := ascii_toLower n hn; h) c

theorem toLower_eq_sigma (c : Char) : c.toLower = 'Σ' ↔ c = 'Σ' := by
  have h : (c.toLower == 'Σ') = (c == 'Σ') :=
    toLower_invariant (f := (· == 'Σ'))
      (fun n hn => let ⟨_, _, _, _, _, h, _⟩ := ascii_toLower n hn; h) c
  rw [← beq_iff_eq, h, beq_iff_eq]

/-! ### Texts -/

theorem meetsCased_map (cs : List Char) : meetsCased (cs.map Char.toLower) = meetsCased cs := by
  have hsame : caseIgnorable.has ∘ Char.toLower = caseIgnorable.has := funext caseIgnorable_toLower
  unfold meetsCased
  rw [List.dropWhile_map, hsame]
  cases cs.dropWhile caseIgnorable.has with
  | nil => rfl
  | cons c rest => exact cased_toLower c

theorem lowerAfter_map (before cs : List Char) :
    lowerAfter (before.map Char.toLower) (cs.map Char.toLower) = lowerAfter before cs := by
  induction cs generalizing before with
  | nil => rfl
  | cons c rest ih =>
    rw [List.map_cons, lowerAfter, lowerAfter, ← List.map_cons, ih (c :: before)]
    simp only [toLower_eq_sigma, meetsCased_map, lowerChar_toLower]

theorem lower_eq_of_fold (s : String) : lower s = lowerAfter [] (fold s) :=
  (lowerAfter_map [] s.toList).symm

/-- Names that differ in the case of ASCII letters only have one lower case. -/
theorem sameLower_of_sameName {a b : String} (h : sameName a b = true) : sameLower a b = true := by
  rw [sameLower_iff, lower_eq_of_fold, lower_eq_of_fold, sameName_iff.1 h]

/-- Lower-casing changes no letters of the name but those of ASCII. -/
def asciiCased (name : String) : Bool := sameName name (String.ofList (lower name))

theorem lowerAfter_of_ascii {before cs : List Char} (h : ∀ c ∈ cs, c.toNat < 128) :
    lowerAfter before cs = cs.map Char.toLower := by
  induction cs generalizing before with
  | nil => rfl
  | cons c rest ih =>
    have hc := h c (List.mem_cons_self ..)
    have hsigma : c ≠ 'Σ' := by rintro rfl; revert hc; decide
    rw [lowerAfter, ih fun c hc => h c (List.mem_cons_of_mem _ hc)]
    simp [hsigma, lowerChar, hc]

/-- Names in ASCII are of this kind. -/
theorem asciiCased_of_ascii {name : String} (h : ∀ c ∈ name.toList, c.toNat < 128) :
    asciiCased name = true := by
  have hidem : ∀ c : Char, c.toLower.toLower = c.toLower :=
    toLower_invariant fun n hn => let ⟨_, _, _, _, _, _, h⟩ := ascii_toLower n hn; h
  rw [asciiCased, sameName_iff, lower, lowerAfter_of_ascii h]
  simp [fold, hidem]

/-- Where names differ in lower case, looking one up finds what has it. -/
theorem find?_sameLower {α : Type} {name : α → String} {xs : List α}
    (h : (xs.map fun x => lower (name x)).Nodup) {key : String} {x : α} :
    (xs.find? fun x => sameLower (name x) key) = some x ↔
      x ∈ xs ∧ lower (name x) = lower key := by
  constructor
  · intro hx
    have hname := List.find?_some hx
    exact ⟨List.mem_of_find?_eq_some hx, sameLower_iff.1 hname⟩
  · rintro ⟨hx, hname⟩
    cases hy : xs.find? fun x => sameLower (name x) key with
    | none => exact absurd (sameLower_iff.2 hname) (List.find?_eq_none.1 hy x hx)
    | some y =>
      have hname' := List.find?_some hy
      have hsame := (sameLower_iff.1 hname').trans hname.symm
      rw [List.inj_on_of_nodup_map h (List.mem_of_find?_eq_some hy) hx hsame]

end EntityQuery.Text
