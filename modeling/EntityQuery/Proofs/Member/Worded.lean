import EntityQuery.Proofs.JoinGraph.Alias
import EntityQuery.Proofs.Member.Spelling
import EntityQuery.Proofs.Member.Steady

/-! What is written without quotes are words.

An alias is a letter and a number. A function is written in word characters, or its path would not
have been read as an application of it, and its capitals are word characters too. -/
namespace EntityQuery

open Member (IsWord isWordChar isWordStart)

/-! ### Aliases and functions -/

theorem isWord_of_digits {w : String} {c : Char} {digits : List Char}
    (hlist : w.toList = c :: digits) (hc : isWordStart c = true)
    (hdigits : ∀ digit ∈ digits, digit.isDigit = true) : IsWord w := by
  refine ⟨by simp [hlist, hc], ?_⟩
  rw [hlist, List.all_cons, Member.isWordChar_of_isWordStart hc, Bool.true_and]
  apply List.all_eq_true.2
  intro digit hdigit
  simp [isWordChar, Char.isAlphanum, hdigits digit hdigit]

theorem isWord_tableAlias (n : Nat) : IsWord (tableAlias n) := by
  apply isWord_of_digits (toList_tableAlias n) (by decide)
  intro digit hdigit
  split at hdigit
  · exact absurd hdigit List.not_mem_nil
  · exact isDigit_of_mem_toDigits hdigit

theorem isWord_joinAlias (n : Nat) : IsWord (joinAlias n) :=
  isWord_of_digits (toList_joinAlias n) (by decide) fun _ => isDigit_of_mem_toDigits

/-- What tests for a match of a join is a word as well. -/
theorem isWord_probe {w : String} (h : IsWord w) : IsWord (w ++ "X") := by
  obtain ⟨c, rest, hlist, hc⟩ := h.exists_cons
  refine ⟨by simp [hlist, hc], ?_⟩
  rw [String.toList_append, List.all_append, h.2]
  decide

theorem toNat_lt_of_isWordChar {c : Char} (h : isWordChar c = true) : c.toNat < 128 := by
  delta isWordChar Char.isAlphanum Char.isAlpha Char.isUpper Char.isLower Char.isDigit at h
  simp only [UInt32.le_iff_toNat_le, Bool.or_eq_true, Bool.and_eq_true, decide_eq_true_eq] at h
  rcases h with h | rfl
  · simp at h
    omega
  · decide

/-- Checked of each of the characters among which those of words are. -/
theorem toUpper_words : ∀ n < 128,
    (isWordStart (.ofNat n) = true → isWordStart (Char.ofNat n).toUpper = true) ∧
      (isWordChar (.ofNat n) = true → isWordChar (Char.ofNat n).toUpper = true) := by
  decide +kernel

theorem isWordStart_toUpper {c : Char} (h : isWordStart c = true) :
    isWordStart c.toUpper = true := by
  have hlt := toNat_lt_of_isWordChar (Member.isWordChar_of_isWordStart h)
  rw [← Char.ofNat_toNat c] at h ⊢
  exact (toUpper_words c.toNat hlt).1 h

theorem isWordChar_toUpper {c : Char} (h : isWordChar c = true) : isWordChar c.toUpper = true := by
  have hlt := toNat_lt_of_isWordChar h
  rw [← Char.ofNat_toNat c] at h ⊢
  exact (toUpper_words c.toNat hlt).2 h

theorem isWord_capitals {w : String} (h : IsWord w) : IsWord (Text.capitals w) := by
  obtain ⟨c, rest, hlist, hc⟩ := h.exists_cons
  have hcapitals : (Text.capitals w).toList = w.toList.map Char.toUpper := by
    rw [Text.capitals, String.toList_ofList]
  refine ⟨by simp [hcapitals, hlist, isWordStart_toUpper hc], ?_⟩
  rw [hcapitals, List.all_map]
  exact List.all_eq_true.2 fun c hmem => isWordChar_toUpper (List.all_eq_true.1 h.2 c hmem)

/-! ### Columns -/

namespace Member

theorem measure_measured {s : Schema} {g : JoinGraph} {path target : String} {measure : Measure}
    {c : Column} (h : (measured s path target measure g).2 = .ok c) : c.measure = measure := by
  obtain ⟨found, -, rfl⟩ := Except.map_eq_ok.1 h
  rfl

/-- A column is taken by the function that its path applies. -/
theorem applied_of_resolve {s : Schema} {g : JoinGraph} {path function : String} {c : Column}
    (h : (resolve s g path).2 = .ok c) (hmeasure : c.measure = .aggregate function) :
    ∃ applied argument, applied? path = some (applied, argument) ∧
      function = Text.capitals applied := by
  simp only [resolve_eq, Except.mapError_eq_ok] at h
  by_cases hcount : isRowCount path
  · rw [locate, if_pos hcount] at h
    obtain rfl := Except.ok.inj h
    exact absurd hmeasure (by simp)
  · cases happlied : applied? path with
    | none =>
      rw [locate_value hcount happlied] at h
      exact absurd (measure_measured h ▸ hmeasure) (by simp)
    | some applied =>
      obtain ⟨applied, argument⟩ := applied
      by_cases hnested : '(' ∈ (Text.trim argument).toList
      · simp [locate, hcount, happlied, hnested] at h
      · rw [locate_aggregate hcount happlied hnested] at h
        obtain rfl := Measure.aggregate.inj ((measure_measured h).symm.trans hmeasure)
        exact ⟨applied, argument, rfl, rfl⟩

/-- A function that a column is taken by is a word. -/
def Column.Worded (c : Column) : Prop :=
  ∀ function, c.measure = .aggregate function → IsWord function

theorem worded_resolve {s : Schema} {g : JoinGraph} {path : String} {c : Column}
    (h : (resolve s g path).2 = .ok c) : c.Worded := by
  intro function hmeasure
  obtain ⟨applied, argument, happlied, rfl⟩ := applied_of_resolve h hmeasure
  exact isWord_capitals (applies_of_applied? happlied).1

theorem worded_resolveEach {s : Schema} {g g' : JoinGraph} {paths : List String}
    {columns : List Column} (h : resolveEach s g paths = .ok (g', columns)) :
    ∀ c ∈ columns, c.Worded := by
  induction paths generalizing g columns with
  | nil =>
    obtain ⟨-, rfl⟩ := Prod.mk.inj (Except.ok.inj h)
    exact fun _ h => absurd h List.not_mem_nil
  | cons path rest ih =>
    simp only [resolveEach, Except.bind_eq_ok, Except.pure_eq_ok, Prod.exists,
      Prod.mk.injEq] at h
    obtain ⟨c, hc, _, others, hothers, rfl, rfl⟩ := h
    exact List.forall_mem_cons.2 ⟨worded_resolve hc, ih hothers⟩

end Member

end EntityQuery
