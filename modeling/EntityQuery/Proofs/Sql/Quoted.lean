import EntityQuery.Proofs.JoinGraph.Alias
import EntityQuery.Proofs.Sql.Scan

/-! Names and numbers as binding reads them.

A quote is neither a brace nor a digit. So writing the quotes of a name twice makes no placeholder
and breaks none, and a name between quotes is read alike whatever comes behind it. A number in its
braces is read back as that number. -/
namespace EntityQuery.Sql

/-! ### Names between quotes -/

theorem holdsPlaceholder_cons {c : Char} (hc : c ≠ '\x7b') (cs : List Char) :
    HoldsPlaceholder (c :: cs) ↔ HoldsPlaceholder cs := by
  refine ⟨?_, fun h => h.cons c⟩
  rintro ⟨_ | ⟨first, front⟩, digits, behind, heq, hdigits⟩
  · exact absurd (List.cons.inj heq).1 hc
  · exact ⟨front, digits, behind, (List.cons.inj heq).2, hdigits⟩

theorem holdsPlaceholder_concat {c : Char} (hc : c ≠ '\x7d') (cs : List Char) :
    HoldsPlaceholder (cs ++ [c]) ↔ HoldsPlaceholder cs := by
  constructor
  · rintro ⟨front, digits, behind, heq, hdigits⟩
    obtain rfl | ⟨behind, last, rfl⟩ := List.eq_nil_or_concat behind
    · have hends : cs ++ [c] = (front ++ '\x7b' :: digits) ++ ['\x7d'] := by simpa using heq
      exact absurd (List.append_inj_right' hends rfl) (by simpa using hc)
    · have hends : cs ++ [c] = (front ++ '\x7b' :: (digits ++ '\x7d' :: behind)) ++ [last] := by
        simpa using heq
      exact ⟨front, digits, behind, List.append_inj_left' hends rfl, hdigits⟩
  · rintro ⟨front, digits, behind, rfl, hdigits⟩
    exact ⟨front, digits, behind ++ [c], by simp, hdigits⟩

/-- A text in which a character is written twice. -/
def doubled (q : Char) (cs : List Char) : List Char :=
  cs.flatMap fun c => if c = q then [c, c] else [c]

section Doubled
variable {q c : Char} {cs : List Char}

theorem doubled_cons_self (q : Char) (cs : List Char) :
    doubled q (q :: cs) = q :: q :: doubled q cs := by
  simp [doubled]

theorem doubled_cons_of_ne (h : c ≠ q) : doubled q (c :: cs) = c :: doubled q cs := by
  simp [doubled, h]

theorem doubled_append (a b : List Char) : doubled q (a ++ b) = doubled q a ++ doubled q b :=
  List.flatMap_append

theorem doubled_of_notMem (h : q ∉ cs) : doubled q cs = cs := by
  induction cs with
  | nil => rfl
  | cons c rest ih =>
    obtain ⟨hc, hrest⟩ := not_or.1 (mt List.mem_cons.2 h)
    rw [doubled_cons_of_ne (Ne.symm hc), ih hrest]

/-- A front without the doubled character was there before. -/
theorem doubled_eq_append {front more : List Char} (hq : q ∉ front)
    (h : doubled q cs = front ++ more) : ∃ rest, cs = front ++ rest ∧ doubled q rest = more := by
  induction front generalizing cs with
  | nil => exact ⟨cs, rfl, h⟩
  | cons first front ih =>
    obtain ⟨hfirst, hfront⟩ := not_or.1 (mt List.mem_cons.2 hq)
    cases cs with
    | nil => exact absurd h (by simp [doubled])
    | cons c rest =>
      by_cases hc : c = q
      · subst hc
        rw [doubled_cons_self] at h
        exact absurd (List.cons.inj h).1 hfirst
      · rw [doubled_cons_of_ne hc] at h
        obtain ⟨rfl, htail⟩ := List.cons.inj h
        obtain ⟨rest', rfl, hmore⟩ := ih hfront htail
        exact ⟨rest', rfl, hmore⟩

variable (hopen : q ≠ '\x7b') (hclose : q ≠ '\x7d') (hdigit : Text.isDecimalDigit q = false)
include hopen hclose hdigit

theorem notMem_of_numeral {digits : List Char} (h : Numeral digits) :
    q ∉ '\x7b' :: (digits ++ ['\x7d']) := by
  have hnot : q ∉ digits := fun hmem => absurd (h.2 q hmem) (by simp [hdigit])
  simp [hopen, hclose, hnot]

/-- Doubling makes no placeholder and breaks none. -/
theorem holdsPlaceholder_doubled : HoldsPlaceholder (doubled q cs) ↔ HoldsPlaceholder cs := by
  constructor
  · rintro ⟨front, digits, behind, heq, hdigits⟩
    induction cs generalizing front with
    | nil => exact absurd heq (by simp [doubled])
    | cons c rest ih =>
      cases front with
      | nil =>
        have hfront : doubled q (c :: rest) = ('\x7b' :: (digits ++ ['\x7d'])) ++ behind := by
          simpa using heq
        obtain ⟨behind', hrest, -⟩ := doubled_eq_append
          (notMem_of_numeral hopen hclose hdigit hdigits) hfront
        exact ⟨[], digits, behind', by simpa using hrest, hdigits⟩
      | cons first front =>
        by_cases hc : c = q
        · subst hc
          rw [doubled_cons_self] at heq
          cases front with
          | nil => exact absurd (List.cons.inj (List.cons.inj heq).2).1 hopen
          | cons second front =>
            exact (ih front (List.cons.inj (List.cons.inj heq).2).2).cons c
        · rw [doubled_cons_of_ne hc] at heq
          exact (ih front (List.cons.inj heq).2).cons c
  · rintro ⟨front, digits, behind, rfl, hdigits⟩
    have hsplit (a b : List Char) : a ++ '\x7b' :: (digits ++ '\x7d' :: b) =
        a ++ ('\x7b' :: (digits ++ ['\x7d']) ++ b) := by simp
    refine ⟨doubled q front, digits, doubled q behind, ?_, hdigits⟩
    rw [hsplit, hsplit, doubled_append, doubled_append,
      doubled_of_notMem (notMem_of_numeral hopen hclose hdigit hdigits)]

end Doubled

section Names
variable (d : Dialect) (name : List Char)

theorem quoteChars_eq : d.quoteChars name = d.quote :: (doubled d.quote name ++ [d.quote]) := rfl

/-- A name holds a placeholder between quotes as it does without them. -/
theorem holdsPlaceholder_quoteChars :
    HoldsPlaceholder (d.quoteChars name) ↔ HoldsPlaceholder name := by
  have hopen : d.quote ≠ '\x7b' := by cases d <;> decide
  have hclose : d.quote ≠ '\x7d' := by cases d <;> decide
  have hdigit : Text.isDecimalDigit d.quote = false := by cases d <;> decide
  rw [quoteChars_eq, holdsPlaceholder_cons hopen, holdsPlaceholder_concat hclose,
    holdsPlaceholder_doubled hopen hclose hdigit]

theorem whole_quoteChars : Whole (d.quoteChars name) := by
  refine whole_of_closed fun c hc => ?_
  rw [quoteChars_eq, ← List.cons_append, List.getLast?_concat] at hc
  obtain rfl := Option.some.inj hc
  cases d <;> decide

end Names

/-! ### Numbers -/

theorem toList_toString (n : Nat) : (toString n).toList = Nat.toDigits 10 n := by
  simp [toString, Nat.toList_repr]

theorem isDecimalDigit_of_isDigit {c : Char} (h : c.isDigit = true) :
    Text.isDecimalDigit c = true := by
  have hrange : 48 ≤ c.toNat ∧ c.toNat ≤ 57 := by
    simpa [Char.isDigit, UInt32.le_iff_toNat_le] using h
  unfold Text.isDecimalDigit Text.Table.has Text.decimalDigits
  rw [List.any_cons]
  simp [hrange]

theorem numeral_toDigits (n : Nat) : Numeral (Nat.toDigits 10 n) :=
  ⟨toDigits_ne_nil n, fun _ hc => isDecimalDigit_of_isDigit (isDigit_of_mem_toDigits hc)⟩

theorem readNat_toDigits (n : Nat) : Text.readNat (Nat.toDigits 10 n) = some n := by
  have hall : (Nat.toDigits 10 n).all Char.isDigit = true :=
    List.all_eq_true.2 fun _ hc => isDigit_of_mem_toDigits hc
  unfold Text.readNat
  rw [if_neg (by simp [hall])]
  exact congrArg some Nat.ofDigitChars_ten_toDigits

/-- The number of a parameter that is supplied is read back. -/
theorem parameterIndex?_toDigits {n supplied : Nat} (h : n < supplied) :
    parameterIndex? supplied (Nat.toDigits 10 n) = some n := by
  simp [parameterIndex?, readNat_toDigits, h]

end EntityQuery.Sql
