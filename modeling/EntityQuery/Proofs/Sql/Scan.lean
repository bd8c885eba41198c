import EntityQuery.Sql.Binding
import Mathlib.Data.List.TakeDrop
import Mathlib.Data.List.TakeWhile

/-! What binding finds in a text.

Binding does not know what a text was made of: it reads the text again, from left to right. Where
the reading of a part depends on nothing that follows (`Whole`), parts that stand one after another
are read one after another. A placeholder is found in a text exactly when the text holds one
(`holdsPlaceholder_iff`), whoever put it there. -/
namespace EntityQuery.Sql

/-- The digits of a placeholder. -/
def Numeral (digits : List Char) : Prop :=
  digits ≠ [] ∧ ∀ c ∈ digits, Text.isDecimalDigit c = true

/-- A text that holds what reads as a placeholder. -/
def HoldsPlaceholder (cs : List Char) : Prop :=
  ∃ front digits behind, cs = front ++ '\x7b' :: (digits ++ '\x7d' :: behind) ∧ Numeral digits

theorem HoldsPlaceholder.cons {cs : List Char} (h : HoldsPlaceholder cs) (c : Char) :
    HoldsPlaceholder (c :: cs) := by
  obtain ⟨front, digits, behind, rfl, hdigits⟩ := h
  exact ⟨c :: front, digits, behind, rfl, hdigits⟩

/-! ### One step -/

theorem placeholder?_eq_some {cs digits behind : List Char} :
    placeholder? cs = some (digits, behind) ↔ cs = digits ++ '\x7d' :: behind ∧ Numeral digits := by
  have hbrace : Text.isDecimalDigit '\x7d' = false := by decide
  constructor
  · intro h
    have hcs := List.takeWhile_append_dropWhile (p := Text.isDecimalDigit) (l := cs)
    unfold placeholder? at h
    rw [List.span_eq_takeWhile_dropWhile] at h
    split at h
    · simp at h
    · next found rest hne heq =>
      obtain ⟨rfl, rfl⟩ := Prod.mk.inj (Option.some.inj h)
      obtain ⟨hfound, hrest⟩ := Prod.mk.inj heq
      rw [hfound, hrest] at hcs
      refine ⟨hcs.symm, hne, fun c hc => ?_⟩
      exact List.mem_takeWhile_imp (hfound ▸ hc)
    · simp at h
  · rintro ⟨rfl, hne, hdigits⟩
    obtain ⟨first, rest, rfl⟩ := List.exists_cons_of_ne_nil hne
    unfold placeholder?
    rw [List.span_eq_takeWhile_dropWhile, List.takeWhile_append_of_pos hdigits,
      List.dropWhile_append_of_pos hdigits, List.takeWhile_cons_of_neg (by simp [hbrace]),
      List.dropWhile_cons_of_neg (by simp [hbrace]), List.append_nil]
    rfl

theorem scanFrom_stable {fuel fuel' : Nat} {cs : List Char} (h : cs.length ≤ fuel)
    (h' : cs.length ≤ fuel') : scanFrom fuel cs = scanFrom fuel' cs := by
  induction fuel generalizing fuel' cs with
  | zero =>
    obtain rfl := List.eq_nil_of_length_eq_zero (Nat.le_zero.1 h)
    cases fuel' <;> rfl
  | succ fuel ih =>
    cases cs with
    | nil => cases fuel' <;> rfl
    | cons c rest =>
      obtain ⟨fuel', rfl⟩ := Nat.exists_eq_succ_of_ne_zero (n := fuel') (by rintro rfl; simp at h')
      have hrest : rest.length ≤ fuel := Nat.le_of_succ_le_succ h
      have hrest' : rest.length ≤ fuel' := Nat.le_of_succ_le_succ h'
      simp only [scanFrom]
      split
      · split
        · next digits behind hfound =>
          obtain ⟨rfl, -⟩ := placeholder?_eq_some.1 hfound
          simp only [List.length_append, List.length_cons] at hrest hrest'
          have hbehind : behind.length ≤ fuel := by omega
          have hbehind' : behind.length ≤ fuel' := by omega
          rw [ih hbehind hbehind']
        · rw [ih hrest hrest']
      · rw [ih hrest hrest']

@[simp] theorem scan_nil : scan [] = [] := rfl

/-- A character is kept unless it opens a placeholder. -/
theorem scan_char {c : Char} {rest : List Char} (h : c = '\x7b' → placeholder? rest = none) :
    scan (c :: rest) = .char c :: scan rest := by
  show scanFrom (rest.length + 1) (c :: rest) = _
  simp only [scanFrom]
  split
  · next hc => rw [h hc]; rfl
  · rfl

theorem scan_placeholder {digits : List Char} (h : Numeral digits) (behind : List Char) :
    scan ('\x7b' :: (digits ++ '\x7d' :: behind)) = .placeholder digits :: scan behind := by
  have hbehind : behind.length ≤ (digits ++ '\x7d' :: behind).length := by
    simp only [List.length_append, List.length_cons]
    omega
  show scanFrom ((digits ++ '\x7d' :: behind).length + 1) _ = _
  simp only [scanFrom, if_pos, placeholder?_eq_some.2 ⟨rfl, h⟩]
  rw [scanFrom_stable hbehind (Nat.le_refl _)]
  rfl

/-- Every text is read in two kinds of steps: past a character, or past a placeholder. -/
theorem scan_induction {motive : List Char → Prop} (nil : motive [])
    (char : ∀ c rest, (c = '\x7b' → placeholder? rest = none) → motive rest → motive (c :: rest))
    (placeholder : ∀ digits behind, Numeral digits → motive behind →
      motive ('\x7b' :: (digits ++ '\x7d' :: behind))) : ∀ cs, motive cs := by
  intro cs
  induction hlen : cs.length using Nat.strongRecOn generalizing cs with
  | ind length ih =>
    subst hlen
    cases cs with
    | nil => exact nil
    | cons c rest =>
      by_cases hc : c = '\x7b' → placeholder? rest = none
      · exact char c rest hc (ih rest.length (by simp) rest rfl)
      · push Not at hc
        obtain ⟨rfl, hfound⟩ := hc
        obtain ⟨⟨digits, behind⟩, hfound⟩ := Option.ne_none_iff_exists'.1 hfound
        obtain ⟨rfl, hdigits⟩ := placeholder?_eq_some.1 hfound
        exact placeholder digits behind hdigits (ih behind.length (by simp; omega) behind rfl)

/-! ### Texts with placeholders and without -/

def Span.isPlaceholder : Span → Bool
  | .char _ => false
  | .placeholder _ => true

/-- A placeholder is found exactly in the texts that hold one. -/
theorem holdsPlaceholder_iff (cs : List Char) :
    HoldsPlaceholder cs ↔ ∃ digits, Span.placeholder digits ∈ scan cs := by
  induction cs using scan_induction with
  | nil => simp [HoldsPlaceholder]
  | char c rest hc ih =>
    have hmem : (∃ digits, Span.placeholder digits ∈ scan (c :: rest)) ↔ HoldsPlaceholder rest := by
      rw [ih, scan_char hc]
      simp
    rw [hmem]
    refine ⟨?_, fun h => h.cons c⟩
    rintro ⟨_ | ⟨first, front⟩, digits, behind, heq, hdigits⟩
    · obtain ⟨rfl, rfl⟩ := List.cons.inj heq
      rw [placeholder?_eq_some.2 ⟨rfl, hdigits⟩] at hc
      exact absurd (hc rfl) (by simp)
    · exact ⟨front, digits, behind, (List.cons.inj heq).2, hdigits⟩
  | placeholder digits behind hdigits ih =>
    rw [scan_placeholder hdigits]
    exact ⟨fun _ => ⟨digits, List.mem_cons_self ..⟩, fun _ => ⟨[], digits, behind, rfl, hdigits⟩⟩

instance : DecidablePred HoldsPlaceholder := fun cs =>
  decidable_of_iff ((scan cs).any Span.isPlaceholder = true) <| by
    rw [holdsPlaceholder_iff, List.any_eq_true]
    constructor
    · rintro ⟨span, hmem, hspan⟩
      cases span with
      | char c => simp [Span.isPlaceholder] at hspan
      | placeholder digits => exact ⟨digits, hmem⟩
    · rintro ⟨digits, hmem⟩
      exact ⟨_, hmem, rfl⟩

/-- A text without a placeholder is read as it stands. -/
theorem scan_of_no_placeholder {cs : List Char} (h : ¬ HoldsPlaceholder cs) :
    scan cs = cs.map .char := by
  induction cs using scan_induction with
  | nil => rfl
  | char c rest hc ih => rw [scan_char hc, ih fun hrest => h (hrest.cons c), List.map_cons]
  | placeholder digits behind hdigits ih => exact absurd ⟨[], digits, behind, rfl, hdigits⟩ h

theorem Span.char_beq (a b : Char) : (Span.char a == .char b) = (a == b) :=
  decide_eq_decide.2 (by rw [Span.char.injEq])

/-- No digit opens a placeholder. -/
theorem count_numeral {digits : List Char} (h : Numeral digits) : digits.count '\x7b' = 0 :=
  List.count_eq_zero.2 fun hmem => absurd (h.2 _ hmem) (by decide)

/-- Every placeholder takes one opening brace out of the text. -/
theorem count_scan (cs : List Char) :
    (scan cs).count (.char '\x7b') + (scan cs).countP Span.isPlaceholder = cs.count '\x7b' := by
  induction cs using scan_induction with
  | nil => rfl
  | char c rest hc ih =>
    rw [scan_char hc, List.count_cons, List.count_cons,
      List.countP_cons_of_neg (by simp [Span.isPlaceholder]), ← ih, Span.char_beq,
      Nat.add_right_comm]
  | placeholder digits behind hdigits ih =>
    rw [scan_placeholder hdigits, List.count_cons_of_ne (by simp), List.countP_cons_of_pos rfl,
      List.count_cons_self, List.count_append, count_numeral hdigits,
      List.count_cons_of_ne (by decide), ← ih, Nat.zero_add, Nat.add_assoc]

theorem count_scan_le (cs : List Char) : (scan cs).count (.char '\x7b') ≤ cs.count '\x7b' := by
  rw [← count_scan cs]
  exact Nat.le_add_right ..

theorem count_scan_lt {cs : List Char} (h : HoldsPlaceholder cs) :
    (scan cs).count (.char '\x7b') < cs.count '\x7b' := by
  obtain ⟨digits, hmem⟩ := (holdsPlaceholder_iff cs).1 h
  have hpos : 0 < (scan cs).countP Span.isPlaceholder := List.countP_pos_iff.2 ⟨_, hmem, rfl⟩
  have hall := count_scan cs
  omega

/-! ### Parts of a text -/

/-- A text that is read alike whatever comes behind it. -/
def Whole (cs : List Char) : Prop := ∀ rest, scan (cs ++ rest) = scan cs ++ scan rest

theorem scan_flatMap {α : Type} {f : α → List Char} {as : List α} (h : ∀ a ∈ as, Whole (f a)) :
    scan (as.flatMap f) = as.flatMap fun a => scan (f a) := by
  induction as with
  | nil => rfl
  | cons a rest ih =>
    rw [List.flatMap_cons, List.flatMap_cons, h a (List.mem_cons_self ..),
      ih fun a ha => h a (List.mem_cons_of_mem _ ha)]

/-- Where no brace opens nothing can be a placeholder. -/
theorem not_holdsPlaceholder {cs : List Char} (h : '\x7b' ∉ cs) : ¬ HoldsPlaceholder cs := by
  rintro ⟨front, digits, behind, rfl, -⟩
  simp at h

theorem whole_of_braceless {cs : List Char} (h : '\x7b' ∉ cs) : Whole cs := by
  intro rest
  induction cs with
  | nil => rfl
  | cons c cs ih =>
    obtain ⟨hc, hcs⟩ := not_or.1 (mt List.mem_cons.2 h)
    have hkept {more : List Char} : c = '\x7b' → placeholder? more = none := fun heq =>
      absurd heq.symm hc
    rw [List.cons_append, scan_char hkept, scan_char hkept, ih hcs, List.cons_append]

/-- The last character can stand neither at the start of a placeholder nor inside it. -/
def Closed (cs : List Char) : Prop :=
  ∀ c, cs.getLast? = some c → c ≠ '\x7b' ∧ Text.isDecimalDigit c = false

theorem Closed.tail {c : Char} {rest : List Char} (h : Closed (c :: rest)) : Closed rest := by
  intro last hlast
  refine h last ?_
  rw [List.getLast?_cons, hlast]
  rfl

/-- What follows a closed text does not make a placeholder of the brace before it. -/
theorem placeholder?_append {cs : List Char} (hne : cs ≠ []) (hclosed : Closed cs)
    (h : placeholder? cs = none) (rest : List Char) : placeholder? (cs ++ rest) = none := by
  rw [Option.eq_none_iff_forall_ne_some]
  rintro ⟨digits, behind⟩ hfound
  obtain ⟨heq, hdigits⟩ := placeholder?_eq_some.1 hfound
  have hlast : cs.getLast hne ∉ digits := fun hmem =>
    absurd (hdigits.2 _ hmem) (by simp [(hclosed _ (List.getLast?_eq_some_getLast hne)).2])
  obtain ⟨more, rfl, -⟩ | ⟨within, hcs, hrest⟩ := List.append_eq_append_iff.1 heq
  · exact hlast (List.mem_append_left _ (List.getLast_mem hne))
  · cases within with
    | nil =>
      rw [List.append_nil] at hcs
      exact hlast (hcs ▸ List.getLast_mem hne)
    | cons brace within =>
      obtain ⟨rfl, -⟩ := List.cons.inj hrest
      rw [placeholder?_eq_some.2 ⟨hcs, hdigits⟩] at h
      exact absurd h (by simp)

theorem whole_of_closed {cs : List Char} (h : Closed cs) : Whole cs := by
  intro rest
  induction cs using scan_induction with
  | nil => rfl
  | char c cs hc ih =>
    have hkept : c = '\x7b' → placeholder? (cs ++ rest) = none := by
      rintro rfl
      refine placeholder?_append ?_ h.tail (hc rfl) rest
      rintro rfl
      exact (h _ rfl).1 rfl
    rw [List.cons_append, scan_char hkept, scan_char hc, ih h.tail, List.cons_append]
  | placeholder digits behind hdigits ih =>
    have hbehind : Closed behind := by
      intro c hc
      refine h c ?_
      rw [← List.cons_append, List.getLast?_append, List.getLast?_cons, hc]
      rfl
    rw [List.cons_append, List.append_assoc, List.cons_append, scan_placeholder hdigits,
      scan_placeholder hdigits, ih hbehind, List.cons_append]

end EntityQuery.Sql
