import EntityQuery.Text.CaseTable

/-! Two ways to compare names without regard to case.

`sameName` folds the 26 ASCII letters and nothing else; members, columns and constructor
arguments are compared so. `lower` is the full lower-casing of Unicode; entity names are looked
up by it, and so are the joins of a statement. -/
namespace EntityQuery.Text

/-! ### ASCII letters only -/

/-- The text with its ASCII capitals made small. -/
def fold (s : String) : List Char := s.toList.map Char.toLower

/-- Equality up to the case of ASCII letters. -/
def sameName (a b : String) : Bool := fold a == fold b

theorem sameName_iff {a b : String} : sameName a b = true ↔ fold a = fold b := by
  simp [sameName]

@[simp] theorem sameName_refl (a : String) : sameName a a = true := by simp [sameName]

theorem sameName_comm (a b : String) : sameName a b = sameName b a := Bool.beq_comm

theorem sameName_trans {a b c : String} (hab : sameName a b = true) (hbc : sameName b c = true) :
    sameName a c = true := by
  simp_all [sameName]

theorem fold_append (a b : String) : fold (a ++ b) = fold a ++ fold b := by
  rw [fold, fold, fold, String.toList_append, List.map_append]

theorem sameName_append (front : String) {a b : String} (h : sameName a b = true) :
    sameName (front ++ a) (front ++ b) = true := by
  rw [sameName_iff] at h ⊢
  rw [fold_append, fold_append, h]

/-- The text with its ASCII small letters made capital. -/
def capitals (s : String) : String := String.ofList (s.toList.map Char.toUpper)

/-! ### Full lower-casing -/

/-- The lower case of one character standing alone. A dotted capital I becomes two characters. -/
def lowerChar (c : Char) : List Char :=
  if c.toNat < 128 then [c.toLower]
  else if c = 'İ' then ['i', Char.ofNat 0x307]
  else
    match caseRuns.find? (·.covers c.toNat) with
    | some run => [Char.ofNat (c.toNat + run.shift).toNat]
    | none => [c]

/-- Whether the first character that case does not look through has case. -/
def meetsCased (cs : List Char) : Bool :=
  match cs.dropWhile caseIgnorable.has with
  | [] => false
  | c :: _ => cased.has c

/-- Lower-cases the characters that follow `before`, which is held last character first. A
capital sigma that ends a word takes its final form. -/
def lowerAfter (before : List Char) : List Char → List Char
  | [] => []
  | c :: rest =>
    let small :=
      if c = 'Σ' then [if meetsCased before && !meetsCased rest then 'ς' else 'σ']
      else lowerChar c
    small ++ lowerAfter (c :: before) rest

/-- The lower case of a text. -/
def lower (s : String) : List Char := lowerAfter [] s.toList

/-- Equality up to case. -/
def sameLower (a b : String) : Bool := lower a == lower b

theorem sameLower_iff {a b : String} : sameLower a b = true ↔ lower a = lower b := by
  simp [sameLower]

@[simp] theorem sameLower_refl (a : String) : sameLower a a = true := by simp [sameLower]

end EntityQuery.Text
