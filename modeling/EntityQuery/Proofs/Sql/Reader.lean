import Mathlib.Data.List.Basic
import EntityQuery.Proofs.Member.Spelling
import EntityQuery.Proofs.Sql.Quoted
import EntityQuery.Sql.Render

/-! Readers of text.

A reader takes a value off the front of a text and leaves the rest. What it takes is decided by what
stands there, so it matters what may stand behind the text of a value: one of some texts, or nothing
(`Follows`). A text is found in a table when none of its texts begins another (`Unambiguous`), and
none is found where only texts follow that neither begin one of the table nor are begun by one
(`Free`). -/
namespace EntityQuery.Sql

abbrev Reader (α : Type) := StateT (List Char) Option α

namespace Reader

variable {α β : Type}

/-! ### Texts and tables of texts -/

/-- Goes on behind a text that has to stand here. -/
def skip (text : String) : Reader Unit := fun cs => (text.toList.isPrefixOf? cs).map ((), ·)

/-- Goes on behind the text that stands here, one of a table, with what belongs to it. -/
def choose : List (String × α) → Reader (Option α)
  | [] => pure none
  | (text, a) :: rest => fun cs =>
    match text.toList.isPrefixOf? cs with
    | some more => some (some a, more)
    | none => choose rest cs

/-- The texts of some values. -/
def labelled (label : α → String) (as : List α) : List (String × α) := as.map fun a => (label a, a)

/-- What is read behind a text, where it stands here. -/
def behind (text : String) (r : Reader α) : Reader (Option α) := do
  match ← choose [(text, ())] with
  | some () => some <$> r
  | none => pure none

/-- The character that stands here, which is left. -/
def next : Reader (Option Char) := fun cs => some (cs.head?, cs)

/-- One value after another, as many as can be read. -/
def repeated (r : Reader α) : Nat → Reader (List α)
  | 0 => pure []
  | n + 1 => fun cs =>
    match r cs with
    | some (a, more) => (repeated r n more).map (Prod.map (a :: ·) id)
    | none => some ([], cs)

def many (r : Reader α) : Reader (List α) := fun cs => repeated r cs.length cs

/-- Values with a text between each two, at least one. -/
def separated (text : String) (r : Reader α) : Reader (List α) := do
  let a ← r
  return a :: (← many (do skip text; r))

/-! ### Names, words and numbers -/

/-- Up to the quote that ends a name; where two stand together they are one of the name. -/
def unquoted (q : Char) : List Char → Option (List Char × List Char)
  | [] => none
  | [c] => if c = q then some ([], []) else none
  | c :: c' :: cs =>
    if c = q then
      if c' = q then (unquoted q cs).map (Prod.map (q :: ·) id) else some ([], c' :: cs)
    else (unquoted q (c' :: cs)).map (Prod.map (c :: ·) id)

/-- A name between quotes. -/
def name (d : Dialect) : Reader String
  | [] => none
  | c :: cs => if c = d.quote then (unquoted d.quote cs).map (Prod.map String.ofList id) else none

/-- An alias or a function. -/
def word : Reader String := fun cs =>
  match cs.takeWhile Member.isWordChar with
  | [] => none
  | c :: rest => some (String.ofList (c :: rest), cs.dropWhile Member.isWordChar)

def number : Reader Nat := fun cs =>
  (Text.readNat (cs.takeWhile Char.isDigit)).map (·, cs.dropWhile Char.isDigit)

def placeholder : Reader Nat := do
  skip "\x7b"
  let n ← number
  skip "\x7d"
  return n

/-! ### One reader after another -/

section Steps
variable {r : Reader α} {cs more : List Char} {a : α}

theorem bind_of (h : r cs = some (a, more)) (f : α → Reader β) : (r >>= f) cs = f a more := by
  show (r cs).bind (fun found => f found.1 found.2) = _
  rw [h]
  rfl

theorem next_bind (f : Option Char → Reader β) (cs : List Char) :
    (next >>= f) cs = f cs.head? cs := rfl

theorem isPrefixOf?_append (front more : List Char) :
    front.isPrefixOf? (front ++ more) = some more :=
  List.isPrefixOf?_eq_some_iff_append_eq.2 rfl

theorem isPrefixOf?_eq_none {front : List Char} (h : ¬ front <+: cs) :
    front.isPrefixOf? cs = none := by
  cases hfound : front.isPrefixOf? cs with
  | none => rfl
  | some more => exact absurd ⟨more, List.isPrefixOf?_eq_some_iff_append_eq.1 hfound⟩ h

theorem skip_text (text : String) (more : List Char) :
    skip text (text.toList ++ more) = some ((), more) := by
  rw [skip, isPrefixOf?_append]
  rfl

end Steps

/-! ### What follows -/

/-- Neither text begins the other. -/
def Apart (a b : String) : Prop := ¬ a.toList <+: b.toList ∧ ¬ b.toList <+: a.toList

instance (a b : String) : Decidable (Apart a b) := inferInstanceAs (Decidable (_ ∧ _))

theorem Apart.not_begins {a b : String} (h : Apart a b) (more : List Char) :
    ¬ a.toList <+: b.toList ++ more := by
  intro hprefix
  exact (List.prefix_or_prefix_of_prefix hprefix (List.prefix_append ..)).elim h.1 h.2

/-- One of these texts stands here, or nothing does. -/
def Follows (ends : List String) (cs : List Char) : Prop :=
  cs = [] ∨ ∃ text ∈ ends, text.toList <+: cs

section Follows
variable {ends ends' : List String} {cs : List Char}

theorem follows_nil (ends : List String) : Follows ends [] := .inl rfl

theorem follows_text {text : String} (h : text ∈ ends) (more : List Char) :
    Follows ends (text.toList ++ more) :=
  .inr ⟨text, h, List.prefix_append ..⟩

theorem Follows.mono (h : Follows ends cs) (hsub : ends ⊆ ends') : Follows ends' cs :=
  h.imp_right fun hfound => hfound.imp fun _ hmem => ⟨hsub hmem.1, hmem.2⟩

/-- The first character is none that the texts do not begin with. -/
theorem Follows.head {p : Char → Bool} (h : Follows ends cs)
    (hp : ∀ text ∈ ends, text.toList.head?.any p = true) : cs.head?.all p = true := by
  obtain rfl | ⟨text, hmem, more, rfl⟩ := h
  · rfl
  · have htext := hp text hmem
    cases hlist : text.toList with
    | nil => simp [hlist] at htext
    | cons c rest => simpa [hlist] using htext

end Follows

/-- No text of the table is one of these, begins one or is begun by one. -/
def Free (table : List (String × α)) (ends : List String) : Prop :=
  ∀ entry ∈ table, entry.1.toList ≠ [] ∧ ∀ text ∈ ends, Apart entry.1 text

instance (table : List (String × α)) (ends : List String) : Decidable (Free table ends) :=
  inferInstanceAs (Decidable (∀ _ ∈ _, _))

/-- No text of the table begins another. -/
def Unambiguous (table : List (String × α)) : Prop := table.Pairwise fun a b => Apart a.1 b.1

instance (table : List (String × α)) : Decidable (Unambiguous table) :=
  inferInstanceAs (Decidable (table.Pairwise _))

section Choose
variable {table : List (String × α)} {ends : List String} {cs : List Char}

theorem choose_cons (text : String) (a : α) (table : List (String × α)) (cs : List Char) :
    choose ((text, a) :: table) cs =
      match text.toList.isPrefixOf? cs with
      | some more => some (some a, more)
      | none => choose table cs := rfl

/-- What none of these texts begins does not begin with a text apart from them. -/
theorem isPrefixOf?_of_follows {text : String} (hne : text.toList ≠ [])
    (hapart : ∀ following ∈ ends, Apart text following) (hcs : Follows ends cs) :
    text.toList.isPrefixOf? cs = none := by
  apply isPrefixOf?_eq_none
  obtain rfl | ⟨following, hmem, more, rfl⟩ := hcs
  · exact fun hprefix => hne (List.prefix_nil.1 hprefix)
  · exact (hapart following hmem).not_begins more

theorem choose_of_follows (hfree : Free table ends) (hcs : Follows ends cs) :
    choose table cs = some (none, cs) := by
  induction table with
  | nil => rfl
  | cons entry rest ih =>
    obtain ⟨text, a⟩ := entry
    obtain ⟨hne, hapart⟩ := hfree _ (List.mem_cons_self ..)
    rw [choose_cons, isPrefixOf?_of_follows hne hapart hcs]
    exact ih fun entry hmem => hfree entry (List.mem_cons_of_mem _ hmem)

theorem choose_text (h : Unambiguous table) {text : String} {a : α} (hmem : (text, a) ∈ table)
    (more : List Char) : choose table (text.toList ++ more) = some (some a, more) := by
  induction table with
  | nil => exact absurd hmem List.not_mem_nil
  | cons entry rest ih =>
    obtain ⟨first, b⟩ := entry
    obtain ⟨hfirst, hrest⟩ := List.pairwise_cons.1 h
    rcases List.mem_cons.1 hmem with heq | hmem
    · obtain ⟨rfl, rfl⟩ := Prod.mk.inj heq
      rw [choose_cons, isPrefixOf?_append]
    · rw [choose_cons, isPrefixOf?_eq_none ((hfirst _ hmem).not_begins more)]
      exact ih hrest hmem

theorem choose_labelled {label : α → String} {as : List α} (h : Unambiguous (labelled label as))
    {a : α} (ha : a ∈ as) (more : List Char) :
    choose (labelled label as) ((label a).toList ++ more) = some (some a, more) :=
  choose_text h (List.mem_map_of_mem ha) more

theorem skip_of_follows {text : String} (hfree : Free [(text, ())] ends) (hcs : Follows ends cs) :
    skip text cs = none := by
  obtain ⟨hne, hapart⟩ := hfree _ (List.mem_cons_self ..)
  rw [skip, isPrefixOf?_of_follows hne hapart hcs]
  rfl

theorem behind_of_follows {text : String} {r : Reader α} (hfree : Free [(text, ())] ends)
    (hcs : Follows ends cs) : behind text r cs = some (none, cs) := by
  rw [behind, bind_of (choose_of_follows hfree hcs)]
  rfl

theorem behind_text {text : String} {r : Reader α} {a : α} {more : List Char}
    (h : r cs = some (a, more)) : behind text r (text.toList ++ cs) = some (some a, more) := by
  have hfound := choose_text (List.pairwise_singleton _ (text, ())) (List.mem_cons_self ..) cs
  rw [behind, bind_of hfound]
  show (some <$> r) cs = _
  rw [← bind_pure_comp, bind_of h]
  rfl

end Choose

/-! ### Many values -/

section Many
variable {r : Reader α} (write : α → List Char) {ends : List String} {as : List α}
  {rest : List Char}

theorem repeated_succ (r : Reader α) (n : Nat) (cs : List Char) :
    repeated r (n + 1) cs =
      match r cs with
      | some (a, more) => (repeated r n more).map (Prod.map (a :: ·) id)
      | none => some ([], cs) := rfl

theorem repeated_of (hread : ∀ a ∈ as, ∀ more, Follows ends more →
      r (write a ++ more) = some (a, more))
    (hstart : ∀ a ∈ as, write a ≠ [] ∧ ∀ more, Follows ends (write a ++ more))
    (hrest : Follows ends rest) (hstop : r rest = none) {n : Nat}
    (hn : (as.flatMap write).length ≤ n) :
    repeated r n (as.flatMap write ++ rest) = some (as, rest) := by
  induction as generalizing n with
  | nil =>
    cases n with
    | zero => rfl
    | succ n =>
      show repeated r (n + 1) rest = _
      rw [repeated_succ, hstop]
  | cons a as ih =>
    have hpos := List.length_pos_iff.2 (hstart a (List.mem_cons_self ..)).1
    rw [List.flatMap_cons, List.length_append] at hn
    have hfollows : Follows ends (as.flatMap write ++ rest) := by
      cases as with
      | nil => exact hrest
      | cons a' as =>
        rw [List.flatMap_cons, List.append_assoc]
        exact (hstart a' (List.mem_cons_of_mem _ (List.mem_cons_self ..))).2 _
    have hbelow (n : Nat) (hn : (as.flatMap write).length ≤ n) :
        repeated r n (as.flatMap write ++ rest) = some (as, rest) :=
      ih (fun a hmem => hread a (List.mem_cons_of_mem _ hmem))
        (fun a hmem => hstart a (List.mem_cons_of_mem _ hmem)) hn
    cases n with
    | zero => omega
    | succ n =>
      rw [List.flatMap_cons, List.append_assoc, repeated_succ,
        hread a (List.mem_cons_self ..) _ hfollows]
      show (repeated r n (as.flatMap write ++ rest)).map _ = _
      rw [hbelow n (by omega)]
      rfl

theorem many_of (hread : ∀ a ∈ as, ∀ more, Follows ends more →
      r (write a ++ more) = some (a, more))
    (hstart : ∀ a ∈ as, write a ≠ [] ∧ ∀ more, Follows ends (write a ++ more))
    (hrest : Follows ends rest) (hstop : r rest = none) :
    many r (as.flatMap write ++ rest) = some (as, rest) :=
  repeated_of write hread hstart hrest hstop (by simp)

theorem separated_of {text : String} (hfree : Free [(text, ())] ends) {a : α}
    (hread : ∀ b ∈ a :: as, ∀ more, Follows (text :: ends) more →
      r (write b ++ more) = some (b, more))
    (hrest : Follows ends rest) :
    separated text r (write a ++ (as.flatMap (fun b => text.toList ++ write b) ++ rest)) =
      some (a :: as, rest) := by
  have hne : text.toList ≠ [] := (hfree _ (List.mem_cons_self ..)).1
  have hnext (b : α) (more : List Char) :
      Follows (text :: ends) ((text.toList ++ write b) ++ more) := by
    rw [List.append_assoc]
    exact follows_text (List.mem_cons_self ..) _
  have hends : Follows (text :: ends) rest := hrest.mono (List.subset_cons_self ..)
  have hothers : many (do skip text; r) (as.flatMap (fun b => text.toList ++ write b) ++ rest) =
      some (as, rest) := by
    apply many_of (fun b => text.toList ++ write b) _ _ hends
    · show (skip text >>= fun _ => r) rest = none
      show (skip text rest).bind _ = none
      rw [skip_of_follows hfree hrest]
      rfl
    · intro b hb more hmore
      rw [List.append_assoc, bind_of (skip_text ..)]
      exact hread b (List.mem_cons_of_mem _ hb) more hmore
    · exact fun b _ => ⟨by simp [hne], hnext b⟩
  have hfirst : Follows (text :: ends)
      (as.flatMap (fun b => text.toList ++ write b) ++ rest) := by
    cases as with
    | nil => exact hends
    | cons b as =>
      rw [List.flatMap_cons, List.append_assoc]
      exact hnext b _
  rw [separated, bind_of (hread a (List.mem_cons_self ..) _ hfirst), bind_of hothers]
  rfl

end Many

/-! ### Lexemes -/

theorem unquoted_cons_of_ne {q c : Char} (hc : c ≠ q) (cs : List Char) :
    unquoted q (c :: cs) = (unquoted q cs).map (Prod.map (c :: ·) id) := by
  cases cs with
  | nil => simp [unquoted, hc]
  | cons c' cs => rw [unquoted, if_neg hc]

/-- Doubling the quotes of a name is undone, whatever stands behind the quote that ends it except
another. -/
theorem unquoted_doubled {q : Char} (cs : List Char) {rest : List Char}
    (hrest : rest.head?.all (· != q) = true) :
    unquoted q (doubled q cs ++ q :: rest) = some (cs, rest) := by
  induction cs with
  | nil =>
    cases rest with
    | nil => simp [doubled, unquoted]
    | cons c rest =>
      have hc : c ≠ q := by simpa using hrest
      simp [doubled, unquoted, hc]
  | cons c cs ih =>
    by_cases hc : c = q
    · subst hc
      rw [doubled_cons_self, List.cons_append, List.cons_append, unquoted, if_pos rfl, if_pos rfl,
        ih]
      rfl
    · rw [doubled_cons_of_ne hc, List.cons_append, unquoted_cons_of_ne hc, ih]
      rfl

theorem name_quoteChars (d : Dialect) (n : String) {rest : List Char}
    (hrest : rest.head?.all (· != d.quote) = true) :
    name d (d.quoteChars n.toList ++ rest) = some (n, rest) := by
  rw [quoteChars_eq, List.cons_append, List.append_assoc, List.cons_append, List.nil_append, name,
    if_pos rfl, unquoted_doubled _ hrest]
  simp

section Runs
variable {p : Char → Bool} {run rest : List Char} (hrun : ∀ c ∈ run, p c = true)
  (hrest : rest.head?.all (fun c => !p c) = true)
include hrun hrest

theorem takeWhile_run : (run ++ rest).takeWhile p = run := by
  rw [List.takeWhile_append_of_pos hrun]
  cases rest with
  | nil => simp
  | cons c rest =>
    have hc : p c = false := by simpa using hrest
    simp [hc]

theorem dropWhile_run : (run ++ rest).dropWhile p = rest := by
  rw [List.dropWhile_append_of_pos hrun]
  cases rest with
  | nil => rfl
  | cons c rest =>
    have hc : p c = false := by simpa using hrest
    simp [hc]

end Runs

theorem word_append {w : String} (hw : Member.IsWord w) {rest : List Char}
    (hrest : rest.head?.all (fun c => !Member.isWordChar c) = true) :
    word (w.toList ++ rest) = some (w, rest) := by
  have hall : ∀ c ∈ w.toList, Member.isWordChar c = true := List.all_eq_true.1 hw.2
  obtain ⟨c, cs, hlist, -⟩ := hw.exists_cons
  rw [word, takeWhile_run hall hrest, dropWhile_run hall hrest, hlist]
  show some (String.ofList (c :: cs), rest) = _
  rw [← hlist, String.ofList_toList]

theorem number_toString (n : Nat) {rest : List Char}
    (hrest : rest.head?.all (fun c => !c.isDigit) = true) :
    number ((toString n).toList ++ rest) = some (n, rest) := by
  have hall : ∀ c ∈ Nat.toDigits 10 n, c.isDigit = true := fun c => isDigit_of_mem_toDigits
  rw [toList_toString, number, takeWhile_run hall hrest, dropWhile_run hall hrest, readNat_toDigits]
  rfl

theorem placeholder_write (d : Dialect) (n : Nat) (rest : List Char) :
    placeholder (Piece.write d (.placeholder n) ++ rest) = some (n, rest) := by
  have hwrite : Piece.write d (.placeholder n) ++ rest =
      "\x7b".toList ++ ((toString n).toList ++ ("\x7d".toList ++ rest)) := by
    simp [Piece.write]
  have hclose : ("\x7d".toList ++ rest).head?.all (fun c => !c.isDigit) = true := by simp
  rw [hwrite, placeholder, bind_of (skip_text ..), bind_of (number_toString n hclose),
    bind_of (skip_text ..)]
  rfl

end Reader
end EntityQuery.Sql
