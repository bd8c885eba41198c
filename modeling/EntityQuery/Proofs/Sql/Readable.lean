import EntityQuery.Proofs.Sql.Braceless
import EntityQuery.Proofs.Sql.Grammar

/-! Conditions are read back from their text.

A construct is read back when its parts are, whatever the names in it, and whatever follows that may
follow there: an operator or a keyword, a comma or a closing parenthesis. So the text of a condition
says which one it is (`Readable.read?_text`), also where AND and OR are nested and where BETWEEN has
an AND of its own. -/
namespace EntityQuery.Sql

open Member (IsWord)

/-- The characters that are written for pieces. -/
def chars (d : Dialect) (pieces : List Piece) : List Char := pieces.flatMap (Piece.write d)

section Chars
variable (d : Dialect)

@[simp] theorem chars_nil : chars d [] = [] := rfl

@[simp] theorem chars_append (a b : List Piece) : chars d (a ++ b) = chars d a ++ chars d b :=
  List.flatMap_append

@[simp] theorem chars_text (text : String) (rest : List Piece) :
    chars d (.text text :: rest) = text.toList ++ chars d rest := rfl

@[simp] theorem chars_name (name : String) (rest : List Piece) :
    chars d (.name name :: rest) = d.quoteChars name.toList ++ chars d rest := rfl

theorem chars_separated (text : String) (run : List Piece) (runs : List (List Piece)) :
    chars d (Piece.separated text (run :: runs)) =
      chars d run ++ runs.flatMap fun other => text.toList ++ chars d other := by
  unfold Piece.separated
  induction runs generalizing run with
  | nil => simp
  | cons other runs ih =>
    rw [List.intercalate_cons_cons, chars_append, chars_append, ih]
    simp

end Chars

/-! ### What may follow -/

/-- What follows a select. -/
def selectEnds : List String := [")"]

/-- What follows a condition: what may come next in a select, in the order of its clauses. -/
def orderEnds : List String := " LIMIT " :: selectEnds

def filterEnds : List String := " ORDER BY " :: orderEnds

def joinEnds : List String := " WHERE " :: filterEnds

def conditionEnds : List String := " INNER JOIN " :: " LEFT JOIN " :: joinEnds

/-- What follows a source: the condition of its join, or what follows that. -/
def sourceEnds : List String := " ON " :: conditionEnds

/-- What follows a test: another operand, or what follows a condition. -/
def testEnds : List String := Reader.junctions.map Prod.fst ++ conditionEnds

/-- What follows a term: an operator, the rest of an item or a sorting, or what follows a test. -/
def termEnds : List String :=
  Reader.operators.map Prod.fst ++ [" AS ", " FROM ", " ASC", " DESC", ", "] ++ testEnds

namespace Reader
variable {ends : List String} {rest : List Char}

theorem free_operators : Free operators testEnds := by decide +kernel

theorem free_junctions : Free junctions conditionEnds := by decide +kernel

theorem head_text {p : Char → Bool} {text : String} (h : text.toList.head?.any p = true)
    (more : List Char) : (text.toList ++ more).head?.all p = true :=
  (follows_text (List.mem_singleton_self text) more).head (by simpa using h)

theorem quote_termEnds (d : Dialect) (h : Follows termEnds rest) :
    rest.head?.all (· != d.quote) = true := by
  cases d <;> exact h.head (by decide +kernel)

theorem digit_termEnds (h : Follows termEnds rest) :
    rest.head?.all (fun c => !c.isDigit) = true :=
  h.head (by decide +kernel)

theorem word_sourceEnds (h : Follows sourceEnds rest) :
    rest.head?.all (fun c => !Member.isWordChar c) = true :=
  h.head (by decide +kernel)

/-- With as many depths as its text is long, the reader takes it for the value wherever one of some
texts follows or nothing. -/
def Reads {α : Type} (r : Nat → Reader α) (cs : List Char) (a : α) (ends : List String) : Prop :=
  ∀ depth rest, cs.length ≤ depth → Follows ends rest → r depth (cs ++ rest) = some (a, rest)

end Reader

open Reader

section Constructs
variable (d : Dialect)

def ReadsTerm (e : Expr) : Prop :=
  Reads (fun depth => term d (.ofDepth d depth)) (chars d (e.pieces d)) e termEnds

def ReadsTest (e : Expr) : Prop :=
  Reads (fun depth => test d (.ofDepth d depth)) (chars d (e.pieces d)) e testEnds

/-- An operand of a junction as it is written there. -/
def operandRun (e : Expr) : List Piece :=
  if e.isJunction then [.text "("] ++ e.pieces d ++ [.text ")"] else e.pieces d

/-- A condition is read back by itself and as an operand. -/
structure Readable (e : Expr) : Prop where
  condition : Reads (fun depth => Reader.condition d (.ofDepth d depth)) (chars d (e.pieces d)) e
    conditionEnds
  operand : Reads (fun depth => Reader.operand d (.ofDepth d depth)) (chars d (operandRun d e)) e
    testEnds

def ReadsSource (s : Source) : Prop :=
  Reads (fun depth => source d (.ofDepth d depth)) (chars d (s.pieces d)) s sourceEnds

def ReadsSelect (s : Select) : Prop :=
  Reads (fun depth => select d (.ofDepth d depth)) (chars d (s.pieces d)) s selectEnds

end Constructs

variable {d : Dialect} {depth : Nat} {rest : List Char}

/-- A select inside another construct is read one depth below. -/
theorem ReadsSelect.inner {s : Select} (h : ReadsSelect d s) (depth : Nat)
    (hdepth : (chars d (s.pieces d)).length < depth) (hrest : Follows selectEnds rest) :
    (Readers.ofDepth d depth).select (chars d (s.pieces d) ++ rest) = some (s, rest) := by
  cases depth with
  | zero => omega
  | succ n => exact h n rest (by omega) hrest

/-- A condition inside another construct is read one depth below. -/
theorem Readable.inner {e : Expr} (h : Readable d e) (depth : Nat)
    (hdepth : (chars d (e.pieces d)).length < depth) (hrest : Follows conditionEnds rest) :
    (Readers.ofDepth d depth).condition (chars d (e.pieces d) ++ rest) = some (e, rest) := by
  cases depth with
  | zero => omega
  | succ n => exact h.condition n rest (by omega) hrest

/-! ### Terms -/

section Terms

theorem term_eq {inner : Readers} {c : Char} {cs : List Char} (h : cs.head? = some c) :
    term d inner cs =
      (if c = '\x7b' then do return .param (← placeholder)
      else if c.isDigit then do return .literal (← number)
      else if c = d.quote then do return .column none (← name d)
      else worded d inner : Reader Expr) cs := by
  rw [term, next_bind, h]

theorem chars_param (n : Nat) :
    chars d ((Expr.param n).pieces d) = Piece.write d (.placeholder n) := by
  simp [Expr.pieces, chars]

theorem readsTerm_param (n : Nat) : ReadsTerm d (.param n) := by
  intro depth rest _ _
  show term d _ _ = _
  rw [chars_param, term_eq rfl, if_pos rfl, bind_of (placeholder_write d n rest)]
  rfl

theorem readsTerm_literal (n : Nat) : ReadsTerm d (.literal n) := by
  intro depth rest _ hrest
  have hchars : chars d ((Expr.literal n).pieces d) = (toString n).toList := by
    simp only [Expr.pieces, chars_text, chars_nil, List.append_nil]
    rfl
  obtain ⟨c, cs, hcs⟩ := List.exists_cons_of_ne_nil (toDigits_ne_nil n)
  have hc : c.isDigit = true := isDigit_of_mem_toDigits (hcs ▸ List.mem_cons_self ..)
  have hhead : ((toString n).toList ++ rest).head? = some c := by
    rw [toList_toString, hcs]
    rfl
  have hbrace : c ≠ '\x7b' := by
    rintro rfl
    exact absurd hc (by decide)
  show term d _ _ = _
  rw [hchars, term_eq hhead, if_neg hbrace, if_pos hc,
    bind_of (number_toString n (digit_termEnds hrest))]
  rfl

theorem not_isDigit_of_isWordStart {c : Char} (h : Member.isWordStart c = true) :
    c.isDigit = false := by
  rw [← Bool.not_eq_true]
  intro hdigit
  delta Member.isWordStart Char.isAlpha Char.isUpper Char.isLower at h
  delta Char.isDigit at hdigit
  simp only [UInt32.le_iff_toNat_le, Bool.or_eq_true, Bool.and_eq_true,
    decide_eq_true_eq] at h hdigit
  rcases h with h | rfl
  · simp at h hdigit
    omega
  · simp at hdigit

theorem quote_not_isWordStart (d : Dialect) : Member.isWordStart d.quote = false := by
  cases d <;> decide

/-- A term that begins with a word is read on by what stands behind it. -/
theorem term_word {inner : Readers} {w : String} (hw : IsWord w) (o : Opening) (more : List Char) :
    term d inner (w.toList ++ (o.text.toList ++ more)) = opened d inner w (some o) more := by
  obtain ⟨c, cs, hlist, hc⟩ := hw.exists_cons
  have hhead : (w.toList ++ (o.text.toList ++ more)).head? = some c := by rw [hlist]; rfl
  have hbrace : c ≠ '\x7b' := by
    rintro rfl
    exact absurd hc (by decide)
  have hquote : c ≠ d.quote := by
    rintro rfl
    simp [quote_not_isWordStart] at hc
  have hdigit : ¬ c.isDigit = true := by simp [not_isDigit_of_isWordStart hc]
  have hends : (o.text.toList ++ more).head?.all (fun c => !Member.isWordChar c) = true :=
    head_text (by cases o <;> decide) more
  rw [term_eq hhead, if_neg hbrace, if_neg hdigit, if_neg hquote, worded,
    bind_of (word_append hw hends), bind_of (choose_opening ..)]

theorem chars_column (name : String) :
    chars d ((Expr.column none name).pieces d) = d.quoteChars name.toList := by
  simp [Expr.pieces]

theorem chars_qualifiedColumn (table name : String) :
    chars d ((Expr.column (some table) name).pieces d) =
      table.toList ++ (Opening.name.text.toList ++ d.quoteChars name.toList) := by
  simp only [Expr.pieces, chars_text, chars_name, chars_nil, List.append_nil, toString,
    String.toList_append, List.append_assoc, Opening.text]

theorem head?_quoteChars (name more : List Char) :
    (d.quoteChars name ++ more).head? = some d.quote := rfl

theorem quote_ne_brace (d : Dialect) : d.quote ≠ '\x7b' := by cases d <;> decide

theorem quote_not_isDigit (d : Dialect) : d.quote.isDigit = false := by cases d <;> decide

theorem qualified_empty (name : String) : Expr.qualified "" name = .column none name := rfl

theorem qualified_word {table : String} (h : IsWord table) (name : String) :
    Expr.qualified table name = .column (some table) name := by
  rw [Expr.qualified, aliasName?, if_neg h.ne_empty]

theorem readsTerm_qualified {table : String} (h : table = "" ∨ IsWord table) (n : String) :
    ReadsTerm d (.qualified table n) := by
  intro depth rest _ hrest
  have hname := name_quoteChars d n (quote_termEnds d hrest)
  show term d _ _ = _
  obtain rfl | h := h
  · rw [qualified_empty, chars_column, term_eq (head?_quoteChars ..), if_neg (quote_ne_brace d),
      if_neg (by simp [quote_not_isDigit]), if_pos rfl, bind_of hname]
    rfl
  · rw [qualified_word h, chars_qualifiedColumn, List.append_assoc, List.append_assoc,
      term_word h]
    exact bind_of hname _

/-- A column is read as an argument as well. -/
theorem column_qualified {table : String} (h : table = "" ∨ IsWord table) (n : String)
    (hrest : Follows termEnds rest) :
    column d (chars d ((Expr.qualified table n).pieces d) ++ rest) =
      some (.qualified table n, rest) := by
  have hname := name_quoteChars d n (quote_termEnds d hrest)
  rw [column, next_bind]
  obtain rfl | h := h
  · rw [qualified_empty, chars_column, if_pos (head?_quoteChars ..), bind_of hname]
    rfl
  · obtain ⟨c, cs, hlist, hc⟩ := h.exists_cons
    have hquote : ¬ (table.toList ++ (Opening.name.text.toList ++
        (d.quoteChars n.toList ++ rest))).head? = some d.quote := by
      rw [hlist]
      intro heq
      obtain rfl := Option.some.inj heq
      simp [quote_not_isWordStart] at hc
    rw [qualified_word h, chars_qualifiedColumn, List.append_assoc, List.append_assoc,
      if_neg hquote, bind_of (word_append h (head_text (by decide) _))]
    exact (bind_of (skip_text "." _) _).trans (bind_of hname _)

theorem readsTerm_countAll : ReadsTerm d .countAll := by
  intro depth rest _ _
  have hchars : chars d (Expr.countAll.pieces d) ++ rest =
      "COUNT".toList ++ (Opening.argument.text.toList ++ ("0)".toList ++ rest)) := by
    simp [Expr.pieces, Opening.text]
  have hcount : IsWord "COUNT" := ⟨by decide, by decide⟩
  have hdigit : ("0)".toList ++ rest).head?.any Char.isDigit = true := by simp
  show term d _ _ = _
  rw [hchars, term_word hcount]
  show (next >>= _) _ = _
  rw [next_bind, if_pos hdigit, bind_of (skip_text ..)]
  rfl

theorem head?_qualified {table : String} (h : table = "" ∨ IsWord table) (n : String)
    (more : List Char) :
    (chars d ((Expr.qualified table n).pieces d) ++ more).head?.any Char.isDigit = false := by
  obtain rfl | h := h
  · rw [qualified_empty, chars_column, head?_quoteChars]
    exact quote_not_isDigit d
  · obtain ⟨c, cs, hlist, hc⟩ := h.exists_cons
    rw [qualified_word h, chars_qualifiedColumn, hlist]
    exact not_isDigit_of_isWordStart hc

theorem readsTerm_call {function table : String} (hf : IsWord function)
    (h : table = "" ∨ IsWord table) (n : String) :
    ReadsTerm d (.call function [.qualified table n]) := by
  intro depth rest _ _
  have hchars : chars d ((Expr.call function [.qualified table n]).pieces d) ++ rest =
      function.toList ++ (Opening.argument.text.toList ++
        (chars d ((Expr.qualified table n).pieces d) ++ (")".toList ++ rest))) := by
    simp [Expr.pieces, Expr.allPieces, Piece.separated, toString, Opening.text]
  have hends : Follows termEnds (")".toList ++ rest) := follows_text (by decide) rest
  show term d _ _ = _
  rw [hchars, term_word hf]
  show (next >>= _) _ = _
  rw [next_bind, if_neg (by rw [head?_qualified h]; decide), bind_of (column_qualified h n hends),
    bind_of (skip_text ..)]
  rfl

theorem readsTerm_hasRow {s : Select} (h : ReadsSelect d s) : ReadsTerm d (.hasRow s) := by
  intro depth rest hdepth _
  have hchars : chars d ((Expr.hasRow s).pieces d) =
      "EXISTS".toList ++ (Opening.select.text.toList ++ (chars d (s.pieces d) ++ ")".toList)) := by
    simp [Expr.pieces, Opening.text]
  have hexists : IsWord "EXISTS" := ⟨by decide, by decide⟩
  rw [hchars] at hdepth
  have hselect := h.inner depth (by simp at hdepth; omega)
    (follows_text (List.mem_cons_self ..) rest)
  show term d _ _ = _
  rw [hchars]
  simp only [List.append_assoc]
  rw [term_word hexists]
  rw [opened, if_pos rfl, bind_of hselect, bind_of (skip_text ..)]
  rfl

end Terms

/-! ### Tests -/

section Tests
variable {e a b low high : Expr}

/-- A term without an operator behind it is a test. -/
theorem ReadsTerm.test (h : ReadsTerm d e) : ReadsTest d e := by
  intro depth rest hdepth hrest
  have hterm := h depth rest hdepth (hrest.mono (List.subset_append_right ..))
  show Reader.test d _ _ = _
  rw [Reader.test, bind_of hterm, bind_of (choose_of_follows free_operators hrest)]
  rfl

theorem operator_termEnds (o : Operator) (more : List Char) :
    Follows termEnds (o.text.toList ++ more) := by
  apply follows_text
  have hmem : o.text ∈ operators.map Prod.fst := by
    cases o with
    | binary op => cases op <;> decide
    | isNull negate | within negate => cases negate <;> decide
    | between => decide
  exact List.mem_append_left _ (List.mem_append_left _ hmem)

/-- Behind the term at its front, a test is read on by its operator. -/
theorem ReadsTerm.test_of {inner : List Char} {o : Operator} (h : ReadsTerm d e)
    (hdepth : (chars d (e.pieces d)).length ≤ depth) :
    Reader.test d (.ofDepth d depth) (chars d (e.pieces d) ++ (o.text.toList ++ inner)) =
      tested d (.ofDepth d depth) e (some o) inner := by
  rw [Reader.test, bind_of (h depth _ hdepth (operator_termEnds o _)), bind_of (choose_operator ..)]

theorem readsTest_binary (ha : ReadsTerm d a) (op : BinaryOp) (hb : ReadsTerm d b) :
    ReadsTest d (.binary a op b) := by
  intro depth rest hdepth hrest
  have hchars : chars d ((Expr.binary a op b).pieces d) =
      chars d (a.pieces d) ++ ((Operator.binary op).text.toList ++ chars d (b.pieces d)) := by
    simp [Expr.pieces, Operator.text]
  rw [hchars, List.length_append, List.length_append] at hdepth
  show Reader.test d _ _ = _
  rw [hchars, List.append_assoc, List.append_assoc, ha.test_of (by omega)]
  exact bind_of (hb depth rest (by omega) (hrest.mono (List.subset_append_right ..))) _

theorem readsTest_isNull (he : ReadsTerm d e) (negate : Bool) : ReadsTest d (.isNull e negate) := by
  intro depth rest hdepth hrest
  have hchars : chars d ((Expr.isNull e negate).pieces d) =
      chars d (e.pieces d) ++ (Operator.isNull negate).text.toList := by
    simp [Expr.pieces, Operator.text]
  rw [hchars, List.length_append] at hdepth
  show Reader.test d _ _ = _
  rw [hchars, List.append_assoc, he.test_of (by omega)]
  rfl

theorem readsTest_between (he : ReadsTerm d e) (hlow : ReadsTerm d low) (hhigh : ReadsTerm d high) :
    ReadsTest d (.between e low high) := by
  intro depth rest hdepth hrest
  have hchars : chars d ((Expr.between e low high).pieces d) =
      chars d (e.pieces d) ++ (Operator.between.text.toList ++
        (chars d (low.pieces d) ++ (" AND ".toList ++ chars d (high.pieces d)))) := by
    simp [Expr.pieces, Operator.text]
  rw [hchars] at hdepth
  simp only [List.length_append] at hdepth
  show Reader.test d _ _ = _
  rw [hchars]
  simp only [List.append_assoc]
  rw [he.test_of (by omega)]
  show (term d _ >>= _) _ = _
  rw [bind_of (hlow depth _ (by omega) (follows_text (by decide) _)), bind_of (skip_text ..),
    bind_of (hhigh depth rest (by omega) (hrest.mono (List.subset_append_right ..)))]
  rfl

theorem params_read (ns : List Nat) (rest : List Char) :
    params (chars d (Piece.separated ", " (Expr.allPieces d (ns.map .param))) ++
      (")".toList ++ rest)) = some (ns.map .param, ")".toList ++ rest) := by
  cases ns with
  | nil =>
    show params (")".toList ++ rest) = _
    rw [params, next_bind, if_neg (by simp)]
    rfl
  | cons n ns =>
    have hbrace : (chars d (Piece.separated ", " (Expr.allPieces d ((n :: ns).map .param))) ++
        (")".toList ++ rest)).head? = some '\x7b' := by
      rw [List.map_cons, Expr.allPieces, chars_separated]
      rfl
    rw [params, next_bind, if_pos hbrace, List.map_cons, Expr.allPieces, chars_separated,
      Expr.allPieces_eq_map, List.flatMap_map, List.append_assoc]
    have hfree : Free [(", ", ())] [")"] := by decide
    apply separated_of (fun e : Expr => chars d (e.pieces d)) hfree _
      (follows_text (List.mem_cons_self ..) rest)
    intro e he more _
    rw [← List.map_cons] at he
    obtain ⟨m, -, rfl⟩ := List.mem_map.1 he
    rw [chars_param]
    show (Expr.param <$> placeholder) _ = _
    rw [← bind_pure_comp, bind_of (placeholder_write ..)]
    rfl

theorem readsTest_inList (he : ReadsTerm d e) (ns : List Nat) (negate : Bool) :
    ReadsTest d (.inList e (ns.map .param) negate) := by
  intro depth rest hdepth _
  have hchars : chars d ((Expr.inList e (ns.map .param) negate).pieces d) =
      chars d (e.pieces d) ++ ((Operator.within negate).text.toList ++
        (chars d (Piece.separated ", " (Expr.allPieces d (ns.map .param))) ++ ")".toList)) := by
    simp [Expr.pieces, Operator.text]
  rw [hchars, List.length_append] at hdepth
  show Reader.test d _ _ = _
  rw [hchars]
  simp only [List.append_assoc]
  rw [he.test_of (by omega), tested, next_bind, if_neg, bind_of (params_read ns rest),
    bind_of (skip_text ..)]
  · rfl
  · cases ns with
    | nil => simp [Piece.separated, Expr.allPieces]
    | cons n ns =>
      rw [List.map_cons, Expr.allPieces, chars_separated, chars_param]
      simp [Piece.write]

theorem readsTest_inSelect (he : ReadsTerm d e) {s : Select} (h : ReadsSelect d s)
    (negate : Bool) : ReadsTest d (.inSelect e s negate) := by
  intro depth rest hdepth _
  have hchars : chars d ((Expr.inSelect e s negate).pieces d) =
      chars d (e.pieces d) ++ ((Operator.within negate).text.toList ++
        (chars d (s.pieces d) ++ ")".toList)) := by
    simp [Expr.pieces, Operator.text]
  rw [hchars] at hdepth
  have hselect := h.inner depth (by simp at hdepth; omega)
    (follows_text (List.mem_cons_self ..) rest)
  simp only [List.length_append] at hdepth
  show Reader.test d _ _ = _
  rw [hchars]
  simp only [List.append_assoc]
  rw [he.test_of (by omega), tested, next_bind, if_pos, bind_of hselect, bind_of (skip_text ..)]
  · rfl
  · obtain ⟨items, source, joins, filter, groupBy, having, orderBy, limit⟩ := s
    simp [Select.pieces]

end Tests

/-! ### Conditions -/

section Conditions
variable {e : Expr}

theorem operandPieces_eq_map (es : List Expr) :
    Expr.operandPieces d es = es.map (operandRun d) := by
  induction es with
  | nil => rfl
  | cons e rest ih => rw [Expr.operandPieces, ih, List.map_cons, operandRun]

theorem operandRun_of_not_junction (h : e.isJunction = false) : operandRun d e = e.pieces d := by
  rw [operandRun, if_neg (by simp [h])]

/-- A test does not open a parenthesis. -/
theorem test_parenthesis {inner : Readers} {cs : List Char} (h : cs.head? = some '(') :
    Reader.test d inner cs = none := by
  have hquote : '(' ≠ d.quote := by cases d <;> decide
  have hword : word cs = none := by
    cases cs with
    | nil => simp at h
    | cons c cs =>
      obtain rfl := Option.some.inj h
      rfl
  have hterm : term d inner cs = none := by
    rw [term_eq h, if_neg (by decide), if_neg (by decide), if_neg hquote]
    show (word cs).bind _ = none
    rw [hword]
    rfl
  show (term d inner cs).bind _ = none
  rw [hterm]
  rfl

theorem ReadsTest.readable (h : ReadsTest d e) (hjunction : e.isJunction = false) :
    Readable d e := by
  have hoperand : Reads (fun depth => Reader.operand d (.ofDepth d depth)) (chars d (e.pieces d)) e
      testEnds := by
    intro depth rest hdepth hrest
    have htest := h depth rest hdepth hrest
    have hopen : ¬ (chars d (e.pieces d) ++ rest).head? = some '(' := by
      intro hopen
      exact absurd (htest.symm.trans (test_parenthesis hopen)) (by simp)
    show Reader.operand d _ _ = _
    rw [Reader.operand, next_bind, if_neg hopen]
    exact htest
  refine ⟨?_, by rwa [operandRun_of_not_junction hjunction]⟩
  intro depth rest hdepth hrest
  show Reader.condition d _ _ = _
  have hends : Follows testEnds rest := hrest.mono (List.subset_append_right ..)
  rw [Reader.condition, bind_of (hoperand depth rest hdepth hends),
    bind_of (choose_of_follows free_junctions hrest)]
  rfl

theorem junction_testEnds (k : Combinator) : junctionText k :: conditionEnds ⊆ testEnds := by
  cases k <;> decide

theorem chars_junction (k : Combinator) (e : Expr) (es : List Expr) :
    chars d ((Expr.junction k (e :: es)).pieces d) = chars d (operandRun d e) ++
      es.flatMap fun other => (junctionText k).toList ++ chars d (operandRun d other) := by
  have hpieces : (Expr.junction k (e :: es)).pieces d =
      Piece.separated (junctionText k) (Expr.operandPieces d (e :: es)) := by
    cases k <;> rfl
  rw [hpieces, operandPieces_eq_map, List.map_cons, chars_separated, List.flatMap_map]

/-- A text is no longer than those it is among. -/
theorem length_le_of_mem {α : Type} (write : α → List Char) {a : α} {as : List α} (h : a ∈ as) :
    (write a).length ≤ (as.flatMap write).length := by
  rw [List.flatMap_def]
  exact (List.sublist_flatten_of_mem (List.mem_map_of_mem h)).length_le

/-- The operands of a junction are read back one after another. -/
theorem condition_junction (k : Combinator) {e' : Expr} {es : List Expr}
    (h : ∀ x ∈ e :: e' :: es, Readable d x) :
    Reads (fun depth => Reader.condition d (.ofDepth d depth))
      (chars d ((Expr.junction k (e :: e' :: es)).pieces d)) (.junction k (e :: e' :: es))
      conditionEnds := by
  intro depth rest hdepth hrest
  rw [chars_junction, List.length_append] at hdepth
  have hfirst := (h e (List.mem_cons_self ..)).operand depth
    ((junctionText k).toList ++ (chars d (operandRun d e') ++
      (es.flatMap (fun other => (junctionText k).toList ++ chars d (operandRun d other)) ++ rest)))
    (by omega) (follows_text (junction_testEnds k (List.mem_cons_self ..)) _)
  have hfree : Free [(junctionText k, ())] conditionEnds := by cases k <;> decide
  have hothers : separated (junctionText k) (Reader.operand d (.ofDepth d depth))
      (chars d (operandRun d e') ++ (es.flatMap (fun other =>
        (junctionText k).toList ++ chars d (operandRun d other)) ++ rest)) =
      some (e' :: es, rest) := by
    apply separated_of (fun other => chars d (operandRun d other)) hfree _ hrest
    intro other hother more hmore
    have hlength := length_le_of_mem
      (fun other => (junctionText k).toList ++ chars d (operandRun d other)) hother
    rw [List.length_append] at hlength
    exact (h other (List.mem_cons_of_mem _ hother)).operand depth more (by omega)
      (hmore.mono (junction_testEnds k))
  show Reader.condition d _ _ = _
  rw [chars_junction, List.flatMap_cons]
  simp only [List.append_assoc]
  rw [Reader.condition, bind_of hfirst, bind_of (choose_junction ..)]
  exact bind_of hothers _

theorem readable_junction (k : Combinator) {e' : Expr} {es : List Expr}
    (h : ∀ x ∈ e :: e' :: es, Readable d x) : Readable d (.junction k (e :: e' :: es)) := by
  have hcondition := condition_junction k h
  refine ⟨hcondition, ?_⟩
  intro depth rest hdepth _
  have hrun : chars d (operandRun d (.junction k (e :: e' :: es))) = "(".toList ++
      (chars d ((Expr.junction k (e :: e' :: es)).pieces d) ++ ")".toList) := by
    rw [operandRun, if_pos (by cases k <;> rfl)]
    simp
  rw [hrun] at hdepth
  have hinner : (Readers.ofDepth d depth).condition
      (chars d ((Expr.junction k (e :: e' :: es)).pieces d) ++ (")".toList ++ rest)) =
      some (.junction k (e :: e' :: es), ")".toList ++ rest) := by
    cases depth with
    | zero => simp at hdepth
    | succ n =>
      exact hcondition n _ (by simp at hdepth; omega) (follows_text (by decide) rest)
  show Reader.operand d _ _ = _
  rw [hrun]
  simp only [List.append_assoc]
  rw [Reader.operand, next_bind, if_pos (by simp), bind_of (skip_text ..), bind_of hinner,
    bind_of (skip_text ..)]
  rfl

/-- What is put together of conditions that are read back is read back. -/
theorem readable_allOf? {es : List Expr} (h : ∀ x ∈ es, Readable d x)
    (he : Expr.allOf? es = some e) : Readable d e := by
  match es with
  | [] => simp [Expr.allOf?] at he
  | [only] => exact Option.some.inj he ▸ h only (List.mem_cons_self ..)
  | _ :: _ :: _ => exact Option.some.inj he ▸ readable_junction .and h

theorem readable_anyOf? {es : List Expr} (h : ∀ x ∈ es, Readable d x)
    (he : Expr.anyOf? es = some e) : Readable d e := by
  match es with
  | [] => simp [Expr.anyOf?] at he
  | [only] => exact Option.some.inj he ▸ h only (List.mem_cons_self ..)
  | _ :: _ :: _ => exact Option.some.inj he ▸ readable_junction .or h

/-- **The text of a condition that is read back says which condition it is.** -/
theorem Readable.read?_text (h : Readable d e) : Expr.read? d (e.text d) = some e := by
  have htext : (e.text d).toList = chars d (e.pieces d) := by
    simp [Expr.text, Piece.writeAll, chars]
  have hread : Reader.condition d (.ofDepth d (e.text d).length) (chars d (e.pieces d) ++ []) =
      some (e, []) :=
    h.condition _ [] (by rw [← htext, String.length_toList]) (follows_nil _)
  rw [List.append_nil] at hread
  rw [Expr.read?, htext, hread]

end Conditions

end EntityQuery.Sql
