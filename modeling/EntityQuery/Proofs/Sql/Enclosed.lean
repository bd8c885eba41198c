import EntityQuery.Proofs.Sql.Readable
import Mathlib.Data.List.Chain

/-! Names end where they were meant to.

A name is written between quotes, with its own quotes doubled, and is read back whatever follows
except another quote. In a statement none follows: behind every name comes fixed text that begins
otherwise, or nothing (`Parted`). So at each place of a name that name is read and all that was
written behind it is left, whichever name stands there, and a text whose other words hold no quote
reads as its names and the characters between them (`names_enclosed`). -/
namespace EntityQuery.Sql

/-! ### What comes behind a name -/

def isQuote (c : Char) : Bool := c == '\x60' || c == '"'

theorem isQuote_quote (d : Dialect) : isQuote d.quote = true := by cases d <;> decide

/-- A text that begins, and not with a quote. -/
def Opening (t : String) : Prop := t.toList.head?.any (fun c => !isQuote c) = true

instance : DecidablePred Opening := fun _ => inferInstanceAs (Decidable (_ = true))

theorem opening_append {a : String} (h : Opening a) (b : String) : Opening (a ++ b) := by
  unfold Opening at h ⊢
  cases ha : a.toList with
  | nil => simp [ha] at h
  | cons c rest => simpa [ha] using h

def Piece.isName : Piece → Bool
  | .name _ => true
  | _ => false

def Piece.Opens : Piece → Prop
  | .text t => Opening t
  | _ => False

/-- Behind every name comes a text that begins, and not with a quote, or nothing. -/
def Parted (pieces : List Piece) : Prop :=
  pieces.IsChain fun p q => p.isName = true → q.Opens

section Pieces
variable {a rest : List Piece} {t name : String}

@[simp] theorem parted_nil : Parted [] := .nil

theorem parted_cons {p : Piece} (h : p.isName = false) : Parted (p :: rest) ↔ Parted rest := by
  unfold Parted
  cases rest with
  | nil => simp
  | cons q rest => simp [h]

@[simp] theorem parted_text : Parted (.text t :: rest) ↔ Parted rest := parted_cons rfl

@[simp] theorem parted_placeholder {n : Nat} : Parted (.placeholder n :: rest) ↔ Parted rest :=
  parted_cons rfl

@[simp] theorem parted_name : Parted [.name name] := List.isChain_singleton _

/-- Text that begins without a quote may come behind anything. -/
@[simp] theorem parted_append_text (h : Opening t) :
    Parted (a ++ .text t :: rest) ↔ Parted a ∧ Parted rest := by
  have hcome : ∀ p ∈ a.getLast?, ∀ q ∈ (Piece.text t :: rest).head?, p.isName = true → q.Opens := by
    intro p _ q hq _
    obtain rfl := Option.some.inj hq
    exact h
  rw [Parted, List.isChain_append, and_iff_left hcome]
  exact and_congr_right fun _ => parted_text

@[simp] theorem parted_name_text (h : Opening t) :
    Parted (.name name :: .text t :: rest) ↔ Parted rest := by
  rw [← List.singleton_append, parted_append_text h, and_iff_right parted_name]

theorem parted_separated {separator : String} (h : Opening separator) {runs : List (List Piece)}
    (hruns : ∀ run ∈ runs, Parted run) : Parted (Piece.separated separator runs) :=
  Piece.separated_induction parted_nil
    (fun hrun hrest => (parted_append_text h).2 ⟨hrun, hrest⟩) hruns

theorem parted_list {runs : List (List Piece)} (hruns : ∀ run ∈ runs, Parted run) :
    Parted (Piece.separated ", " runs) := parted_separated (by decide) hruns

/-- Pieces that may come behind anything: nothing, or a text that begins without a quote. -/
def Trailing (pieces : List Piece) : Prop := Parted pieces ∧ ∀ p ∈ pieces.head?, p.Opens

theorem trailing_nil : Trailing [] := ⟨parted_nil, by simp⟩

theorem trailing_text (h : Opening t) (hrest : Parted rest) : Trailing (.text t :: rest) :=
  ⟨parted_text.2 hrest, fun _ hp => Option.some.inj hp ▸ h⟩

theorem Parted.append (ha : Parted a) (h : Trailing rest) : Parted (a ++ rest) :=
  List.isChain_append.2 ⟨ha, h.1, fun _ _ q hq _ => h.2 q hq⟩

theorem trailing_clause {opening : String} (h : Opening opening) {pieces : Option (List Piece)}
    (hp : ∀ run ∈ pieces, Parted run) : Trailing (clause opening pieces) := by
  cases pieces with
  | none => exact trailing_nil
  | some run => exact trailing_text h (hp run rfl)

theorem trailing_listClause {opening : String} (h : Opening opening) {runs : List (List Piece)}
    (hruns : ∀ run ∈ runs, Parted run) : Trailing (listClause opening runs) := by
  cases runs with
  | nil => exact trailing_nil
  | cons run rest => exact trailing_text h (parted_list hruns)

end Pieces

/-! ### Statements -/

section Syntax
variable (d : Dialect)

theorem opening_inText (negate : Bool) : Opening (inText negate) := by cases negate <;> decide

theorem opening_directionText (direction : Direction) : Opening (directionText direction) := by
  cases direction <;> decide

theorem parted_tableName (t : TableName) : Parted t.pieces := by
  obtain ⟨_ | schema, name⟩ := t
  · exact parted_name
  · simp +decide [TableName.pieces]

theorem parted_limit (l : Limit) : Parted (l.pieces d) := by
  cases d <;> simp [Limit.pieces]

mutual

theorem Expr.parted : ∀ e : Expr, Parted (e.pieces d)
  | .and operands => parted_separated (by decide) (Expr.operandPieces_parted operands)
  | .or operands => parted_separated (by decide) (Expr.operandPieces_parted operands)
  | .binary lhs op rhs => by
    have hop : Opening s!" {op.symbol} " := opening_append (opening_append (by decide) _) _
    simp [Expr.pieces, hop, Expr.parted lhs, Expr.parted rhs]
  | .between e low high => by
    simp +decide [Expr.pieces, Expr.parted e, Expr.parted low, Expr.parted high]
  | .column none name => parted_name
  | .column (some table) name => by simp [Expr.pieces]
  | .countAll | .literal _ | .null | .param _ => by simp [Expr.pieces]
  | .hasRow select => by simp +decide [Expr.pieces, Select.parted select]
  | .call function args => by
    have hargs := parted_list (Expr.allPieces_parted args)
    simp +decide [Expr.pieces, hargs]
  | .inList e list negate => by
    have hlist := parted_list (Expr.allPieces_parted list)
    simp +decide [Expr.pieces, opening_inText, Expr.parted e, hlist]
  | .inSelect e select negate => by
    simp +decide [Expr.pieces, opening_inText, Expr.parted e, Select.parted select]
  | .isNull e negate => by
    cases negate <;> simp +decide [Expr.pieces, Expr.parted e]
termination_by structural e => e

theorem Expr.allPieces_parted : ∀ es : List Expr, ∀ run ∈ Expr.allPieces d es, Parted run
  | [] => by simp [Expr.allPieces]
  | e :: rest => List.forall_mem_cons.2 ⟨Expr.parted e, Expr.allPieces_parted rest⟩
termination_by structural es => es

theorem Expr.operandPieces_parted : ∀ es : List Expr, ∀ run ∈ Expr.operandPieces d es, Parted run
  | [] => by simp [Expr.operandPieces]
  | e :: rest => by
    rw [Expr.operandPieces, List.forall_mem_cons]
    refine ⟨?_, Expr.operandPieces_parted rest⟩
    split
    · simp +decide [Expr.parted e]
    · exact Expr.parted e
termination_by structural es => es

theorem Expr.optionPieces_parted : ∀ e : Option Expr, ∀ run ∈ Expr.optionPieces d e, Parted run
  | none => by simp [Expr.optionPieces]
  | some e => by simpa [Expr.optionPieces] using Expr.parted e
termination_by structural e => e

theorem Source.parted : ∀ s : Source, Parted (s.pieces d)
  | .table name none => parted_tableName name
  | .table name (some aliasName) => by
    have halias : Opening s!" {aliasName}" := opening_append (by decide) _
    simp [Source.pieces, halias, parted_tableName]
  | .derived select aliasName => by
    have halias : Opening s!") {aliasName}" := opening_append (by decide) _
    simp [Source.pieces, halias, Select.parted select]
termination_by structural s => s

theorem Item.parted : ∀ i : Item, Parted (i.pieces d)
  | .expr e none => Expr.parted e
  | .expr e (some aliasName) => by simp +decide [Item.pieces, Expr.parted e]
  | .wildcard aliasName => by simp [Item.pieces]
termination_by structural i => i

theorem Item.allPieces_parted : ∀ is : List Item, ∀ run ∈ Item.allPieces d is, Parted run
  | [] => by simp [Item.allPieces]
  | i :: rest => List.forall_mem_cons.2 ⟨Item.parted i, Item.allPieces_parted rest⟩
termination_by structural is => is

theorem Join.parted : ∀ j : Join, Parted (j.pieces d)
  | ⟨kind, source, on⟩ => by
    simp +decide [Join.pieces, Source.parted source, Expr.parted on]
termination_by structural j => j

theorem Join.allPieces_trailing : ∀ js : List Join, Trailing (Join.allPieces d js)
  | [] => trailing_nil
  | j :: rest => trailing_text (by decide) ((Join.parted j).append (Join.allPieces_trailing rest))
termination_by structural js => js

theorem OrderBy.parted : ∀ o : OrderBy, Parted (o.pieces d)
  | ⟨e, direction⟩ => by simp [OrderBy.pieces, opening_directionText, Expr.parted e]
termination_by structural o => o

theorem OrderBy.allPieces_parted : ∀ os : List OrderBy, ∀ run ∈ OrderBy.allPieces d os, Parted run
  | [] => by simp [OrderBy.allPieces]
  | o :: rest => List.forall_mem_cons.2 ⟨OrderBy.parted o, OrderBy.allPieces_parted rest⟩
termination_by structural os => os

theorem Select.parted : ∀ s : Select, Parted (s.pieces d)
  | ⟨items, source, joins, filter, groupBy, having, orderBy, limit⟩ => by
    have hitems := parted_list (Item.allPieces_parted items)
    have hopening : Parted ([.text "SELECT "] ++ Piece.separated ", " (Item.allPieces d items) ++
        [.text " FROM "] ++ source.pieces d) := by
      simp +decide [hitems, Source.parted source]
    have hlimit : ∀ run ∈ limit.map (Limit.pieces d), Parted run := by
      simpa using fun l _ => parted_limit d l
    exact ((((((hopening.append (Join.allPieces_trailing joins)).append
      (trailing_clause (by decide) (Expr.optionPieces_parted filter))).append
      (trailing_listClause (by decide) (Expr.allPieces_parted groupBy))).append
      (trailing_clause (by decide) (Expr.optionPieces_parted having))).append
      (trailing_listClause (by decide) (OrderBy.allPieces_parted orderBy))).append
      (trailing_clause (by decide) hlimit))
termination_by structural s => s

end

theorem Assignment.parted (a : Assignment) : Parted (a.pieces d) := by
  simp +decide [Assignment.pieces, Expr.parted]

theorem trailing_where (filter : Option Expr) :
    Trailing (clause " WHERE " (filter.map (Expr.pieces d))) :=
  trailing_clause (by decide) (by simpa using fun e _ => Expr.parted d e)

theorem Insert.parted (s : Insert) : Parted (s.pieces d) := by
  have hcolumns : Parted (Piece.separated ", " (s.columns.map fun column => [.name column])) :=
    parted_list (by simp)
  have hvalues : Parted (Piece.separated ", " (s.values.map (Expr.pieces d))) :=
    parted_list (by simpa using fun e _ => Expr.parted d e)
  simp +decide [Insert.pieces, parted_tableName, hcolumns, hvalues]

theorem Update.parted (s : Update) : Parted (s.pieces d) := by
  have hassignments : Parted (Piece.separated ", " (s.assignments.map (Assignment.pieces d))) :=
    parted_list (by simpa using fun a _ => Assignment.parted d a)
  refine Parted.append ?_ (trailing_where d s.filter)
  simp +decide [parted_tableName, hassignments]

theorem Delete.parted (s : Delete) : Parted (s.pieces d) := by
  refine Parted.append ?_ (trailing_where d s.filter)
  simp [parted_tableName]

/-- Behind every name of a statement comes a text that begins without a quote, or nothing. -/
theorem Statement.parted (s : Statement) : Parted (s.pieces d) := by
  cases s with
  | select s => exact Select.parted d s
  | insert s => exact Insert.parted d s
  | update s => exact Update.parted d s
  | delete s => exact Delete.parted d s

end Syntax

/-! ### Reading -/

/-- What a text holds for one who knows nothing but quotes: names, and the characters outside
them. -/
inductive Outlined (d : Dialect) : List Char → List (Char ⊕ String) → Prop where
  | nil : Outlined d [] []
  | char {c : Char} {cs : List Char} {tokens : List (Char ⊕ String)} (hc : c ≠ d.quote)
      (h : Outlined d cs tokens) : Outlined d (c :: cs) (.inl c :: tokens)
  | name {name : String} {cs rest : List Char} {tokens : List (Char ⊕ String)}
      (hname : Reader.name d cs = some (name, rest)) (h : Outlined d rest tokens) :
      Outlined d cs (.inr name :: tokens)

/-- A piece for one who knows nothing but quotes. -/
def Piece.tokens (d : Dialect) : Piece → List (Char ⊕ String)
  | .name n => [.inr n]
  | p => (p.write d).map .inl

/-- No text outside the names holds a quote of the dialect. -/
def Unquoted (d : Dialect) (pieces : List Piece) : Prop :=
  ∀ t, .text t ∈ pieces → d.quote ∉ t.toList

section Reading
variable {d : Dialect} {pieces : List Piece}

/-- A name is read back whatever follows but a quote. -/
theorem read_quoted {more : List Char} (h : more.head? ≠ some d.quote) (name : String) :
    Reader.name d (d.quoteChars name.toList ++ more) = some (name, more) := by
  refine Reader.name_quoteChars d name ?_
  cases more with
  | nil => rfl
  | cons c more => simpa using h

theorem name_of_ne {c : Char} (hc : c ≠ d.quote) (cs : List Char) :
    Reader.name d (c :: cs) = none := by
  rw [Reader.name, if_neg hc]

/-- A text is read in one way only. -/
theorem Outlined.unique {cs : List Char} {tokens tokens' : List (Char ⊕ String)}
    (h : Outlined d cs tokens) (h' : Outlined d cs tokens') : tokens' = tokens := by
  induction h generalizing tokens' with
  | nil =>
    cases h' with
    | nil => rfl
    | name hname _ => simp [Reader.name] at hname
  | char hc _ ih =>
    cases h' with
    | char _ h' => rw [ih h']
    | name hname _ => simp [name_of_ne hc] at hname
  | name hname _ ih =>
    cases h' with
    | nil => simp [Reader.name] at hname
    | char hc _ => simp [name_of_ne hc] at hname
    | name hname' h' =>
      obtain ⟨rfl, rfl⟩ := Prod.mk.inj (Option.some.inj (hname'.symm.trans hname))
      rw [ih h']

theorem Outlined.append {front cs : List Char} {tokens : List (Char ⊕ String)}
    (hfront : d.quote ∉ front) (h : Outlined d cs tokens) :
    Outlined d (front ++ cs) (front.map .inl ++ tokens) := by
  induction front with
  | nil => exact h
  | cons c front ih =>
    obtain ⟨hc, hrest⟩ := not_or.1 (mt List.mem_cons.2 hfront)
    exact .char (Ne.symm hc) (ih hrest)

theorem Piece.Opens.head?_chars {p : Piece} (h : p.Opens) (rest : List Piece) :
    (chars d (p :: rest)).head? ≠ some d.quote := by
  cases p with
  | name | placeholder => exact h.elim
  | text t =>
    rw [Piece.Opens, Opening] at h
    cases ht : t.toList with
    | nil => simp [ht] at h
    | cons c more =>
      have hc : isQuote c = false := by simpa [ht] using h
      have hne : c ≠ d.quote := fun heq => by simp [heq, isQuote_quote] at hc
      simpa [chars, Piece.write, ht] using hne

section Name
variable {before after : List Piece} {name : String}
  (h : Parted (before ++ .name name :: after))
include h

theorem Parted.head?_chars : (chars d after).head? ≠ some d.quote := by
  have hname := (List.isChain_append.1 h).2.1
  cases after with
  | nil => simp
  | cons p rest => exact ((List.isChain_cons_cons.1 hname).1 rfl).head?_chars rest

/-- Whichever name is written in the place of one, it is read. -/
theorem Parted.read (other : String) :
    Reader.name d (chars d (.name other :: after)) = some (other, chars d after) :=
  read_quoted h.head?_chars other

end Name

theorem quote_notMem_placeholder (d : Dialect) (n : Nat) :
    d.quote ∉ (Piece.placeholder n).write d := by
  have hdigits : d.quote ∉ Nat.toDigits 10 n := notMem_toDigits (by cases d <;> decide) n
  cases d <;> simpa [Piece.write, Dialect.quote, toString, Nat.toList_repr] using hdigits

/-- A text in which only the names hold quotes reads as its pieces. -/
theorem Parted.outlined (h : Parted pieces) (hwords : Unquoted d pieces) :
    Outlined d (chars d pieces) (pieces.flatMap (Piece.tokens d)) := by
  induction pieces with
  | nil => exact .nil
  | cons p rest ih =>
    have hrest := ih h.tail fun t ht => hwords t (List.mem_cons_of_mem _ ht)
    rw [List.flatMap_cons]
    cases p with
    | text t => exact hrest.append (hwords t (List.mem_cons_self ..))
    | name name =>
      have hread : Reader.name d (chars d (.name name :: rest)) = some (name, chars d rest) :=
        Parted.read (show Parted ([] ++ .name name :: rest) from h) name
      exact .name hread hrest
    | placeholder n => exact hrest.append (quote_notMem_placeholder d n)

end Reading

/-- Pieces in which no name reaches beyond its quotes. -/
structure Enclosed (d : Dialect) (pieces : List Piece) : Prop where
  /-- What is written next to a name does not begin with the quote. -/
  next : ∀ before name after, pieces = before ++ .name name :: after →
    (chars d after).head? ≠ some d.quote
  /-- Whichever name is written in its place, it is read, and what is written next is left. -/
  read : ∀ before name after, pieces = before ++ .name name :: after → ∀ other,
    Reader.name d (chars d (.name other :: after)) = some (other, chars d after)
  /-- The whole text is read as the names and the characters outside them. -/
  outlined : Unquoted d pieces → ∀ tokens,
    Outlined d (Piece.writeAll d pieces).toList tokens ↔
      tokens = pieces.flatMap (Piece.tokens d)

theorem Parted.enclosed {pieces : List Piece} (h : Parted pieces) (d : Dialect) :
    Enclosed d pieces where
  next _ _ _ heq := (heq ▸ h).head?_chars
  read _ _ _ heq := (heq ▸ h).read
  outlined hwords tokens := by
    have hread := h.outlined hwords
    rw [Piece.writeAll, String.toList_ofList, ← chars]
    exact ⟨fun hother => hread.unique hother, fun heq => heq ▸ hread⟩

/-- **No name reaches beyond its quotes.** In each dialect a name between quotes is read back, and
what follows is left, whatever the name is and whatever follows but a quote; and in every statement
no quote follows a name, so that this is how each of its names is read. -/
theorem names_enclosed (d : Dialect) :
    (∀ (name : String) (more : List Char), more.head? ≠ some d.quote →
      Reader.name d ((d.quoteName name).toList ++ more) = some (name, more)) ∧
    ∀ s : Statement, Enclosed d (s.pieces d) := by
  refine ⟨fun name more h => ?_, fun s => (s.parted d).enclosed d⟩
  rw [Dialect.quoteName, String.toList_ofList]
  exact read_quoted h name

/-- A deletion whose schema, table and column have quotes in their names. -/
def deletion : Statement :=
  .delete ⟨⟨some "\"", "a\"\"b"⟩, some (.equal (.column none "\"x") (.param 0))⟩

/-- A quote that is a name by itself, two in a row, and one in front. -/
theorem names_enclosed_deletion :
    deletion.text .postgresql = "DELETE FROM \"\"\"\".\"a\"\"\"\"b\" WHERE \"\"\"x\" = \x7b0\x7d" ∧
    " = 1".toList.head? ≠ some Dialect.postgresql.quote ∧
    Reader.name .postgresql ((Dialect.postgresql.quoteName "\"x").toList ++ " = 1".toList) =
      some ("\"x", " = 1".toList) ∧
    Unquoted .postgresql (deletion.pieces .postgresql) ∧
    Outlined .postgresql (deletion.text .postgresql).toList
      ("DELETE FROM ".toList.map .inl ++ [.inr "\"", .inl '.', .inr "a\"\"b"] ++
        " WHERE ".toList.map .inl ++ [.inr "\"x"] ++ " = \x7b0\x7d".toList.map .inl) := by
  obtain ⟨hread, henclosed⟩ := names_enclosed .postgresql
  have hends : " = 1".toList.head? ≠ some Dialect.postgresql.quote := by decide
  have hpieces : deletion.pieces .postgresql = [.text "DELETE FROM ", .name "\"", .text ".",
    .name "a\"\"b", .text " WHERE ", .name "\"x", .text " = ", .placeholder 0] := rfl
  have hwords : Unquoted .postgresql (deletion.pieces .postgresql) := by
    intro t ht
    rw [hpieces] at ht
    simp only [List.mem_cons, Piece.text.injEq, List.not_mem_nil, reduceCtorEq, false_or,
      or_false] at ht
    rcases ht with rfl | rfl | rfl | rfl <;> decide
  exact ⟨rfl, hends, hread _ _ hends, hwords, ((henclosed deletion).outlined hwords _).2 rfl⟩

end EntityQuery.Sql
