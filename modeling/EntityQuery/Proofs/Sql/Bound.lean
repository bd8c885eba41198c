import EntityQuery.Proofs.Chain
import EntityQuery.Proofs.Sql.Braceless
import EntityQuery.Proofs.Sql.Placeholder
import EntityQuery.Proofs.Sql.Quoted
import Mathlib.Algebra.Order.BigOperators.Group.List
import Mathlib.Algebra.Order.Group.Nat

/-! Binding, piece by piece.

Nothing that binding looks for begins in one piece and ends in another: fixed text has no brace, a
name ends in its quote, and a placeholder in its own brace. So binding the text of pieces is binding
each of them, and only the names are in question. Names that hold no placeholder stay as they are
(`bind_bound`); one that holds a placeholder never does (`bind_stray`). -/
namespace EntityQuery.Sql

/-! ### What binding is to return -/

/-- A piece with the dialect's placeholder in place of a numbered one. -/
def Piece.bound (d : Dialect) : Piece → List Char
  | .placeholder n => d.native n
  | p => p.write d

/-- The numbers of the parameters that a database takes, in its order: MySQL as the text has them,
the others as they were supplied. -/
def Dialect.taken (d : Dialect) (pieces : List Piece) (supplied : Nat) : List Nat :=
  match d with
  | .mysql => placeholders pieces
  | _ => List.range supplied

/-- The pieces of a text bound as they were written: each placeholder is the dialect's own, all
other text is left, and the values are those that the placeholders stand for. -/
structure Bound (d : Dialect) (pieces : List Piece) (params : List Value) (text : String)
    (values : List Value) : Prop where
  text : text = String.ofList (pieces.flatMap (Piece.bound d))
  values : values.map some =
    (d.taken pieces params.length).map fun n => params[n]?.map d.coerce

/-! ### Binding a text -/

/-- What stands in the bound text for a character or a parameter. -/
def written (d : Dialect) : Char ⊕ Nat → List Char
  | .inl c => [c]
  | .inr n => d.native n

def supplied (params : List Value) : Char ⊕ Nat → Option Value
  | .inl _ => none
  | .inr n => params[n]?

theorem bind_ok {d : Dialect} {sql text : String} {params values : List Value} :
    d.bind sql params = .ok (text, values) ↔ ∃ spans,
      (scan sql.toList).mapM (Span.resolve params.length) = .ok spans ∧
      text = String.ofList (spans.flatMap (written d)) ∧
      values = (match d with
        | .mysql => spans.filterMap (supplied params)
        | _ => params).map d.coerce := by
  simp only [Dialect.bind, Except.bind_eq_ok, Except.pure_eq_ok, Prod.mk.injEq]
  constructor
  · rintro ⟨spans, hspans, rfl, rfl⟩
    exact ⟨spans, hspans, rfl, rfl⟩
  · rintro ⟨spans, hspans, rfl, rfl⟩
    exact ⟨spans, hspans, rfl, rfl⟩

/-! ### Pieces -/

section Pieces
variable {d : Dialect} {pieces : List Piece} {params : List Value}

theorem write_placeholder (d : Dialect) (n : Nat) :
    (Piece.placeholder n).write d = '\x7b' :: (Nat.toDigits 10 n ++ '\x7d' :: []) := by
  simp [Piece.write, toString, Nat.toList_repr]

theorem scan_write_placeholder (d : Dialect) (n : Nat) :
    scan ((Piece.placeholder n).write d) = [.placeholder (Nat.toDigits 10 n)] := by
  rw [write_placeholder, scan_placeholder (numeral_toDigits n), scan_nil]

theorem Piece.Braceless.whole {p : Piece} (h : p.Braceless) : Whole (p.write d) := by
  cases p with
  | text t => exact whole_of_braceless h
  | name name => exact whole_quoteChars d name.toList
  | placeholder n =>
    rw [write_placeholder]
    refine whole_of_closed fun c hc => ?_
    rw [← List.cons_append, List.getLast?_concat] at hc
    obtain rfl := Option.some.inj hc
    decide

/-- The text of pieces is read piece by piece. -/
theorem scan_pieces (h : Braceless pieces) : scan (Piece.writeAll d pieces).toList =
    pieces.flatMap fun p => scan (p.write d) := by
  rw [Piece.writeAll, String.toList_ofList]
  exact scan_flatMap fun p hp => (h p hp).whole

/-- A piece as it is read: its characters, or its placeholder. -/
def Piece.spans (d : Dialect) : Piece → List (Char ⊕ Nat)
  | .placeholder n => [.inr n]
  | p => (p.write d).map .inl

theorem mapM_char (supplied : Nat) (cs : List Char) :
    (cs.map Span.char).mapM (Span.resolve supplied) = .ok (cs.map .inl) := by
  rw [Except.mapM_eq_ok, List.forall₂_map_left_iff, List.forall₂_map_right_iff, List.forall₂_same]
  exact fun _ _ => rfl

/-- A piece is read as what it is, unless it is a name with a placeholder. -/
theorem mapM_piece {p : Piece} {count : Nat} (h : p.Braceless)
    (hp : ∀ n, p = .placeholder n → n < count)
    (hn : ∀ name, p = .name name → ¬ HoldsPlaceholder name.toList) :
    (scan (p.write d)).mapM (Span.resolve count) = .ok (p.spans d) := by
  cases p with
  | text t =>
    rw [Piece.write, scan_of_no_placeholder (not_holdsPlaceholder h)]
    exact mapM_char ..
  | name name =>
    rw [Piece.write, scan_of_no_placeholder
      (mt (holdsPlaceholder_quoteChars d name.toList).1 (hn name rfl))]
    exact mapM_char ..
  | placeholder n =>
    rw [scan_write_placeholder, Except.mapM_eq_ok]
    refine .cons ?_ .nil
    simp only [Span.resolve, parameterIndex?_toDigits (hp n rfl)]

theorem mapM_flatMap {α β γ ε : Type} {f : α → List β} {g : α → List γ} {step : β → Except ε γ}
    {as : List α} (h : ∀ a ∈ as, (f a).mapM step = .ok (g a)) :
    (as.flatMap f).mapM step = .ok (as.flatMap g) := by
  induction as with
  | nil => rfl
  | cons a rest ih =>
    have ha := h a (List.mem_cons_self ..)
    have hrest := ih fun a ha => h a (List.mem_cons_of_mem _ ha)
    rw [Except.mapM_eq_ok] at ha hrest ⊢
    exact List.rel_append ha hrest

theorem written_spans (p : Piece) : (p.spans d).flatMap (written d) = p.bound d := by
  cases p <;> simp [Piece.spans, Piece.bound, written, List.flatMap_map]

/-- The parameters of what is read are those of the placeholders. -/
theorem supplied_spans (pieces : List Piece) :
    (pieces.flatMap (Piece.spans d)).filterMap (supplied params) =
      (placeholders pieces).filterMap (params[·]?) := by
  induction pieces with
  | nil => rfl
  | cons p rest ih =>
    rw [List.flatMap_cons, List.filterMap_append, ih]
    cases p with
    | text | name => simp [Piece.spans, supplied]
    | placeholder n =>
      rw [placeholders_placeholder, ← List.singleton_append, List.filterMap_append]
      rfl

theorem found_params {ns : List Nat} (h : ∀ n ∈ ns, n < params.length) :
    ((ns.filterMap (params[·]?)).map d.coerce).map some =
      ns.map fun n => params[n]?.map d.coerce := by
  induction ns with
  | nil => rfl
  | cons n rest ih =>
    have hn := List.getElem?_eq_getElem (h n (List.mem_cons_self ..))
    have hrest := ih fun n hn => h n (List.mem_cons_of_mem _ hn)
    rw [List.filterMap_cons_some hn, List.map_cons, List.map_cons, hrest, List.map_cons, hn]
    rfl

theorem all_params (d : Dialect) (params : List Value) : (params.map d.coerce).map some =
    (List.range params.length).map fun n => params[n]?.map d.coerce := by
  apply List.ext_getElem
  · simp
  · intro n h _
    have hn : n < params.length := by simpa using h
    simp [List.getElem?_eq_getElem hn]

/-- **Pieces are bound as they were written** when every placeholder has its parameter and no name
holds a placeholder. -/
theorem bind_bound (hb : Braceless pieces) (hp : ∀ n ∈ placeholders pieces, n < params.length)
    (hn : ∀ name, .name name ∈ pieces → ¬ HoldsPlaceholder name.toList) :
    ∃ text values, d.bind (Piece.writeAll d pieces) params = .ok (text, values) ∧
      Bound d pieces params text values := by
  have hspans : (scan (Piece.writeAll d pieces).toList).mapM (Span.resolve params.length) =
      .ok (pieces.flatMap (Piece.spans d)) := by
    rw [scan_pieces hb]
    refine mapM_flatMap fun p hmem => mapM_piece (hb p hmem) ?_ fun name heq => hn name (heq ▸ hmem)
    rintro n rfl
    exact hp n (List.mem_filterMap.2 ⟨_, hmem, rfl⟩)
  have htext : (pieces.flatMap (Piece.spans d)).flatMap (written d) =
      pieces.flatMap (Piece.bound d) := by
    rw [List.flatMap_assoc]
    simp only [written_spans]
  refine ⟨_, _, bind_ok.2 ⟨_, hspans, rfl, rfl⟩, by rw [htext], ?_⟩
  rw [supplied_spans]
  cases d with
  | mysql => exact found_params hp
  | postgresql | sqlite => exact all_params _ params

/-! ### Strays -/

theorem count_native (d : Dialect) (n : Nat) : (d.native n).count '\x7b' = 0 := by
  rw [List.count_eq_zero]
  cases d <;> simp [Dialect.native, toString, Nat.toList_repr, notMem_toDigits]

/-- Binding leaves the braces that it reads as characters, and makes none. -/
theorem count_written {count : Nat} {spans : List Span} {read : List (Char ⊕ Nat)}
    (h : spans.mapM (Span.resolve count) = .ok read) :
    (read.flatMap (written d)).count '\x7b' = spans.count (.char '\x7b') := by
  induction Except.mapM_eq_ok.1 h with
  | nil => rfl
  | @cons span piece spans read hspan hrest ih =>
    rw [List.flatMap_cons, List.count_append, ih (Except.mapM_eq_ok.2 hrest)]
    cases span with
    | char c =>
      obtain rfl := Except.ok.inj hspan
      rw [List.count_cons, Span.char_beq, written, List.count_singleton, Nat.add_comm]
    | placeholder digits =>
      simp only [Span.resolve] at hspan
      split at hspan
      · obtain rfl := Except.ok.inj hspan
        rw [written, count_native, List.count_cons_of_ne (by simp), Nat.zero_add]
      · exact absurd hspan (by simp)

/-- What is read of a piece has at most the braces that it is to have when bound. -/
theorem count_piece_le (p : Piece) :
    (scan (p.write d)).count (.char '\x7b') ≤ (p.bound d).count '\x7b' := by
  cases p with
  | text | name => exact count_scan_le _
  | placeholder n =>
    rw [scan_write_placeholder]
    exact Nat.zero_le _

/-- A name that holds a placeholder loses a brace, and nothing gets one. -/
theorem bind_stray (hb : Braceless pieces) {name : String} (hname : .name name ∈ pieces)
    (hstray : HoldsPlaceholder name.toList) {text : String} {values : List Value}
    (h : d.bind (Piece.writeAll d pieces) params = .ok (text, values)) :
    text ≠ String.ofList (pieces.flatMap (Piece.bound d)) := by
  obtain ⟨spans, hspans, rfl, -⟩ := bind_ok.1 h
  intro heq
  have hcount := congrArg (List.count '\x7b') (String.ofList_injective heq)
  rw [count_written hspans, scan_pieces hb, List.count_flatMap, List.count_flatMap] at hcount
  have hlt := count_scan_lt ((holdsPlaceholder_quoteChars d name.toList).2 hstray)
  exact absurd hcount (Nat.ne_of_lt
    (List.sum_lt_sum _ _ (fun p _ => count_piece_le p) ⟨_, hname, hlt⟩))

end Pieces

end EntityQuery.Sql
