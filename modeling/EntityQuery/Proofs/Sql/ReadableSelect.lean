import EntityQuery.Proofs.Sql.Readable

/-! Selects are read back from their text.

Each clause of a select opens with a keyword of its own, and what is read in front of it ends there.
So a select is read back when its clauses are, with or without those that may be left out. -/
namespace EntityQuery.Sql

open Member (IsWord)
open Reader

variable {d : Dialect} {depth : Nat} {rest : List Char}

/-! ### Sources -/

theorem tableName_read (t : TableName) (hrest : Follows [" "] rest) :
    tableName d (chars d t.pieces ++ rest) = some (t, rest) := by
  have hquote : rest.head?.all (· != d.quote) = true := by cases d <;> exact hrest.head (by decide)
  obtain ⟨_ | schema, name⟩ := t
  · have hname := name_quoteChars d name hquote
    simp only [TableName.pieces, chars_name, chars_nil, List.append_nil]
    rw [tableName, bind_of hname, bind_of (behind_of_follows (by decide) hrest)]
    rfl
  · have hdot : (".".toList ++ (d.quoteChars name.toList ++ rest)).head?.all (· != d.quote) =
        true := by cases d <;> exact head_text (by decide) _
    simp only [TableName.pieces, chars_name, chars_text, chars_nil, List.append_nil,
      List.append_assoc]
    rw [tableName, bind_of (name_quoteChars d schema hdot),
      bind_of (behind_text (name_quoteChars d name hquote))]
    rfl

theorem readsSource_table (t : TableName) {table : String} (h : IsWord table) :
    ReadsSource d (.table t (some table)) := by
  intro depth rest _ hrest
  have hchars : chars d ((Source.table t (some table)).pieces d) =
      chars d t.pieces ++ (" ".toList ++ table.toList) := by
    simp only [Source.pieces, chars_append, chars_text, chars_nil, List.append_nil, toString,
      String.toList_append]
  have hquote : (chars d t.pieces ++ (" ".toList ++ (table.toList ++ rest))).head? =
      some d.quote := by
    obtain ⟨_ | schema, name⟩ := t <;> rfl
  have hopen : some d.quote ≠ some '(' := by cases d <;> decide
  show source d _ _ = _
  rw [hchars]
  simp only [List.append_assoc]
  rw [source, next_bind, if_neg (by rw [hquote]; exact hopen),
    bind_of (tableName_read t (follows_text (List.mem_singleton_self _) _)), bind_of (skip_text ..),
    bind_of (word_append h (word_sourceEnds hrest))]
  rfl

theorem readsSource_derived {s : Select} (hs : ReadsSelect d s) {table : String}
    (h : IsWord table) : ReadsSource d (.derived s table) := by
  intro depth rest hdepth hrest
  have hchars : chars d ((Source.derived s table).pieces d) =
      "(".toList ++ (chars d (s.pieces d) ++ (") ".toList ++ table.toList)) := by
    simp [Source.pieces, toString]
  have hends : Follows selectEnds (") ".toList ++ (table.toList ++ rest)) :=
    .inr ⟨")", List.mem_cons_self .., by simp⟩
  rw [hchars] at hdepth
  have hselect := hs.inner depth (by simp at hdepth; omega) hends
  show source d _ _ = _
  rw [hchars]
  simp only [List.append_assoc]
  rw [source, next_bind, if_pos (by simp), bind_of (skip_text ..), bind_of hselect,
    bind_of (skip_text ..), bind_of (word_append h (word_sourceEnds hrest))]
  rfl

/-! ### Clauses -/

/-- A clause that may be left out is found by its opening. -/
theorem clause_read {α : Type} {opening : String} {r : Reader α} {value : Option α}
    {write : α → List Piece} {ends : List String} (hfree : Free [(opening, ())] ends)
    (hread : ∀ a, value = some a → r (chars d (write a) ++ rest) = some (a, rest))
    (hrest : Follows ends rest) :
    behind opening r (chars d (clause opening (value.map write)) ++ rest) = some (value, rest) ∧
      Follows (opening :: ends) (chars d (clause opening (value.map write)) ++ rest) := by
  cases value with
  | none => exact ⟨behind_of_follows hfree hrest, hrest.mono (List.subset_cons_self ..)⟩
  | some a =>
    simp only [Option.map_some, clause, chars_text, List.append_assoc]
    exact ⟨behind_text (hread a rfl), follows_text (List.mem_cons_self ..) _⟩

theorem item_read {e : Expr} (h : ReadsTerm d e) (name : Option String) (depth : Nat)
    (hdepth : (chars d ((Item.expr e name).pieces d)).length ≤ depth)
    (hrest : Follows [" FROM "] rest) :
    item d (.ofDepth d depth) (chars d ((Item.expr e name).pieces d) ++ rest) =
      some (.expr e name, rest) := by
  cases name with
  | none =>
    show item d _ (chars d (e.pieces d) ++ rest) = _
    rw [item, bind_of (h depth rest hdepth (hrest.mono (by decide))),
      bind_of (behind_of_follows (by decide) hrest)]
    rfl
  | some name =>
    have hquote : rest.head?.all (· != d.quote) = true := by
      cases d <;> exact hrest.head (by decide)
    simp only [Item.pieces, chars_append, chars_text, chars_name, chars_nil, List.append_nil,
      List.append_assoc, List.length_append] at hdepth ⊢
    rw [item, bind_of (h depth _ (by omega) (follows_text (by decide) _)),
      bind_of (behind_text (name_quoteChars d name hquote))]
    rfl

theorem join_read {j : Join} (hsource : ReadsSource d j.source) (hon : Readable d j.on)
    (hdepth : (chars d (j.pieces d)).length ≤ depth) (hrest : Follows conditionEnds rest) :
    join d (.ofDepth d depth) ((" ".toList ++ chars d (j.pieces d)) ++ rest) = some (j, rest) := by
  obtain ⟨kind, source, on⟩ := j
  have hchars : " ".toList ++ chars d (Join.pieces d ⟨kind, source, on⟩) =
      (" " ++ joinText kind).toList ++
        (chars d (source.pieces d) ++ (" ON ".toList ++ chars d (on.pieces d))) := by
    simp [Join.pieces]
  have hlength := congrArg List.length hchars
  simp at hlength
  have hinner : (chars d (source.pieces d)).length ≤ depth ∧
      (chars d (on.pieces d)).length < depth := by omega
  rw [hchars]
  simp only [List.append_assoc]
  rw [join, bind_of (choose_joinKind ..)]
  show (Reader.source d _ >>= _) _ = _
  rw [bind_of (hsource depth _ hinner.1 (follows_text (List.mem_cons_self ..) _)),
    bind_of (skip_text ..), bind_of (hon.inner depth hinner.2 hrest)]
  rfl

theorem order_read {o : OrderBy} (h : ReadsTerm d o.expr)
    (hdepth : (chars d (o.pieces d)).length ≤ depth) (rest : List Char) :
    order d (.ofDepth d depth) (chars d (o.pieces d) ++ rest) = some (o, rest) := by
  obtain ⟨e, direction⟩ := o
  have hchars : chars d (OrderBy.pieces d ⟨e, direction⟩) =
      chars d (e.pieces d) ++ (directionText direction).toList := by
    simp [OrderBy.pieces]
  rw [hchars, List.length_append] at hdepth
  have hinner : (chars d (e.pieces d)).length ≤ depth := by omega
  have hends : directionText direction ∈ termEnds := by cases direction <;> decide
  rw [hchars, List.append_assoc, order, bind_of (h depth _ hinner (follows_text hends _)),
    bind_of (choose_direction ..)]
  rfl

/-- The numbers of a page as they are written behind LIMIT. -/
def limitNumbers (d : Dialect) (l : Limit) : List Piece :=
  match d with
  | .mysql => [.text (toString l.offset.toNat), .text ", ", .text (toString l.count.toNat)]
  | _ => [.text (toString l.count.toNat), .text " OFFSET ", .text (toString l.offset.toNat)]

theorem chars_limit (l : Option Limit) :
    chars d (clause " " (l.map (Limit.pieces d))) =
      chars d (clause " LIMIT " (l.map (limitNumbers d))) := by
  cases l with
  | none => rfl
  | some l => cases d <;> simp [clause, Limit.pieces, limitNumbers, toString]

theorem limit_read (l : Limit) (hrest : Follows selectEnds rest) :
    limit d (chars d (limitNumbers d l) ++ rest) = some (l, rest) := by
  have hdigit : rest.head?.all (fun c => !c.isDigit) = true := hrest.head (by decide)
  cases d with
  | mysql =>
    simp only [limitNumbers, chars_text, chars_nil, List.append_nil, List.append_assoc]
    rw [limit, bind_of (number_toString _ (head_text (by decide) _)), bind_of (skip_text ..),
      bind_of (number_toString _ hdigit), UInt64.ofNat_toNat, UInt64.ofNat_toNat]
    rfl
  | postgresql | sqlite =>
    simp only [limitNumbers, chars_text, chars_nil, List.append_nil, List.append_assoc]
    rw [limit, bind_of (number_toString _ (head_text (by decide) _)), bind_of (skip_text ..),
      bind_of (number_toString _ hdigit), UInt64.ofNat_toNat, UInt64.ofNat_toNat]
    · rfl
    · simp

theorem orders_read {os : List OrderBy} (h : ∀ o ∈ os, ReadsTerm d o.expr) (depth : Nat)
    (hdepth : (chars d (listClause " ORDER BY " (OrderBy.allPieces d os))).length ≤ depth)
    (hrest : Follows orderEnds rest) :
    ∃ read, behind " ORDER BY " (separated ", " (order d (.ofDepth d depth)))
        (chars d (listClause " ORDER BY " (OrderBy.allPieces d os)) ++ rest) = some (read, rest) ∧
      read.getD [] = os ∧
      Follows filterEnds (chars d (listClause " ORDER BY " (OrderBy.allPieces d os)) ++ rest) := by
  cases os with
  | nil =>
    exact ⟨none, behind_of_follows (by decide) hrest, rfl, hrest.mono (List.subset_cons_self ..)⟩
  | cons o os =>
    have hchars : chars d (listClause " ORDER BY " (OrderBy.allPieces d (o :: os))) =
        " ORDER BY ".toList ++ (chars d (o.pieces d) ++
          os.flatMap fun other => ", ".toList ++ chars d (other.pieces d)) := by
      show chars d (.text " ORDER BY " :: Piece.separated ", " (OrderBy.allPieces d (o :: os))) =
        _
      rw [chars_text, OrderBy.allPieces_eq_map, List.map_cons, chars_separated, List.flatMap_map]
    rw [hchars, List.length_append, List.length_append] at hdepth
    have hfree : Free [(", ", ())] orderEnds := by decide
    rw [hchars, List.append_assoc, List.append_assoc]
    refine ⟨some (o :: os), ?_, rfl, follows_text (List.mem_cons_self ..) _⟩
    apply behind_text
    apply separated_of (fun o : OrderBy => chars d (o.pieces d)) hfree _ hrest
    intro other hother more _
    apply order_read (h other hother) _ more
    rcases List.mem_cons.1 hother with rfl | hmem
    · exact Nat.le_trans (by omega) hdepth
    · have hlength := length_le_of_mem
        (fun o : OrderBy => ", ".toList ++ chars d (o.pieces d)) hmem
      rw [List.length_append] at hlength
      exact Nat.le_trans (by omega) hdepth

/-- The source of a select, its joins and its filter are read back, and it has no groups. -/
structure Select.Framed (d : Dialect) (s : Select) : Prop where
  source : ReadsSource d s.source
  joins : ∀ j ∈ s.joins, ReadsSource d j.source ∧ Readable d j.on
  filter : ∀ e, s.filter = some e → Readable d e
  groupBy : s.groupBy = []
  having : s.having = none

/-- The select shows one expression, and all its clauses are read back. -/
structure Select.Shown (d : Dialect) (s : Select) : Prop extends s.Framed d where
  item : ∃ e name, s.items = [.expr e name] ∧ ReadsTerm d e
  orderBy : ∀ o ∈ s.orderBy, ReadsTerm d o.expr

/-- A source with nothing behind it. -/
theorem Select.Framed.ofSource {source : Source} (h : ReadsSource d source) :
    (Select.of source).Framed d where
  source := h
  joins j hj := absurd hj List.not_mem_nil
  filter e he := absurd he (by simp [Select.of])
  groupBy := rfl
  having := rfl

theorem joins_read {js : List Join} (h : ∀ j ∈ js, ReadsSource d j.source ∧ Readable d j.on)
    (depth : Nat)
    (hdepth : (chars d (Join.allPieces d js)).length ≤ depth) (hrest : Follows joinEnds rest) :
    many (join d (.ofDepth d depth)) (chars d (Join.allPieces d js) ++ rest) = some (js, rest) ∧
      Follows conditionEnds (chars d (Join.allPieces d js) ++ rest) := by
  have hchars : chars d (Join.allPieces d js) =
      js.flatMap fun j => " ".toList ++ chars d (j.pieces d) := by
    clear h hdepth
    induction js with
    | nil => rfl
    | cons j js ih =>
      rw [Join.allPieces, chars_text, chars_append, ih, List.flatMap_cons, List.append_assoc]
  have hends : Follows conditionEnds rest := hrest.mono (by decide)
  have hstart (j : Join) (more : List Char) :
      Follows conditionEnds ((" ".toList ++ chars d (j.pieces d)) ++ more) := by
    obtain ⟨kind, source, on⟩ := j
    have hkind : " " ++ joinText kind ∈ conditionEnds := by cases kind <;> decide
    have htext : (" ".toList ++ chars d (Join.pieces d ⟨kind, source, on⟩)) ++ more =
        (" " ++ joinText kind).toList ++ (chars d (source.pieces d ++ [.text " ON "] ++
          on.pieces d) ++ more) := by
      simp [Join.pieces]
    rw [htext]
    exact follows_text hkind _
  rw [hchars] at hdepth ⊢
  constructor
  · apply many_of (fun j : Join => " ".toList ++ chars d (j.pieces d)) _ _ hends
    · have hfree : Free joinKinds joinEnds := by decide
      show (choose joinKinds rest).bind _ = none
      rw [choose_of_follows hfree hrest]
      rfl
    · intro j hj more hmore
      have hlength := length_le_of_mem (fun j : Join => " ".toList ++ chars d (j.pieces d)) hj
      rw [List.length_append] at hlength
      exact join_read (h j hj).1 (h j hj).2 (by omega) hmore
    · exact fun j _ => ⟨by simp, hstart j⟩
  · cases js with
    | nil => exact hends
    | cons j js =>
      rw [List.flatMap_cons, List.append_assoc]
      exact hstart j _

theorem filter_read {filter : Option Expr} (h : ∀ e, filter = some e → Readable d e) (depth : Nat)
    (hdepth : (chars d (clause " WHERE " (filter.map (Expr.pieces d)))).length ≤ depth)
    (hrest : Follows filterEnds rest) :
    behind " WHERE " (Readers.ofDepth d depth).condition
        (chars d (clause " WHERE " (filter.map (Expr.pieces d))) ++ rest) = some (filter, rest) ∧
      Follows joinEnds (chars d (clause " WHERE " (filter.map (Expr.pieces d))) ++ rest) := by
  apply clause_read (by decide) _ hrest
  intro e he
  apply (h e he).inner depth _ (hrest.mono (by decide))
  simp [he, clause] at hdepth
  omega

theorem page_read (l : Option Limit) (hrest : Follows selectEnds rest) :
    behind " LIMIT " (limit d) (chars d (clause " LIMIT " (l.map (limitNumbers d))) ++ rest) =
        some (l, rest) ∧
      Follows orderEnds (chars d (clause " LIMIT " (l.map (limitNumbers d))) ++ rest) :=
  clause_read (by decide) (fun page _ => limit_read page hrest) hrest

theorem chars_select (e : Expr) (name : Option String) (source : Source) (joins : List Join)
    (filter : Option Expr) (orderBy : List OrderBy) (limit : Option Limit) :
    chars d (Select.pieces d
      ⟨[.expr e name], source, joins, filter, [], none, orderBy, limit⟩) =
      "SELECT ".toList ++ (chars d ((Item.expr e name).pieces d) ++ (" FROM ".toList ++
        (chars d (source.pieces d) ++ (chars d (Join.allPieces d joins) ++
          (chars d (clause " WHERE " (filter.map (Expr.pieces d))) ++
            (chars d (listClause " ORDER BY " (OrderBy.allPieces d orderBy)) ++
              chars d (clause " LIMIT " (limit.map (limitNumbers d))))))))) := by
  rw [← chars_limit, ← Expr.optionPieces_eq_map]
  simp [Select.pieces, Item.allPieces, Piece.separated, Expr.allPieces, Expr.optionPieces, clause,
    listClause]

/-- A select is read back when its clauses are. -/
theorem Select.Shown.reads {s : Select} (h : s.Shown d) : ReadsSelect d s := by
  obtain ⟨items, source, joins, filter, groupBy, having, orderBy, limit⟩ := s
  obtain ⟨⟨hsource, hjoins, hfilter, rfl, rfl⟩, ⟨e, name, rfl, he⟩, horderBy⟩ := h
  dsimp only at hsource hjoins hfilter horderBy
  intro depth rest hdepth hrest
  rw [chars_select] at hdepth
  simp only [List.length_append] at hdepth
  show select d _ _ = _
  rw [chars_select]
  simp only [List.append_assoc]
  -- From the last clause to the first: what is read in front of a clause ends where that begins.
  obtain ⟨hpage, hends⟩ := page_read (d := d) limit hrest
  generalize chars d (clause " LIMIT " _) ++ rest = page at hpage hends ⊢
  obtain ⟨orders, horders, rfl, hends⟩ := orders_read horderBy depth (by omega) hends
  generalize chars d (listClause " ORDER BY " _) ++ page = order at horders hends ⊢
  obtain ⟨hfilter, hends⟩ := filter_read hfilter depth (by omega) hends
  generalize chars d (clause " WHERE " _) ++ order = condition at hfilter hends ⊢
  obtain ⟨hjoins, hends⟩ := joins_read hjoins depth (by omega) hends
  generalize chars d (Join.allPieces d joins) ++ condition = joined at hjoins hends ⊢
  have hsource := hsource depth joined (by omega) (hends.mono (List.subset_cons_self ..))
  have hitem := item_read he name depth (by omega)
    (follows_text (List.mem_singleton_self " FROM ") (chars d (source.pieces d) ++ joined))
  rw [select, bind_of (skip_text ..), bind_of hitem, bind_of (skip_text ..), bind_of hsource,
    bind_of hjoins, bind_of hfilter, bind_of horders, bind_of hpage]
  rfl

end EntityQuery.Sql
