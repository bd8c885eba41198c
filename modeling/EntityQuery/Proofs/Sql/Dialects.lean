import EntityQuery.Proofs.Sql.Bound

/-! One text in three dialects.

Binding takes the leftmost placeholders of a text, one behind the other (`Leftmost`), and gives each
dialect its own in their place. MySQL's have no numbers, and it gets the values in the order of the
text; the others number theirs and get the values in the order of the parameters. Whichever way, the
same placeholder finds the same parameter, and where one has none every dialect refuses the text
with the same fault (`bound_alike`). -/
namespace EntityQuery.Sql

/-! ### The placeholders of a text -/

/-- The text begins with a placeholder. -/
def Opens (cs : List Char) : Prop :=
  ∃ digits behind, cs = '\x7b' :: (digits ++ '\x7d' :: behind) ∧ Numeral digits

/-- The leftmost placeholders of a text that do not overlap, with the characters around them. -/
inductive Leftmost : List Char → List Span → Prop where
  | nil : Leftmost [] []
  | char {c : Char} {rest : List Char} {spans : List Span} : ¬ Opens (c :: rest) →
    Leftmost rest spans → Leftmost (c :: rest) (.char c :: spans)
  | placeholder {digits behind : List Char} {spans : List Span} : Numeral digits →
    Leftmost behind spans →
    Leftmost ('\x7b' :: (digits ++ '\x7d' :: behind)) (.placeholder digits :: spans)

theorem not_opens_iff {c : Char} {rest : List Char} :
    ¬ Opens (c :: rest) ↔ (c = '\x7b' → placeholder? rest = none) := by
  rw [Option.eq_none_iff_forall_ne_some]
  constructor
  · intro h hc found hfound
    obtain ⟨hrest, hdigits⟩ := placeholder?_eq_some.1 hfound
    exact h ⟨found.1, found.2, by rw [hc, hrest], hdigits⟩
  · intro h ⟨digits, behind, heq, hdigits⟩
    obtain ⟨hc, hrest⟩ := List.cons.inj heq
    exact h hc (digits, behind) (placeholder?_eq_some.2 ⟨hrest, hdigits⟩)

/-- The scan finds these and no others. -/
theorem leftmost_iff {cs : List Char} {spans : List Span} :
    Leftmost cs spans ↔ scan cs = spans := by
  constructor
  · intro h
    induction h with
    | nil => rfl
    | char hopens _ ih => rw [scan_char (not_opens_iff.1 hopens), ih]
    | placeholder hdigits _ ih => rw [scan_placeholder hdigits, ih]
  · intro h
    rw [← h]
    clear h
    induction cs using scan_induction with
    | nil => exact .nil
    | char c rest hc ih =>
      rw [scan_char hc]
      exact .char (not_opens_iff.2 hc) ih
    | placeholder digits behind hdigits ih =>
      rw [scan_placeholder hdigits]
      exact .placeholder hdigits ih

/-- The digits of each placeholder. -/
def numerals (spans : List Span) : List (List Char) :=
  spans.filterMap fun span => match span with
    | .char _ => none
    | .placeholder digits => some digits

/-- The text with others in the place of its placeholders, in their order. -/
def fill : List Span → List (List Char) → List Char
  | [], _ => []
  | .char c :: rest, tokens => c :: fill rest tokens
  | .placeholder _ :: rest, token :: tokens => token ++ fill rest tokens
  | .placeholder _ :: rest, [] => fill rest []

/-- Digits denote a supplied parameter when they are ASCII digits that write its position. -/
def Denotes (supplied : Nat) (digits : List Char) (n : Nat) : Prop :=
  Text.readNat digits = some n ∧ n < supplied

theorem parameterIndex?_eq_some {supplied n : Nat} {digits : List Char} :
    parameterIndex? supplied digits = some n ↔ Denotes supplied digits n := by
  rw [parameterIndex?, Option.filter_eq_some_iff, decide_eq_true_eq]
  rfl

section Denotes
variable {supplied : Nat} {digits : List (List Char)} {ns : List Nat}

theorem denotes_lt (h : List.Forall₂ (Denotes supplied) digits ns) : ∀ n ∈ ns, n < supplied := by
  induction h with
  | nil => simp
  | cons hfirst _ ih => exact List.forall_mem_cons.2 ⟨hfirst.2, ih⟩

theorem exists_denoted (h : List.Forall₂ (Denotes supplied) digits ns) :
    ∀ written ∈ digits, ∃ n, Denotes supplied written n := by
  induction h with
  | nil => simp
  | cons hfirst _ ih => exact List.forall_mem_cons.2 ⟨⟨_, hfirst⟩, ih⟩

end Denotes

/-! ### What a dialect finds -/

/-- At its placeholder `token`, the one at position `k` of the text, the dialect finds `v` among the
values: by that position, or by the number written there, which counts from one. -/
def Dialect.Finds (d : Dialect) (values : List Value) (k : Nat) (token : List Char) (v : Value) :
    Prop :=
  match d with
  | .mysql => token = ['?'] ∧ values[k]? = some v
  | .postgresql => ∃ number n, token = '$' :: number ∧ Text.readNat number = some (n + 1) ∧
    values[n]? = some v
  | .sqlite => ∃ number n, token = '?' :: number ∧ Text.readNat number = some (n + 1) ∧
    values[n]? = some v

/-- The text has the dialect's placeholders in place of the old ones, and at the one at position `k`
the dialect finds its own form of the parameter at position `ns[k]`. -/
def Dialect.Refers (d : Dialect) (spans : List Span) (params : List Value) (ns : List Nat)
    (text : String) (values : List Value) : Prop :=
  ∃ tokens, text = String.ofList (fill spans tokens) ∧ tokens.length = ns.length ∧
    ∀ k n, ns[k]? = some n → ∃ token v, tokens[k]? = some token ∧ params[n]? = some v ∧
      d.Finds values k token (d.coerce v)

/-- What becomes of a text with these placeholders, in every dialect at once. -/
inductive BoundAlike (sql : String) (params : List Value) (spans : List Span) : Prop where
  /-- Every placeholder denotes a parameter, the same in all dialects. -/
  | bound (ns : List Nat) : List.Forall₂ (Denotes params.length) (numerals spans) ns →
    (∀ d : Dialect, ∃ text values, d.bind sql params = .ok (text, values) ∧
      d.Refers spans params ns text values) → BoundAlike sql params spans
  /-- The first placeholder that denotes none is the fault of all. -/
  | refused (before : List (List Char)) (digits : List Char) (after : List (List Char)) :
    numerals spans = before ++ digits :: after →
    (∀ earlier ∈ before, ∃ n, Denotes params.length earlier n) →
    (∀ n, ¬ Denotes params.length digits n) →
    (∀ d : Dialect, d.bind sql params =
      .error (.noParameter (String.ofList ('\x7b' :: digits ++ ['\x7d'])) params.length)) →
    BoundAlike sql params spans

section Read
variable {count : Nat} {spans : List Span} {read : List (Char ⊕ Nat)}

/-- The positions of the parameters in what was read. -/
def positions (read : List (Char ⊕ Nat)) : List Nat := read.filterMap Sum.getRight?

theorem resolve_placeholder {digits : List Char} {r : Char ⊕ Nat}
    (h : Span.resolve count (.placeholder digits) = .ok r) :
    ∃ n, r = .inr n ∧ Denotes count digits n := by
  simp only [Span.resolve] at h
  split at h
  · next n hn => exact ⟨n, (Except.ok.inj h).symm, parameterIndex?_eq_some.1 hn⟩
  · exact absurd h (by simp)

theorem refused_placeholder {digits : List Char} {fault : ResultFault}
    (h : Span.resolve count (.placeholder digits) = .error fault) :
    (∀ n, ¬ Denotes count digits n) ∧
      fault = .noParameter (String.ofList ('\x7b' :: digits ++ ['\x7d'])) count := by
  simp only [Span.resolve] at h
  split at h
  · exact absurd h (by simp)
  · next hnone =>
    refine ⟨fun n hn => ?_, (Except.error.inj h).symm⟩
    rw [parameterIndex?_eq_some.2 hn] at hnone
    exact absurd hnone (by simp)

theorem read_numerals (h : spans.mapM (Span.resolve count) = .ok read) :
    List.Forall₂ (Denotes count) (numerals spans) (positions read) := by
  induction Except.mapM_eq_ok.1 h with
  | nil => exact .nil
  | @cons span r spans read hspan hrest ih =>
    have hbelow := ih (Except.mapM_eq_ok.2 hrest)
    cases span with
    | char c =>
      obtain rfl := Except.ok.inj hspan
      exact hbelow
    | placeholder digits =>
      obtain ⟨n, rfl, hn⟩ := resolve_placeholder hspan
      exact .cons hn hbelow

theorem read_written (d : Dialect) (h : spans.mapM (Span.resolve count) = .ok read) :
    read.flatMap (written d) = fill spans ((positions read).map d.native) := by
  induction Except.mapM_eq_ok.1 h with
  | nil => rfl
  | @cons span r spans read hspan hrest ih =>
    have hbelow := ih (Except.mapM_eq_ok.2 hrest)
    cases span with
    | char c =>
      obtain rfl := Except.ok.inj hspan
      exact congrArg (c :: ·) hbelow
    | placeholder digits =>
      obtain ⟨n, rfl, -⟩ := resolve_placeholder hspan
      exact congrArg (d.native n ++ ·) hbelow

theorem supplied_positions (params : List Value) (read : List (Char ⊕ Nat)) :
    read.filterMap (supplied params) = (positions read).filterMap (params[·]?) := by
  rw [positions, List.filterMap_filterMap]
  congr 1
  funext r
  cases r <;> rfl

end Read

/-- The number in a placeholder that counts from one. -/
theorem readNat_native (n : Nat) : Text.readNat (toString (n + 1)).toList = some (n + 1) := by
  rw [toList_toString, readNat_toDigits]

/-- Each dialect finds at its placeholder the parameter that it was written for. -/
theorem finds_native (d : Dialect) {params : List Value} {ns : List Nat} {k n : Nat}
    (hall : ∀ n ∈ ns, n < params.length) (hk : ns[k]? = some n) (hn : n < params.length) :
    d.Finds ((match d with
      | .mysql => ns.filterMap (params[·]?)
      | _ => params).map d.coerce) k (d.native n) (d.coerce params[n]) := by
  have hparam := List.getElem?_eq_getElem hn
  cases d with
  | mysql =>
    refine ⟨rfl, ?_⟩
    have hvalues := congrArg (·[k]?) (found_params (d := .mysql) hall)
    simpa [hk, hparam] using hvalues
  | postgresql | sqlite =>
    exact ⟨_, n, rfl, readNat_native n, by simp [hparam]⟩

/-- **One text, one binding.** Of every text and all parameters: either each of the leftmost
placeholders denotes a parameter, the texts of all dialects differ in the placeholders only, and the
same placeholder finds the same parameter in each; or all dialects refuse it for the first
placeholder that denotes none. -/
theorem bound_alike (sql : String) (params : List Value) :
    ∃ spans, Leftmost sql.toList spans ∧ BoundAlike sql params spans := by
  refine ⟨scan sql.toList, leftmost_iff.2 rfl, ?_⟩
  cases hread : (scan sql.toList).mapM (Span.resolve params.length) with
  | ok read =>
    have hdenotes := read_numerals hread
    refine .bound (positions read) hdenotes fun d => ?_
    refine ⟨_, _, bind_ok.2 ⟨read, hread, rfl, rfl⟩, (positions read).map d.native, ?_, ?_, ?_⟩
    · rw [read_written d hread]
    · exact List.length_map _
    · intro k n hk
      have hlt := denotes_lt hdenotes n (List.mem_of_getElem? hk)
      refine ⟨d.native n, params[n], by simp [hk], List.getElem?_eq_getElem hlt, ?_⟩
      rw [supplied_positions]
      exact finds_native d (denotes_lt hdenotes) hk hlt
  | error fault =>
    obtain ⟨before, span, after, hspans, ⟨earlier, hearlier⟩, hspan⟩ := Except.mapM_error hread
    cases span with
    | char c => exact absurd hspan (by simp [Span.resolve])
    | placeholder digits =>
      obtain ⟨hnone, rfl⟩ := refused_placeholder hspan
      refine .refused (numerals before) digits (numerals after) ?_ ?_ hnone fun d => ?_
      · rw [hspans, numerals, List.filterMap_append]
        rfl
      · exact exists_denoted (read_numerals hearlier)
      · rw [Dialect.bind, hread]
        rfl

end EntityQuery.Sql
