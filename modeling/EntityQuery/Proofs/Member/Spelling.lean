import Mathlib.Data.List.Induction
import Mathlib.Data.List.TakeWhile
import EntityQuery.Member.Path
import EntityQuery.Proofs.Text.Lowering

/-! Spellings of names.

A path is read by its names, and these are found in the text wherever white space stands around
them and whether or not a function is applied to them: `named` undoes what writing names with dots
(`dotted`) and putting a function around (`call`) have done (`named_dotted`, `named_call`). A
function is found exactly where one is applied (`applied?_iff`), so a path without a parenthesis is
one of names alone. -/
namespace EntityQuery.Member

open Text (isBlank trim trimBack trimChars trimFront)

/-- The names of a path, without a function around it. -/
def named (path : String) : List String :=
  segments (match applied? path with
    | none => path
    | some (_, argument) => trim argument)

/-- Names with dots between them, each with the white space around it. -/
def dotted (parts : List String) : String := ".".intercalate parts

def call (function argument : String) : String := function ++ "(" ++ argument ++ ")"

/-! ### Dots -/

theorem splitAt_single {separator : Char} {part : List Char} (h : separator ∉ part) :
    splitAt separator part = [part] := by
  induction part with
  | nil => rfl
  | cons c rest ih =>
    rw [List.mem_cons, not_or] at h
    rw [splitAt, if_neg (Ne.symm h.1), ih h.2]

theorem splitAt_append {separator : Char} {part : List Char} (h : separator ∉ part)
    (rest : List Char) :
    splitAt separator (part ++ separator :: rest) = part :: splitAt separator rest := by
  induction part with
  | nil => rw [List.nil_append, splitAt, if_pos rfl]
  | cons c part ih =>
    rw [List.mem_cons, not_or] at h
    rw [List.cons_append, splitAt, if_neg (Ne.symm h.1), ih h.2]

theorem splitAt_ne_nil (separator : Char) (cs : List Char) : splitAt separator cs ≠ [] := by
  cases cs with
  | nil => simp [splitAt]
  | cons c rest =>
    rw [splitAt]
    split
    · simp
    · split <;> simp

theorem splitAt_join (separator : Char) (front rest : List Char) :
    splitAt separator (front ++ separator :: rest) =
      splitAt separator front ++ splitAt separator rest := by
  induction front with
  | nil => simp [splitAt]
  | cons c front ih =>
    rw [List.cons_append, splitAt, splitAt, ih]
    obtain ⟨part, parts, hparts⟩ := List.exists_cons_of_ne_nil (splitAt_ne_nil separator front)
    rw [hparts]
    split <;> rfl

theorem exists_mem_splitAt {separator c : Char} (hc : c ≠ separator) {cs : List Char} (h : c ∈ cs) :
    ∃ part ∈ splitAt separator cs, c ∈ part := by
  induction cs with
  | nil => exact absurd h List.not_mem_nil
  | cons d rest ih =>
    obtain ⟨part, parts, hparts⟩ := List.exists_cons_of_ne_nil (splitAt_ne_nil separator rest)
    rw [hparts] at ih
    rw [splitAt, hparts]
    rcases List.mem_cons.1 h with rfl | h
    · exact ⟨c :: part, by simp [hc], List.mem_cons_self ..⟩
    · obtain ⟨found, hfound, hmem⟩ := ih h
      split
      · exact ⟨found, List.mem_cons_of_mem _ hfound, hmem⟩
      · rcases List.mem_cons.1 hfound with rfl | hfound
        · exact ⟨d :: found, List.mem_cons_self .., List.mem_cons_of_mem _ hmem⟩
        · exact ⟨found, List.mem_cons_of_mem _ hfound, hmem⟩

theorem segments_ne_nil (path : String) : segments path ≠ [] := fun h =>
  splitAt_ne_nil _ _ (List.map_eq_nil_iff.1 h)

theorem segments_dotted {parts : List String} (hne : parts ≠ [])
    (hdots : ∀ part ∈ parts, '.' ∉ part.toList) : segments (dotted parts) = parts.map trim := by
  induction parts with
  | nil => exact absurd rfl hne
  | cons part rest ih =>
    have hpart := hdots part (List.mem_cons_self ..)
    cases rest with
    | nil => simp [segments, dotted, String.intercalate_singleton, splitAt_single hpart, trim]
    | cons next rest =>
      have hrest := ih (List.cons_ne_nil _ _) fun other h => hdots other (List.mem_cons_of_mem _ h)
      have htext : (dotted (part :: next :: rest)).toList =
          part.toList ++ '.' :: (dotted (next :: rest)).toList := by
        simp [dotted, String.intercalate_cons_of_ne_nil]
      rw [segments, htext, splitAt_append hpart, List.map_cons, List.map_cons, ← hrest]
      rfl

/-- A dot goes on to the next names. -/
theorem segments_join (front rest : String) :
    segments (front ++ "." ++ rest) = segments front ++ segments rest := by
  have htext : (front ++ "." ++ rest).toList = front.toList ++ '.' :: rest.toList := by simp
  rw [segments, htext, splitAt_join, List.map_append, segments, segments]

theorem segments_single {name : String} (h : '.' ∉ name.toList) : segments name = [trim name] := by
  rw [segments, splitAt_single h]
  rfl

/-! ### White space around a path -/

theorem trimChars_cons {c : Char} (h : isBlank c = true) (cs : List Char) :
    trimChars (c :: cs) = trimChars cs := by
  rw [trimChars, trimFront, List.dropWhile_cons_of_pos h]
  rfl

theorem trimBack_concat {c : Char} (h : isBlank c = true) (cs : List Char) :
    trimBack (cs ++ [c]) = trimBack cs := by
  rw [trimBack, trimFront, List.reverse_append, List.reverse_singleton, List.singleton_append,
    List.dropWhile_cons_of_pos h]
  rfl

theorem trimChars_concat {c : Char} (h : isBlank c = true) (cs : List Char) :
    trimChars (cs ++ [c]) = trimChars cs := by
  rw [trimChars, trimFront, List.dropWhile_append]
  split
  · next hblank =>
    rw [List.dropWhile_cons_of_pos h, trimChars, trimFront, List.isEmpty_iff.1 hblank]
    rfl
  · exact trimBack_concat h _

theorem not_isBlank_dot : isBlank '.' = false := by decide

/-- White space at the ends of a path stands around its first and its last name. -/
theorem splitAt_concat (separator : Char) {c : Char} (hc : c ≠ separator) (cs : List Char) :
    ∃ front last, splitAt separator cs = front ++ [last] ∧
      splitAt separator (cs ++ [c]) = front ++ [last ++ [c]] := by
  induction cs with
  | nil => exact ⟨[], [], rfl, by rw [List.nil_append, splitAt, if_neg hc]; rfl⟩
  | cons d rest ih =>
    obtain ⟨front, last, hrest, hrest'⟩ := ih
    rw [List.cons_append, splitAt, splitAt, hrest, hrest']
    by_cases hd : d = separator
    · exact ⟨[] :: front, last, by simp [hd], by simp [hd]⟩
    · cases front with
      | nil => exact ⟨[], d :: last, by simp [hd], by simp [hd]⟩
      | cons part front => exact ⟨(d :: part) :: front, last, by simp [hd], by simp [hd]⟩

theorem splitAt_trimFront (cs : List Char) :
    (splitAt '.' (trimFront cs)).map trimChars = (splitAt '.' cs).map trimChars := by
  induction cs with
  | nil => rfl
  | cons c rest ih =>
    by_cases hc : isBlank c = true
    · have hdot : c ≠ '.' := by
        rintro rfl
        simp [not_isBlank_dot] at hc
      rw [trimFront, List.dropWhile_cons_of_pos hc, splitAt, if_neg hdot]
      refine ih.trans ?_
      obtain ⟨part, parts, hparts⟩ := List.exists_cons_of_ne_nil (splitAt_ne_nil '.' rest)
      simp [hparts, trimChars_cons hc]
    · rw [trimFront, List.dropWhile_cons_of_neg hc]

theorem splitAt_trimBack (cs : List Char) :
    (splitAt '.' (trimBack cs)).map trimChars = (splitAt '.' cs).map trimChars := by
  induction cs using List.reverseRecOn with
  | nil => rfl
  | append_singleton rest c ih =>
    by_cases hc : isBlank c = true
    · have hdot : c ≠ '.' := by
        rintro rfl
        simp [not_isBlank_dot] at hc
      obtain ⟨front, last, hrest, hrest'⟩ := splitAt_concat '.' hdot rest
      rw [trimBack_concat hc, ih, hrest, hrest']
      simp [trimChars_concat hc]
    · have hsame : trimBack (rest ++ [c]) = rest ++ [c] := by
        simp [trimBack, trimFront, hc]
      rw [hsame]

/-- White space around a path means nothing. -/
theorem segments_trim (path : String) : segments (trim path) = segments path := by
  have hmap : ∀ parts : List (List Char), parts.map (fun part => String.ofList (trimChars part)) =
      (parts.map trimChars).map String.ofList := fun parts => by simp
  rw [segments, segments, trim, String.toList_ofList, trimChars, hmap, hmap, splitAt_trimBack,
    splitAt_trimFront]

/-! ### Characters of a path -/

theorem exists_trimFront (cs : List Char) :
    ∃ blank, (∀ c ∈ blank, isBlank c = true) ∧ cs = blank ++ trimFront cs :=
  ⟨cs.takeWhile isBlank, fun _ hc => List.mem_takeWhile_imp hc,
    List.takeWhile_append_dropWhile.symm⟩

theorem exists_trimBack (cs : List Char) :
    ∃ blank, (∀ c ∈ blank, isBlank c = true) ∧ cs = trimBack cs ++ blank := by
  obtain ⟨blank, hblank, hcs⟩ := exists_trimFront cs.reverse
  refine ⟨blank.reverse, by simpa using hblank, ?_⟩
  rw [trimBack, ← List.reverse_append, ← hcs, List.reverse_reverse]

/-- Trimming takes white space only. -/
theorem mem_trimChars_iff {c : Char} (h : isBlank c = false) (cs : List Char) :
    c ∈ trimChars cs ↔ c ∈ cs := by
  have hout : ∀ blank : List Char, (∀ c ∈ blank, isBlank c = true) → c ∉ blank :=
    fun blank hblank hc => Bool.false_ne_true (h.symm.trans (hblank c hc))
  obtain ⟨before, hbefore, hcs⟩ := exists_trimFront cs
  obtain ⟨after, hafter, hfront⟩ := exists_trimBack (trimFront cs)
  rw [trimChars]
  conv_rhs => rw [hcs, hfront]
  simp [hout before hbefore, hout after hafter]

theorem mem_trim_iff {c : Char} (h : isBlank c = false) (text : String) :
    c ∈ (trim text).toList ↔ c ∈ text.toList := by
  rw [trim, String.toList_ofList]
  exact mem_trimChars_iff h _

theorem not_isBlank_open : isBlank '(' = false := by decide

/-- A parenthesis of a path stands in one of its names. -/
theorem exists_open_segment {path : String} (h : '(' ∈ path.toList) :
    ∃ name ∈ segments path, '(' ∈ name.toList := by
  obtain ⟨part, hpart, hmem⟩ := exists_mem_splitAt (show '(' ≠ '.' by decide) h
  refine ⟨_, List.mem_map_of_mem hpart, ?_⟩
  rw [String.toList_ofList]
  exact (mem_trimChars_iff not_isBlank_open part).2 hmem

/-- Case does not touch parentheses. -/
theorem mem_fold_open {text : String} : '(' ∈ Text.fold text ↔ '(' ∈ text.toList := by
  have hopen : ∀ c : Char, (c.toLower == '(') = (c == '(') :=
    Text.toLower_invariant (f := (· == '(')) (by decide)
  rw [Text.fold, List.mem_map]
  constructor
  · rintro ⟨c, hc, hlower⟩
    have hsame := hopen c
    rw [hlower, beq_self_eq_true, eq_comm, beq_iff_eq] at hsame
    exact hsame ▸ hc
  · exact fun h => ⟨'(', h, rfl⟩

theorem isRowCount_eq_false {path : String} (h : '(' ∉ path.toList) : isRowCount path = false := by
  rw [isRowCount, beq_eq_false_iff_ne]
  intro hcount
  have hmem : '(' ∈ Text.fold (trim path) := by rw [hcount]; decide
  exact h ((mem_trim_iff not_isBlank_open path).1 (mem_fold_open.1 hmem))

/-! ### Functions -/

theorem applied?_eq_none {path : String} (h : '(' ∉ path.toList) : applied? path = none := by
  simp only [applied?]
  split
  · split
    · next rest hrest =>
      have hmem : '(' ∈ trimFront ((trimFront path.toList).dropWhile isWordChar) := by simp [hrest]
      exact absurd ((List.dropWhile_sublist _).subset ((List.dropWhile_sublist _).subset
        ((List.dropWhile_sublist _).subset hmem))) h
    · rfl
  · rfl

/-- Names with dots between them are the names of the path. -/
theorem named_dotted {parts : List String} (hne : parts ≠ [])
    (hdots : ∀ part ∈ parts, '.' ∉ part.toList) (hplain : '(' ∉ (dotted parts).toList) :
    named (dotted parts) = parts.map trim := by
  rw [named, applied?_eq_none hplain]
  exact segments_dotted hne hdots

/-- The text of a function: a letter or an underscore, and then letters, digits and underscores. -/
def IsWord (function : String) : Prop :=
  (function.toList.head?.map isWordStart).getD false = true ∧
    function.toList.all isWordChar = true

/-- The path is a function applied to a text on one line, with white space at its ends and before
the parenthesis that opens. -/
def Applies (path function argument : String) : Prop :=
  IsWord function ∧ argument ≠ "" ∧ '\n' ∉ argument.toList ∧ ∃ before between after : List Char,
    (∀ c ∈ before ++ between ++ after, isBlank c = true) ∧ path.toList =
      before ++ (function.toList ++ (between ++ '(' :: (argument.toList ++ ')' :: after)))

theorem not_isBlank_of_isWordChar {c : Char} (h : isWordChar c = true) : isBlank c = false := by
  rw [← Bool.not_eq_true]
  intro hblank
  simp only [isBlank, Text.Table.has, Text.blanks, List.any_cons, List.any_nil, Bool.or_eq_true,
    Bool.and_eq_true, decide_eq_true_eq, Bool.or_false] at hblank
  delta isWordChar Char.isAlphanum Char.isAlpha Char.isUpper Char.isLower Char.isDigit at h
  simp only [Bool.or_eq_true, Bool.and_eq_true, decide_eq_true_eq, ge_iff_le,
    UInt32.le_iff_toNat_le] at h
  rcases h with ((h | h) | h) | rfl
  · simp at h
    omega
  · simp at h
    omega
  · simp at h
    omega
  · simp at hblank

theorem isWordChar_of_isWordStart {c : Char} (h : isWordStart c = true) : isWordChar c = true := by
  rw [isWordStart, Bool.or_eq_true] at h
  rw [isWordChar, Char.isAlphanum, Bool.or_eq_true, Bool.or_eq_true]
  exact h.imp_left Or.inl

theorem not_isBlank_of_isWordStart {c : Char} (h : isWordStart c = true) : isBlank c = false :=
  not_isBlank_of_isWordChar (isWordChar_of_isWordStart h)

theorem trimFront_append {blank : List Char} (h : ∀ c ∈ blank, isBlank c = true) (cs : List Char) :
    trimFront (blank ++ cs) = trimFront cs :=
  List.dropWhile_append_of_pos h

theorem trimBack_append {blank : List Char} (h : ∀ c ∈ blank, isBlank c = true) (cs : List Char) :
    trimBack (cs ++ blank) = trimBack cs := by
  rw [trimBack, List.reverse_append, trimFront_append (by simpa using h), trimBack]

theorem argument?_iff {cs argument : List Char} : argument? cs = some argument ↔
    argument ≠ [] ∧ '\n' ∉ argument ∧ ∃ after, (∀ c ∈ after, isBlank c = true) ∧
      cs = argument ++ ')' :: after := by
  have hclose : isBlank ')' = false := by decide
  constructor
  · intro h
    obtain ⟨after, hafter, hcs⟩ := exists_trimBack cs
    simp only [argument?] at h
    split at h
    next hall =>
      simp only [Bool.and_eq_true, decide_eq_true_eq, Bool.not_eq_true', List.contains_eq_mem,
        decide_eq_false_iff_not] at hall
      obtain ⟨⟨hlast, hlength⟩, hline⟩ := hall
      obtain rfl := Option.some.inj h
      obtain ⟨body, hbody⟩ := List.getLast?_eq_some_iff.1 hlast
      rw [hbody] at hcs hline hlength ⊢
      rw [List.dropLast_concat] at hline ⊢
      refine ⟨fun hnil => ?_, hline, after, hafter, ?_⟩
      · simp [hnil] at hlength
      · rw [List.append_cons]
        exact hcs
    next => cases h
  · rintro ⟨hne, hline, after, hafter, rfl⟩
    have hback : trimBack (argument ++ ')' :: after) = argument ++ [')'] := by
      rw [List.append_cons, trimBack_append hafter]
      simp [trimBack, trimFront, hclose]
    simp [argument?, hback, hline, List.length_pos_iff.2 hne]

theorem IsWord.exists_cons {function : String} (h : IsWord function) :
    ∃ c rest, function.toList = c :: rest ∧ isWordStart c = true := by
  obtain ⟨hstart, -⟩ := h
  cases hlist : function.toList with
  | nil => simp [hlist] at hstart
  | cons c rest => exact ⟨c, rest, rfl, by simpa [hlist] using hstart⟩

theorem IsWord.ne_empty {function : String} (h : IsWord function) : function ≠ "" := by
  intro hempty
  exact absurd (hempty ▸ h.1) (by decide)

/-- What is found in the text of a path is written there. -/
theorem applies_of_applied? {path function argument : String}
    (h : applied? path = some (function, argument)) : Applies path function argument := by
  obtain ⟨before, hbefore, hpath⟩ := exists_trimFront path.toList
  obtain ⟨between, hbetween, hrest'⟩ :=
    exists_trimFront ((trimFront path.toList).dropWhile isWordChar)
  simp only [applied?] at h
  split at h
  next hstart =>
    split at h
    next rest hrest =>
      obtain ⟨cs, hcs, h⟩ := Option.map_eq_some_iff.1 h
      obtain ⟨rfl, rfl⟩ := Prod.mk.inj h
      obtain ⟨hne, hline, after, hafter, rfl⟩ := argument?_iff.1 hcs
      refine ⟨⟨?_, ?_⟩, by simpa using hne, by simpa using hline, before, between, after, ?_, ?_⟩
      · rw [String.toList_ofList]
        cases hcs : trimFront path.toList with
        | nil => simp [hcs] at hstart
        | cons c cs =>
          have hc : isWordStart c = true := by simpa [hcs] using hstart
          simpa [isWordChar_of_isWordStart hc] using hc
      · rw [String.toList_ofList]
        exact List.all_takeWhile
      · rw [List.forall_mem_append, List.forall_mem_append]
        exact ⟨⟨hbefore, hbetween⟩, hafter⟩
      · rw [String.toList_ofList, String.toList_ofList, ← hrest, ← hrest',
          List.takeWhile_append_dropWhile, ← hpath]
    next => cases h
  next => cases h

/-- Neither white space nor a parenthesis goes on with a word. -/
theorem span_word_open {between : List Char} (h : ∀ c ∈ between, isBlank c = true)
    (rest : List Char) : (between ++ '(' :: rest).takeWhile isWordChar = [] ∧
      (between ++ '(' :: rest).dropWhile isWordChar = between ++ '(' :: rest := by
  cases between with
  | nil => exact ⟨rfl, rfl⟩
  | cons c between =>
    have hc : isWordChar c = false := by
      rw [← Bool.not_eq_true]
      exact fun hword => by simp [not_isBlank_of_isWordChar hword] at h
    simp [hc]

/-- A function is found where it is written. -/
theorem Applies.applied?_eq {path function argument : String} (h : Applies path function argument) :
    applied? path = some (function, argument) := by
  obtain ⟨hfunction, hne, hline, before, between, after, hblank, hpath⟩ := h
  obtain ⟨⟨hbefore, hbetween⟩, hafter⟩ : (_ ∧ _) ∧ _ := by
    simpa only [List.forall_mem_append] using hblank
  obtain ⟨c, word, hcons, hstart⟩ := hfunction.exists_cons
  have hwords := List.all_eq_true.1 hfunction.2
  have hfront : trimFront path.toList =
      function.toList ++ (between ++ '(' :: (argument.toList ++ ')' :: after)) := by
    rw [hpath, trimFront_append hbefore, hcons]
    exact List.dropWhile_cons_of_neg (by simp [not_isBlank_of_isWordStart hstart])
  have hhead : ((trimFront path.toList).head?.map isWordStart).getD false = true := by
    simp [hfront, hcons, hstart]
  have hopen : trimFront (between ++ '(' :: (argument.toList ++ ')' :: after)) =
      '(' :: (argument.toList ++ ')' :: after) := by
    rw [trimFront_append hbetween]
    exact List.dropWhile_cons_of_neg (by decide)
  have hargument : argument? (argument.toList ++ ')' :: after) = some argument.toList :=
    argument?_iff.2 ⟨by simpa using hne, hline, after, hafter, rfl⟩
  obtain ⟨htake, hdrop⟩ := span_word_open hbetween (argument.toList ++ ')' :: after)
  simp only [applied?, hhead, if_true]
  rw [hfront, List.takeWhile_append_of_pos hwords, List.dropWhile_append_of_pos hwords, htake,
    hdrop, hopen]
  simp [hargument]

/-- A path is applied as it is written, in one way at most. -/
theorem applied?_iff {path function argument : String} :
    applied? path = some (function, argument) ↔ Applies path function argument :=
  ⟨applies_of_applied?, Applies.applied?_eq⟩

theorem applied?_call {function argument : String} (hfunction : IsWord function)
    (hne : argument ≠ "") (hline : '\n' ∉ argument.toList) :
    applied? (call function argument) = some (function, argument) :=
  Applies.applied?_eq ⟨hfunction, hne, hline, [], [], [], by simp, by simp [call]⟩

/-- A function around names changes nothing in the names. -/
theorem named_call {function : String} {parts : List String} (hfunction : IsWord function)
    (hne : parts ≠ []) (hdots : ∀ part ∈ parts, '.' ∉ part.toList) (htext : dotted parts ≠ "")
    (hline : '\n' ∉ (dotted parts).toList) :
    named (call function (dotted parts)) = parts.map trim := by
  rw [named, applied?_call hfunction htext hline]
  exact (segments_trim _).trans (segments_dotted hne hdots)

end EntityQuery.Member
