import EntityQuery.JoinGraph.Naming
import EntityQuery.Proofs.JoinGraph.Tree
import Mathlib.Data.List.Basic
import Mathlib.Order.Nat

/-! No alias comes twice.

An alias is a letter and a number, and what tests for a match of a join has the alias of the join
with an X behind it: texts that all differ (`AliasKey.text_injective`). A supply counts what it
handed out, so between two of its states lie the aliases taken between them (`HandedOut`), and what
was taken before is none of those taken after. -/
namespace EntityQuery

/-! ### Texts -/

/-- What aliases are made of: roots, joins, and what tests for a match of a join. -/
inductive AliasKey where
  | table (n : Nat)
  | join (n : Nat)
  | probe (n : Nat)

def AliasKey.text : AliasKey → String
  | .table n => tableAlias n
  | .join n => joinAlias n
  | .probe n => joinAlias n ++ "X"

theorem toList_joinAlias (n : Nat) : (joinAlias n).toList = 'J' :: Nat.toDigits 10 n := by
  simp [joinAlias, toString, Nat.toList_repr]

theorem toList_tableAlias (n : Nat) :
    (tableAlias n).toList = 'T' :: if n = 0 then [] else Nat.toDigits 10 n := by
  unfold tableAlias
  split <;> simp [toString, Nat.toList_repr]

theorem toDigits_injective {m n : Nat} (h : Nat.toDigits 10 m = Nat.toDigits 10 n) : m = n := by
  rw [← Nat.ofDigitChars_ten_toDigits (n := m), h, Nat.ofDigitChars_ten_toDigits]

theorem toDigits_ne_nil (n : Nat) : Nat.toDigits 10 n ≠ [] := by
  have hpos := Nat.length_toDigits_pos (b := 10) (n := n)
  intro hnil
  simp [hnil] at hpos

theorem isDigit_of_mem_toDigits {n : Nat} {c : Char} (h : c ∈ Nat.toDigits 10 n) :
    c.isDigit = true :=
  Nat.isDigit_of_mem_toDigits (by decide) (by decide) h

theorem notMem_toDigits {c : Char} (h : c.isDigit = false) (n : Nat) : c ∉ Nat.toDigits 10 n :=
  fun hmem => by simp [isDigit_of_mem_toDigits hmem] at h

/-- No number ends with a letter. -/
theorem toDigits_ne_append (m n : Nat) : Nat.toDigits 10 m ≠ Nat.toDigits 10 n ++ ['X'] := by
  intro h
  have hmem : 'X' ∈ Nat.toDigits 10 m := by simp [h]
  exact notMem_toDigits (by decide) m hmem

/-- An alias is a letter and digits. -/
theorem notMem_tableAlias {c : Char} (hc : c ≠ 'T') (hdigit : c.isDigit = false) (n : Nat) :
    c ∉ (tableAlias n).toList := by
  rw [toList_tableAlias]
  split <;> simp [hc, notMem_toDigits hdigit]

theorem notMem_joinAlias {c : Char} (hc : c ≠ 'J') (hdigit : c.isDigit = false) (n : Nat) :
    c ∉ (joinAlias n).toList := by
  rw [toList_joinAlias]
  simp [hc, notMem_toDigits hdigit]

theorem AliasKey.text_injective {a b : AliasKey} (h : a.text = b.text) : a = b := by
  have hlist := congrArg String.toList h
  cases a with
  | table m =>
    cases b with
    | table n =>
      simp only [text, toList_tableAlias, List.cons.injEq, true_and] at hlist
      by_cases hm : m = 0
      · by_cases hn : n = 0
        · rw [hm, hn]
        · rw [if_pos hm, if_neg hn] at hlist
          exact absurd hlist.symm (toDigits_ne_nil n)
      · by_cases hn : n = 0
        · rw [if_neg hm, if_pos hn] at hlist
          exact absurd hlist (toDigits_ne_nil m)
        · rw [if_neg hm, if_neg hn] at hlist
          rw [toDigits_injective hlist]
    | join n => simp [text, toList_tableAlias, toList_joinAlias] at hlist
    | probe n => simp [text, toList_tableAlias, toList_joinAlias] at hlist
  | join m =>
    cases b with
    | table n => simp [text, toList_tableAlias, toList_joinAlias] at hlist
    | join n =>
      simp only [text, toList_joinAlias, List.cons.injEq, true_and] at hlist
      rw [toDigits_injective hlist]
    | probe n =>
      simp only [text, String.toList_append, toList_joinAlias, List.cons_append, List.cons.injEq,
        true_and] at hlist
      exact absurd hlist (toDigits_ne_append m n)
  | probe m =>
    cases b with
    | table n => simp [text, toList_tableAlias, toList_joinAlias] at hlist
    | join n =>
      simp only [text, String.toList_append, toList_joinAlias, List.cons_append, List.cons.injEq,
        true_and] at hlist
      exact absurd hlist.symm (toDigits_ne_append n m)
    | probe n =>
      simp only [text, String.toList_append, toList_joinAlias, List.cons_append, List.cons.injEq,
        true_and, List.append_left_inj] at hlist
      rw [toDigits_injective hlist]

theorem AliasKey.text_ne_empty (a : AliasKey) : a.text ≠ "" := by
  intro h
  have hlist := congrArg String.toList h
  cases a <;> simp [text, toList_tableAlias, toList_joinAlias] at hlist

/-! ### Supplies -/

instance : Preorder AliasSupply := Preorder.lift fun a => (a.tables, a.joins)

namespace AliasSupply

theorem le_iff {a b : AliasSupply} : a ≤ b ↔ a.tables ≤ b.tables ∧ a.joins ≤ b.joins := Iff.rfl

theorem le_freshTable (a : AliasSupply) : a ≤ a.freshTable.2 :=
  le_iff.2 ⟨Nat.le_succ _, Nat.le_refl _⟩

theorem le_assign (a : AliasSupply) (g : JoinGraph) : a ≤ (g.assign a).2 :=
  le_iff.2 ⟨Nat.le_succ _, Nat.le_add_right ..⟩

end AliasSupply

variable {a b b' c : AliasSupply} {name : String} {names : List String}

def AliasKey.Within (a b : AliasSupply) : AliasKey → Prop
  | .table n => a.tables ≤ n ∧ n < b.tables
  | .join n | .probe n => a.joins ≤ n ∧ n < b.joins

/-- An alias taken between two states of a supply. -/
def HandedOut (a b : AliasSupply) (name : String) : Prop :=
  ∃ key : AliasKey, key.Within a b ∧ key.text = name

/-- None of these is taken between two states of a supply. -/
def Clear (a b : AliasSupply) (names : List String) : Prop := ∀ name ∈ names, ¬ HandedOut a b name

namespace HandedOut

theorem ne_empty (h : HandedOut a b name) : name ≠ "" := by
  obtain ⟨key, -, rfl⟩ := h
  exact key.text_ne_empty

theorem mono (h : HandedOut b b' name) (hab : a ≤ b) (hbc : b' ≤ c) : HandedOut a c name := by
  obtain ⟨key, hwithin, htext⟩ := h
  rw [AliasSupply.le_iff] at hab hbc
  refine ⟨key, ?_, htext⟩
  cases key <;> simp only [AliasKey.Within] at hwithin ⊢ <;> omega

theorem not_later (h : HandedOut a b name) (hle : b ≤ b') : ¬ HandedOut b' c name := by
  rintro ⟨key', hwithin', htext'⟩
  obtain ⟨key, hwithin, htext⟩ := h
  obtain rfl := AliasKey.text_injective (htext.trans htext'.symm)
  rw [AliasSupply.le_iff] at hle
  cases key <;> simp only [AliasKey.Within] at hwithin hwithin' <;> omega

theorem freshTable (a : AliasSupply) : HandedOut a a.freshTable.2 (tableAlias a.tables) :=
  ⟨.table a.tables, ⟨Nat.le_refl _, Nat.lt_succ_self _⟩, rfl⟩

end HandedOut

namespace Clear

theorem nil : Clear a b [] := fun _ h => absurd h List.not_mem_nil

theorem mono (h : Clear a c names) (hab : a ≤ b) (hbc : b' ≤ c) : Clear b b' names :=
  fun name hname hout => h name hname (hout.mono hab hbc)

theorem append {more : List String} (h : Clear a b names) (h' : Clear a b more) :
    Clear a b (names ++ more) := fun name hname =>
  (List.mem_append.1 hname).elim (h name) (h' name)

/-- What was taken before is not taken after. -/
theorem ofEarlier (h : ∀ name ∈ names, HandedOut a b name) (hle : b ≤ b') : Clear b' c names :=
  fun name hname => (h name hname).not_later hle

/-- What is taken after was not taken before. -/
theorem ofLater (h : ∀ name ∈ names, HandedOut b' c name) (hle : b ≤ b') : Clear a b names :=
  fun name hname hout => hout.not_later hle (h name hname)

end Clear

/-! ### The aliases of a graph -/

namespace JoinGraph
variable {g : JoinGraph}

/-- The alias of a scope when the supply is in this state. -/
def aliasKey (g : JoinGraph) (a : AliasSupply) : Nat → AliasKey
  | 0 => .table a.tables
  | j + 1 => .join (a.joins + g.preorder.idxOf j)

theorem aliasName_assign (g : JoinGraph) (a : AliasSupply) (scope : Nat) :
    g.aliasName (g.assign a).1 scope = (g.aliasKey a scope).text := by
  cases scope <;> rfl

theorem Rooted.idxOf_lt (hg : g.Rooted) {j : Nat} (hj : j < g.joins.length) :
    g.preorder.idxOf j < g.joins.length :=
  Nat.lt_of_lt_of_le (List.idxOf_lt_length_of_mem (hg.mem_preorder.2 hj)) hg.length_preorder_le

theorem Rooted.aliasName_handedOut (hg : g.Rooted) (a : AliasSupply) {scope : Nat}
    (hs : scope ≤ g.joins.length) :
    HandedOut a (g.assign a).2 (g.aliasName (g.assign a).1 scope) := by
  refine ⟨g.aliasKey a scope, ?_, (aliasName_assign g a scope).symm⟩
  cases scope with
  | zero => exact ⟨Nat.le_refl _, Nat.lt_succ_self _⟩
  | succ j => exact ⟨Nat.le_add_right .., Nat.add_lt_add_left (hg.idxOf_lt hs) _⟩

/-- Different scopes have different aliases. -/
theorem Rooted.aliasName_injective (hg : g.Rooted) (a : AliasSupply) {i j : Nat}
    (hi : i ≤ g.joins.length) (hj : j ≤ g.joins.length)
    (h : g.aliasName (g.assign a).1 i = g.aliasName (g.assign a).1 j) : i = j := by
  rw [aliasName_assign, aliasName_assign] at h
  have hkey := AliasKey.text_injective h
  cases i with
  | zero =>
    cases j with
    | zero => rfl
    | succ j => simp [aliasKey] at hkey
  | succ i =>
    cases j with
    | zero => simp [aliasKey] at hkey
    | succ j =>
      simp only [aliasKey, AliasKey.join.injEq, Nat.add_left_cancel_iff] at hkey
      rw [(List.idxOf_inj (hg.mem_preorder.2 hi)).1 hkey]

/-- What tests for a match of a join has an alias of its own. -/
theorem Rooted.probe_handedOut (hg : g.Rooted) (a : AliasSupply) {j : Nat}
    (hj : j < g.joins.length) :
    HandedOut a (g.assign a).2 (g.aliasName (g.assign a).1 (j + 1) ++ "X") :=
  ⟨.probe (a.joins + g.preorder.idxOf j),
    ⟨Nat.le_add_right .., Nat.add_lt_add_left (hg.idxOf_lt hj) _⟩, rfl⟩

theorem aliasName_ne_probe (g : JoinGraph) (a : AliasSupply) (scope j : Nat) :
    g.aliasName (g.assign a).1 scope ≠ g.aliasName (g.assign a).1 (j + 1) ++ "X" := by
  rw [aliasName_assign]
  intro h
  have hkey : g.aliasKey a scope = .probe (a.joins + g.preorder.idxOf j) :=
    AliasKey.text_injective h
  cases scope <;> simp [aliasKey] at hkey

end JoinGraph
end EntityQuery
