import EntityQuery.Query.Paging
import Mathlib.Logic.ExistsUnique

/-! The arithmetic of pages.

Before the total is known the offset of a page may stand at the largest word. Once it is known the
page number is within range: the rows in front of the page are all those of the pages before it,
and there are rows behind them if there are any at all (`toNat_offset_resolve`,
`offset_resolve_lt`). The pages that there are divide the rows among them (`exists_page`), and
nothing of this depends on how large the numbers are (`resolve_exact`). -/
namespace EntityQuery.Paging

variable {size total : UInt64}

/-! ### Words as numbers -/

theorem toNat_pos {a : UInt64} (h : a ≠ 0) : 0 < a.toNat :=
  Nat.pos_of_ne_zero fun hzero => h (UInt64.toNat_inj.1 hzero)

theorem toNat_max (a b : UInt64) : (max a b).toNat = max a.toNat b.toNat := by
  show (if a ≤ b then b else a).toNat = _
  split <;> rename_i h <;> rw [UInt64.le_iff_toNat_le] at h <;> omega

theorem toNat_min (a b : UInt64) : (min a b).toNat = min a.toNat b.toNat := by
  show (if a ≤ b then a else b).toNat = _
  split <;> rename_i h <;> rw [UInt64.le_iff_toNat_le] at h <;> omega

theorem toNat_saturatingMul (a b : UInt64) :
    (saturatingMul a b).toNat = min (a.toNat * b.toNat) (UInt64.size - 1) := by
  have hlt : min (a.toNat * b.toNat) (UInt64.size - 1) < UInt64.size :=
    Nat.lt_of_le_of_lt (Nat.min_le_right ..) (by decide)
  rw [saturatingMul, UInt64.toNat_ofNat_of_lt' hlt]

/-! ### Pages -/

/-- The last page may be filled in part. -/
theorem toNat_pagesOf (hsize : size ≠ 0) (total : UInt64) : (pagesOf size total).toNat =
    total.toNat / size.toNat + if total.toNat % size.toNat = 0 then 0 else 1 := by
  have hpos : 0 < size.toNat := toNat_pos hsize
  have hrest : (total % size = 0) ↔ total.toNat % size.toNat = 0 := by
    rw [← UInt64.toNat_inj, UInt64.toNat_mod]
    rfl
  rw [pagesOf, if_neg hsize]
  by_cases hzero : total.toNat % size.toNat = 0
  · rw [if_pos (hrest.2 hzero), if_pos hzero, UInt64.add_zero, UInt64.toNat_div, Nat.add_zero]
  · -- With a rest there is more than one row to a page, and so room for one page more.
    have hlt := total.toNat_lt
    have htwo : 2 ≤ size.toNat := by
      refine Nat.lt_of_le_of_ne hpos fun hone => hzero ?_
      rw [← hone, Nat.mod_one]
    have hhalf : total.toNat / size.toNat ≤ total.toNat / 2 :=
      Nat.div_le_div_left htwo (by decide)
    rw [if_neg (mt hrest.1 hzero), if_neg hzero, UInt64.toNat_add, UInt64.toNat_div]
    refine Nat.mod_eq_of_lt ?_
    show total.toNat / size.toNat + 1 < 2 ^ 64
    omega

/-- All pages before the last are full, and there is something on the last. -/
theorem mul_pagesOf_lt (hsize : size ≠ 0) (htotal : total ≠ 0) :
    0 < (pagesOf size total).toNat ∧
      size.toNat * ((pagesOf size total).toNat - 1) < total.toNat := by
  have hpos : 0 < size.toNat := toNat_pos hsize
  have htotalpos : 0 < total.toNat := toNat_pos htotal
  have hsplit := Nat.div_add_mod total.toNat size.toNat
  rw [toNat_pagesOf hsize]
  by_cases hzero : total.toNat % size.toNat = 0
  · rw [if_pos hzero, Nat.add_zero]
    rw [hzero, Nat.add_zero] at hsplit
    cases hfull : total.toNat / size.toNat with
    | zero =>
      rw [hfull, Nat.mul_zero] at hsplit
      omega
    | succ k =>
      rw [hfull, Nat.mul_succ] at hsplit
      exact ⟨Nat.succ_pos k, by rw [Nat.add_sub_cancel]; omega⟩
  · rw [if_neg hzero, Nat.add_sub_cancel]
    exact ⟨Nat.succ_pos _, by omega⟩

/-! ### Pages within range -/

@[simp] theorem size_resolve (p : Paging) (total : UInt64) : (p.resolve total).size = p.size := rfl

@[simp] theorem total_resolve (p : Paging) (total : UInt64) :
    (p.resolve total).total = some total := rfl

theorem toNat_index_resolve (p : Paging) (total : UInt64) : (p.resolve total).index.toNat =
    max (min p.index.toNat (pagesOf p.size total).toNat) 1 := by
  rw [resolve, toNat_max, toNat_min]
  rfl

theorem one_le_index_resolve (p : Paging) (total : UInt64) :
    1 ≤ (p.resolve total).index.toNat := by
  rw [toNat_index_resolve]
  omega

/-- The pages before the resolved one hold fewer rows than there are. -/
theorem mul_index_resolve_lt (p : Paging) (hsize : p.size ≠ 0) (htotal : total ≠ 0) :
    p.size.toNat * ((p.resolve total).index.toNat - 1) < total.toNat := by
  obtain ⟨hpos, hlt⟩ := mul_pagesOf_lt hsize htotal
  refine Nat.lt_of_le_of_lt (Nat.mul_le_mul_left _ ?_) hlt
  rw [toNat_index_resolve]
  omega

theorem pagesOf_zero (size : UInt64) : pagesOf size 0 = 0 := by
  by_cases hsize : size = 0
  · rw [pagesOf, if_pos hsize, if_pos rfl]
  · rw [← UInt64.toNat_inj, toNat_pagesOf hsize]
    simp

/-- Without rows there is the first page. -/
theorem index_resolve_zero (p : Paging) : (p.resolve 0).index.toNat = 1 := by
  rw [toNat_index_resolve, pagesOf_zero, UInt64.toNat_zero]
  omega

theorem toNat_offset (p : Paging) : p.offset.toNat =
    min (p.size.toNat * (p.index.toNat - 1)) (UInt64.size - 1) := by
  have hone : (1 : UInt64).toNat = 1 := rfl
  have hfetched : (p.fetchedIndex - 1).toNat = p.index.toNat - 1 := by
    have hmax := toNat_max p.index 1
    have hle : 1 ≤ p.fetchedIndex := by
      rw [UInt64.le_iff_toNat_le, fetchedIndex]
      omega
    rw [UInt64.toNat_sub_of_le _ _ hle, fetchedIndex]
    omega
  rw [offset, toNat_saturatingMul, hfetched]

/-- **The rows in front of a page** within range are all those of the pages before it. -/
theorem toNat_offset_resolve (p : Paging) (total : UInt64) : (p.resolve total).offset.toNat =
    p.size.toNat * ((p.resolve total).index.toNat - 1) := by
  rw [toNat_offset, size_resolve]
  refine Nat.min_eq_left ?_
  by_cases hsize : p.size = 0
  · simp [hsize]
  · by_cases htotal : total = 0
    · simp [htotal, index_resolve_zero]
    · have hlt := mul_index_resolve_lt p hsize htotal
      have hword := total.toNat_lt_size
      omega

/-- Where there are rows, there are some behind those in front of the page. -/
theorem offset_resolve_lt (p : Paging) (hsize : p.size ≠ 0) (htotal : total ≠ 0) :
    (p.resolve total).offset.toNat < total.toNat := by
  rw [toNat_offset_resolve]
  exact mul_index_resolve_lt p hsize htotal

theorem offset_resolve_zero (p : Paging) : (p.resolve 0).offset = 0 := by
  rw [← UInt64.toNat_inj, toNat_offset_resolve, index_resolve_zero]
  rfl

theorem resolve_resolve (p : Paging) (total : UInt64) :
    (p.resolve total).resolve total = p.resolve total := by
  have hindex : ((p.resolve total).resolve total).index = (p.resolve total).index := by
    rw [← UInt64.toNat_inj, toNat_index_resolve, toNat_index_resolve, size_resolve]
    omega
  show ({p.resolve total with total := some total, index := _} : Paging) = p.resolve total
  exact congrArg (fun index => ({p.resolve total with index} : Paging)) hindex

/-- Who asks for a later page gets no earlier one. -/
theorem resolve_mono {p : Paging} {index : UInt64} (h : p.index ≤ index) (total : UInt64) :
    (p.resolve total).index ≤ (({p with index} : Paging).resolve total).index ∧
      (p.resolve total).offset ≤ (({p with index} : Paging).resolve total).offset := by
  have hindex : (p.resolve total).index.toNat ≤
      (({p with index} : Paging).resolve total).index.toNat := by
    rw [UInt64.le_iff_toNat_le] at h
    rw [toNat_index_resolve, toNat_index_resolve]
    show max (min p.index.toNat (pagesOf p.size total).toNat) 1 ≤
      max (min index.toNat (pagesOf p.size total).toNat) 1
    omega
  refine ⟨hindex, ?_⟩
  rw [UInt64.le_iff_toNat_le, toNat_offset_resolve, toNat_offset_resolve]
  apply Nat.mul_le_mul_left
  omega

/-! ### Rows and their pages -/

/-- The pages have room for all rows. -/
theorem le_mul_pagesOf (hsize : size ≠ 0) (total : UInt64) :
    total.toNat ≤ size.toNat * (pagesOf size total).toNat := by
  have hsplit := Nat.div_add_mod total.toNat size.toNat
  have hrest := Nat.mod_lt total.toNat (toNat_pos hsize)
  rw [toNat_pagesOf hsize, Nat.mul_add]
  split
  · omega
  · rw [Nat.mul_one]
    omega

/-- The offset of a page that there is stands below the largest word. -/
theorem toNat_offset_of_le {p : Paging} (hsize : p.size ≠ 0) (htotal : total ≠ 0)
    (h : p.index ≤ pagesOf p.size total) :
    p.offset.toNat = p.size.toNat * (p.index.toNat - 1) := by
  obtain ⟨-, hlast⟩ := mul_pagesOf_lt hsize htotal
  have hbefore : p.size.toNat * (p.index.toNat - 1) ≤
      p.size.toNat * ((pagesOf p.size total).toNat - 1) := by
    rw [UInt64.le_iff_toNat_le] at h
    apply Nat.mul_le_mul_left
    omega
  have hword := total.toNat_lt_size
  rw [toNat_offset]
  omega

/-- A row is on a page when it is not in front of it and fewer than a page's rows behind. -/
def Holds (p : Paging) (row : UInt64) : Prop := p.offset ≤ row ∧ row - p.offset < p.size

/-- The page of a row is found by division. -/
theorem holds_iff {p : Paging} {row : UInt64} (hsize : p.size ≠ 0) (hindex : 1 ≤ p.index)
    (hoffset : p.offset.toNat = p.size.toNat * (p.index.toNat - 1)) :
    p.Holds row ↔ p.index.toNat = row.toNat / p.size.toNat + 1 := by
  have hone : 1 ≤ p.index.toNat := hindex
  have hwithin : p.Holds row ↔ p.size.toNat * (p.index.toNat - 1) ≤ row.toNat ∧
      row.toNat < p.size.toNat * (p.index.toNat - 1) + p.size.toNat := by
    rw [← hoffset, Holds, UInt64.le_iff_toNat_le]
    refine and_congr_right fun hle => ?_
    rw [UInt64.lt_iff_toNat_lt, UInt64.toNat_sub_of_le _ _ (UInt64.le_iff_toNat_le.2 hle)]
    omega
  have hdiv := Nat.div_eq_iff (x := row.toNat) (y := p.index.toNat - 1) (toNat_pos hsize)
  rw [Nat.mul_comm] at hdiv
  have hpos := toNat_pos hsize
  rw [hwithin]
  omega

/-- **Every row is on exactly one page** of those that there are. -/
theorem exists_page (p : Paging) (hsize : p.size ≠ 0) {row : UInt64} (hrow : row < total) :
    ∃! page, (1 ≤ page ∧ page ≤ pagesOf p.size total) ∧
      ({p with index := page} : Paging).Holds row := by
  have hlt : row.toNat < total.toNat := hrow
  have htotal : total ≠ 0 := by
    intro hzero
    rw [hzero] at hlt
    exact absurd hlt (Nat.not_lt_zero _)
  have hholds {page : UInt64} (hfirst : 1 ≤ page) (hlast : page ≤ pagesOf p.size total) :
      ({p with index := page} : Paging).Holds row ↔
        page.toNat = row.toNat / p.size.toNat + 1 :=
    holds_iff hsize hfirst (toNat_offset_of_le hsize htotal hlast)
  -- The rows before the page of the row fill whole pages, which are fewer than all pages.
  have hpage : row.toNat / p.size.toNat + 1 ≤ (pagesOf p.size total).toNat := by
    apply Nat.div_lt_of_lt_mul
    exact Nat.lt_of_lt_of_le hlt (le_mul_pagesOf hsize total)
  have hword : row.toNat / p.size.toNat + 1 < UInt64.size :=
    Nat.lt_of_le_of_lt hpage (UInt64.toNat_lt_size _)
  have hnumber : (UInt64.ofNat (row.toNat / p.size.toNat + 1)).toNat =
      row.toNat / p.size.toNat + 1 := UInt64.toNat_ofNat_of_lt' hword
  have hfirst : 1 ≤ UInt64.ofNat (row.toNat / p.size.toNat + 1) := by
    rw [UInt64.le_iff_toNat_le, hnumber]
    exact Nat.le_add_left ..
  have hlast : UInt64.ofNat (row.toNat / p.size.toNat + 1) ≤ pagesOf p.size total := by
    rw [UInt64.le_iff_toNat_le, hnumber]
    exact hpage
  refine ⟨_, ⟨⟨hfirst, hlast⟩, (hholds hfirst hlast).2 hnumber⟩, fun page h => ?_⟩
  obtain ⟨⟨hfirst', hlast'⟩, hrow'⟩ := h
  rw [← UInt64.toNat_inj, hnumber]
  exact (hholds hfirst' hlast').1 hrow'

/-- What the numbers of a page are once the total is known, of `pages` pages in all. -/
structure Exact (p : Paging) (total pages : UInt64) : Prop where
  counted : (p.resolve total).pageCount = some pages
  /-- The page number is within range; the first page is there also without rows. -/
  first : 1 ≤ (p.resolve total).index
  last : (p.resolve total).index ≤ max 1 pages
  /-- The rows in front of the page are those of the pages before it, and the product fits. -/
  offset : (p.resolve total).offset.toNat =
    p.size.toNat * ((p.resolve total).index.toNat - 1)
  below : total ≠ 0 → (p.resolve total).offset < total
  empty : total = 0 → (p.resolve total).offset = 0
  again : (p.resolve total).resolve total = p.resolve total
  later : ∀ index, p.index ≤ index →
    (p.resolve total).index ≤ (({p with index} : Paging).resolve total).index ∧
      (p.resolve total).offset ≤ (({p with index} : Paging).resolve total).offset
  rows : p.size ≠ 0 → ∀ row < total, ∃! page, (1 ≤ page ∧ page ≤ pages) ∧
    ({p with index := page} : Paging).Holds row

/-- **Pages are exact over all words**: for every number, size and total the page that is fetched
is within range, its offset is the product, and the pages divide the rows among them. -/
theorem resolve_exact (p : Paging) (total : UInt64) : ∃ pages, p.Exact total pages := by
  refine ⟨pagesOf p.size total, ?_⟩
  have hoffset := toNat_offset_resolve p total
  exact {
    counted := rfl
    first := one_le_index_resolve p total
    last := by
      rw [UInt64.le_iff_toNat_le, toNat_index_resolve, toNat_max]
      show _ ≤ max 1 _
      omega
    offset := hoffset
    below := by
      intro htotal
      by_cases hsize : p.size = 0
      · rw [UInt64.lt_iff_toNat_lt, hoffset, hsize, UInt64.toNat_zero, Nat.zero_mul]
        exact toNat_pos htotal
      · exact p.offset_resolve_lt hsize htotal
    empty := by
      intro htotal
      rw [htotal]
      exact p.offset_resolve_zero
    again := resolve_resolve p total
    later := fun index h => resolve_mono h total
    rows := fun hsize row hrow => p.exists_page hsize hrow }

end EntityQuery.Paging
