import Mathlib.Data.List.Forall2
import Mathlib.Data.List.Nodup

/-! Chains of steps that may fail.

A chain that ended well is opened into the steps it is made of. -/
namespace EntityQuery

@[simp] theorem Except.bind_eq_ok {α β ε : Type} {x : Except ε α} {f : α → Except ε β} {b : β} :
    (x >>= f) = .ok b ↔ ∃ a, x = .ok a ∧ f a = .ok b := by
  cases x with
  | error e => simp [bind, Except.bind]
  | ok a => simp [bind, Except.bind]

/-- Chains that go on alike from what their first step returns are alike. -/
theorem Except.bind_congr_ok {α β ε : Type} {x : Except ε α} {f f' : α → Except ε β}
    (h : ∀ a, x = .ok a → f a = f' a) : (x >>= f) = (x >>= f') := by
  cases x with
  | error e => rfl
  | ok a => exact h a rfl

@[simp] theorem Except.pure_eq_ok {α ε : Type} {a b : α} :
    (pure a : Except ε α) = .ok b ↔ a = b := by
  simp [pure, Except.pure]

@[simp] theorem Except.map_eq_ok {α β ε : Type} {x : Except ε α} {f : α → β} {b : β} :
    x.map f = .ok b ↔ ∃ a, x = .ok a ∧ f a = b := by
  cases x <;> simp [Except.map]

theorem Except.map_bind {α β γ ε : Type} (x : Except ε α) (f : α → Except ε β) (g : β → γ) :
    (x >>= f).map g = x >>= fun a => (f a).map g := by
  cases x <;> rfl

theorem Except.map_eq_error {α β ε : Type} {x : Except ε α} {f : α → β} {e : ε} :
    x.map f = .error e ↔ x = .error e := by
  cases x <;> simp [Except.map]

@[simp] theorem Except.mapError_eq_ok {α ε δ : Type} {x : Except ε α} {f : ε → δ} {a : α} :
    x.mapError f = .ok a ↔ x = .ok a := by
  cases x <;> simp [Except.mapError]

theorem Except.mapError_eq_error {α ε δ : Type} {x : Except ε α} {f : ε → δ} {e : δ} :
    x.mapError f = .error e ↔ ∃ e', x = .error e' ∧ f e' = e := by
  cases x <;> simp [Except.mapError]

/-- A step that ends well on closed terms can be evaluated. -/
theorem Except.exists_ok {α ε : Type} {x : Except ε α} (p : α → Bool)
    (h : (x.toOption.map p).getD false = true) : ∃ a, x = .ok a ∧ p a = true := by
  cases x with
  | error e => simp [Except.toOption] at h
  | ok a => exact ⟨a, rfl, h⟩

theorem Except.eq_ok_of_toOption {α ε : Type} {x : Except ε α} {a : α}
    (h : x.toOption = some a) : x = .ok a := by
  cases x with
  | error e => simp [Except.toOption] at h
  | ok b => exact congrArg Except.ok (Option.some.inj h)

/-- A step on every element of a list ends well when it does on each. -/
theorem Except.mapM_eq_ok {α β ε : Type} {f : α → Except ε β} {xs : List α} {ys : List β} :
    xs.mapM f = .ok ys ↔ List.Forall₂ (fun x y => f x = .ok y) xs ys := by
  induction xs generalizing ys with
  | nil =>
    rw [List.mapM_nil, Except.pure_eq_ok, List.forall₂_nil_left_iff]
    exact eq_comm
  | cons x rest ih =>
    simp only [List.mapM_cons, Except.bind_eq_ok, Except.pure_eq_ok, List.forall₂_cons_left_iff, ih]
    constructor
    · rintro ⟨y, hy, rest', hrest, rfl⟩
      exact ⟨y, rest', hy, hrest, rfl⟩
    · rintro ⟨y, rest', hy, hrest, rfl⟩
      exact ⟨y, hy, rest', hrest, rfl⟩

theorem Except.mem_of_mapM {α β ε : Type} {f : α → Except ε β} {xs : List α} {ys : List β}
    (h : xs.mapM f = .ok ys) {y : β} (hy : y ∈ ys) : ∃ x ∈ xs, f x = .ok y := by
  induction Except.mapM_eq_ok.1 h with
  | nil => exact absurd hy List.not_mem_nil
  | cons hx _ ih =>
    rcases List.mem_cons.1 hy with rfl | hy
    · exact ⟨_, List.mem_cons_self .., hx⟩
    · obtain ⟨x, hmem, hx⟩ := ih (Except.mapM_eq_ok.2 ‹_›) hy
      exact ⟨x, List.mem_cons_of_mem _ hmem, hx⟩

theorem Except.exists_mapM {α β ε : Type} {f : α → Except ε β} {xs : List α}
    (h : ∀ x ∈ xs, ∃ y, f x = .ok y) : ∃ ys, xs.mapM f = .ok ys := by
  induction xs with
  | nil => exact ⟨[], rfl⟩
  | cons x rest ih =>
    obtain ⟨y, hy⟩ := h x (List.mem_cons_self ..)
    obtain ⟨ys, hys⟩ := ih fun x hx => h x (List.mem_cons_of_mem _ hx)
    exact ⟨y :: ys, Except.mapM_eq_ok.2 (.cons hy (Except.mapM_eq_ok.1 hys))⟩

/-- What fails on the elements of a list fails on the first of them that it fails on. -/
theorem Except.mapM_error {α β ε : Type} {f : α → Except ε β} {xs : List α} {e : ε}
    (h : xs.mapM f = .error e) : ∃ before x after, xs = before ++ x :: after ∧
      (∃ ys, before.mapM f = .ok ys) ∧ f x = .error e := by
  induction xs with
  | nil => exact absurd h (by simp [pure, Except.pure])
  | cons x rest ih =>
    rw [List.mapM_cons] at h
    cases hx : f x with
    | error e' =>
      rw [hx] at h
      obtain rfl : e' = e := Except.error.inj h
      exact ⟨[], x, rest, rfl, ⟨[], rfl⟩, hx⟩
    | ok y =>
      cases hrest : rest.mapM f with
      | ok ys =>
        rw [hx, hrest] at h
        exact absurd h (by simp [bind, Except.bind, pure, Except.pure])
      | error e' =>
        rw [hx, hrest] at h
        obtain rfl : e' = e := Except.error.inj h
        obtain ⟨before, x', after, heq, ⟨ys, hys⟩, hx'⟩ := ih hrest
        refine ⟨x :: before, x', after, congrArg (x :: ·) heq, ⟨y :: ys, ?_⟩, hx'⟩
        exact Except.mapM_eq_ok.2 (.cons hx (Except.mapM_eq_ok.1 hys))

/-- A check on every element of a list passes when it does on each. -/
theorem Except.forM_eq_ok {α ε : Type} {f : α → Except ε Unit} {xs : List α} :
    xs.forM f = .ok () ↔ ∀ x ∈ xs, f x = .ok () := by
  rw [List.forM_eq_forM]
  induction xs with
  | nil => simp
  | cons x rest ih =>
    rw [List.forM_cons, Except.bind_eq_ok, ih, List.forall_mem_cons]
    exact ⟨fun ⟨_, hx, hrest⟩ => ⟨hx, hrest⟩, fun ⟨hx, hrest⟩ => ⟨(), hx, hrest⟩⟩

/-- What a step adds to is kept by steps one after another. -/
theorem Except.foldlM_keeps {α β ε : Type} {f : β → α → Except ε β} {motive : β → Prop}
    (step : ∀ b a b', motive b → f b a = .ok b' → motive b') {as : List α} {b b' : β}
    (hb : motive b) (h : as.foldlM f b = .ok b') : motive b' := by
  induction as generalizing b with
  | nil =>
    rw [List.foldlM_nil, Except.pure_eq_ok] at h
    exact h ▸ hb
  | cons a rest ih =>
    rw [List.foldlM_cons, Except.bind_eq_ok] at h
    obtain ⟨next, hnext, h⟩ := h
    exact ih (step b a next hb hnext) h

/-- A list that an element joins when its key is not there yet takes further elements exactly when
all keys differ. -/
theorem Except.foldlM_distinct {σ β κ ε : Type} {f : σ → β → Except ε σ} (held : List β → σ)
    (key : β → κ) (step : ∀ bs b st, f (held bs) b = .ok st ↔
      key b ∉ bs.map key ∧ st = held (bs ++ [b]))
    {bs more : List β} {st : σ} (hbs : (bs.map key).Nodup) :
    more.foldlM f (held bs) = .ok st ↔
      ((bs ++ more).map key).Nodup ∧ st = held (bs ++ more) := by
  induction more generalizing bs with
  | nil =>
    rw [List.foldlM_nil, Except.pure_eq_ok, List.append_nil, eq_comm]
    exact (and_iff_right hbs).symm
  | cons b rest ih =>
    have hjoined : bs ++ b :: rest = (bs ++ [b]) ++ rest := by simp
    have hnext : key b ∉ bs.map key ↔ ((bs ++ [b]).map key).Nodup := by
      simp [List.nodup_append, hbs]
    simp only [List.foldlM_cons, Except.bind_eq_ok, step, hjoined]
    constructor
    · rintro ⟨_, ⟨hfree, rfl⟩, hrest⟩
      exact (ih (hnext.1 hfree)).1 hrest
    · rintro ⟨hnodup, rfl⟩
      have hprefix : ((bs ++ [b]).map key).Nodup := by
        rw [List.map_append] at hnodup
        exact hnodup.of_append_left
      exact ⟨_, ⟨hnext.2 hprefix, rfl⟩, (ih hprefix).2 ⟨hnodup, rfl⟩⟩

/-! ### Two chains -/

/-- Two chains go alike when both fail, with the same error, or both end well, with results that
belong together. -/
inductive Except.Alike {α β ε : Type} (A : α → β → Prop) : Except ε α → Except ε β → Prop where
  | error (e : ε) : Except.Alike A (.error e) (.error e)
  | ok {a : α} {b : β} : A a b → Except.Alike A (.ok a) (.ok b)

namespace Except.Alike
variable {α β γ δ ε : Type} {A : α → β → Prop} {B : γ → δ → Prop} {x : Except ε α} {y : Except ε β}

theorem bind {f : α → Except ε γ} {g : β → Except ε δ} (h : Except.Alike A x y)
    (hf : ∀ a b, A a b → Except.Alike B (f a) (g b)) : Except.Alike B (x >>= f) (y >>= g) := by
  cases h with
  | error e => exact .error e
  | ok hab => exact hf _ _ hab

theorem map {f : α → γ} {g : β → δ} (h : Except.Alike A x y) (hf : ∀ a b, A a b → B (f a) (g b)) :
    Except.Alike B (x.map f) (y.map g) := by
  cases h with
  | error e => exact .error e
  | ok hab => exact .ok (hf _ _ hab)

theorem mapError (f : ε → δ) (h : Except.Alike A x y) :
    Except.Alike A (x.mapError f) (y.mapError f) := by
  cases h with
  | error e => exact .error (f e)
  | ok hab => exact .ok hab

/-- Two loops over one list go alike when their steps do. -/
theorem foldlM {κ : Type} {f : α → κ → Except ε α} {g : β → κ → Except ε β}
    (step : ∀ c a b, A a b → Except.Alike A (f a c) (g b c)) {cs : List κ} {a : α} {b : β}
    (h : A a b) : Except.Alike A (cs.foldlM f a) (cs.foldlM g b) := by
  induction cs generalizing a b with
  | nil => exact .ok h
  | cons c rest ih =>
    rw [List.foldlM_cons, List.foldlM_cons]
    exact (step c a b h).bind fun _ _ hnext => ih hnext

theorem mono {A' : α → β → Prop} (h : Except.Alike A x y) (hA : ∀ a b, A a b → A' a b) :
    Except.Alike A' x y := by
  cases h with
  | error e => exact .error e
  | ok hab => exact .ok (hA _ _ hab)

/-- Both are results of the two. -/
theorem both (h : Except.Alike A x y) :
    Except.Alike (fun a b => A a b ∧ x = .ok a ∧ y = .ok b) x y := by
  cases h with
  | error e => exact .error e
  | ok hab => exact .ok ⟨hab, rfl, rfl⟩

theorem ok_left (h : Except.Alike A x y) {a : α} (hx : x = .ok a) : ∃ b, y = .ok b ∧ A a b := by
  cases h with
  | error e => cases hx
  | ok hab => exact ⟨_, rfl, Except.ok.inj hx ▸ hab⟩

theorem ok_right (h : Except.Alike A x y) {b : β} (hy : y = .ok b) : ∃ a, x = .ok a ∧ A a b := by
  cases h with
  | error e => cases hy
  | ok hab => exact ⟨_, rfl, Except.ok.inj hy ▸ hab⟩

theorem eq_error_iff (h : Except.Alike A x y) {e : ε} : x = .error e ↔ y = .error e := by
  cases h with
  | error fault => rw [Except.error.injEq, Except.error.injEq]
  | ok hab => simp

theorem refl {A : α → α → Prop} (hA : ∀ a, A a a) (x : Except ε α) : Except.Alike A x x := by
  cases x with
  | error e => exact .error e
  | ok a => exact .ok (hA a)

/-- Where results that belong together determine each other, one chain is the other followed by
that. -/
theorem eq_map {f : α → β} (h : Except.Alike (fun a b => b = f a) x y) : y = x.map f := by
  cases h with
  | error e => rfl
  | ok hab => rw [hab]; rfl

end Except.Alike

end EntityQuery
