import Mathlib.Data.List.Forall2

/-! Lists that are worked through item by item, up to the first item that fails. -/

namespace Ovsdb
variable {α β ε : Type} {f : α → Except ε β} {a a' : α} {as : List α} {b : β} {bs : List β} {e : ε}

theorem forall_of_forall₂ {R : α → β → Prop} {P : α → Prop} {xs : List α} {ys : List β}
    (h : List.Forall₂ R xs ys) (hP : ∀ y ∈ ys, ∀ x, R x y → P x) : ∀ x ∈ xs, P x := by
  induction h with
  | nil => simp
  | cons first _ ih =>
    refine List.forall_mem_cons.mpr ⟨hP _ List.mem_cons_self _ first, ih fun y hy => ?_⟩
    exact hP y (List.mem_cons_of_mem _ hy)

theorem exists_forall₂ {R : α → β → Prop} {xs : List α} (h : ∀ x ∈ xs, ∃ y, R x y) :
    ∃ ys, List.Forall₂ R xs ys := by
  induction xs with
  | nil => exact ⟨[], .nil⟩
  | cons x xs ih =>
    obtain ⟨⟨y, hy⟩, rest⟩ := List.forall_mem_cons.mp h
    obtain ⟨ys, hys⟩ := ih rest
    exact ⟨y :: ys, .cons hy hys⟩

theorem forall₂_iff_of_mem {R S : α → β → Prop} {xs : List α} {ys : List β} (h : ∀ x ∈ xs, ∀ y, R x y ↔ S x y) :
    List.Forall₂ R xs ys ↔ List.Forall₂ S xs ys := by
  induction xs generalizing ys with
  | nil => simp
  | cons x xs ih =>
    obtain ⟨first, rest⟩ := List.forall_mem_cons.mp h
    simp only [List.forall₂_cons_left_iff, first, ih rest]

theorem forall₂_and {R S : α → β → Prop} {xs : List α} {ys : List β} :
    List.Forall₂ (fun x y => R x y ∧ S x y) xs ys ↔ List.Forall₂ R xs ys ∧ List.Forall₂ S xs ys := by
  induction xs generalizing ys with
  | nil => simp
  | cons x xs ih => cases ys <;> simp [ih, and_assoc, and_left_comm]

theorem forall₂_replace {R : α → β → Prop} {before after : List α} {x y : α} {bs : List β}
    (same : ∀ b, R x b ↔ R y b) :
    List.Forall₂ R (before ++ x :: after) bs ↔ List.Forall₂ R (before ++ y :: after) bs := by
  induction before generalizing bs with
  | nil => simp only [List.nil_append, List.forall₂_cons_left_iff, same]
  | cons first rest ih => simp only [List.cons_append, List.forall₂_cons_left_iff, ih]

/-! ### Results -/

theorem bind_eq_ok {x : Except ε α} : (x >>= f) = .ok b ↔ ∃ a, x = .ok a ∧ f a = .ok b := by
  cases x <;> simp [bind, Except.bind]

theorem map_eq_ok {g : α → β} {x : Except ε α} : g <$> x = .ok b ↔ ∃ a, x = .ok a ∧ g a = b := by
  cases x <;> simp

theorem pure_eq_ok : (pure a : Except ε α) = .ok a' ↔ a = a' := by
  simp [pure, Except.pure]

theorem mapError_eq_ok {ε' : Type} {g : ε → ε'} {x : Except ε α} : x.mapError g = .ok a ↔ x = .ok a := by
  cases x <;> simp [Except.mapError]

theorem mapM_eq_ok : as.mapM f = .ok bs ↔ List.Forall₂ (fun a b => f a = .ok b) as bs := by
  induction as generalizing bs with
  | nil => simp [pure_eq_ok, @eq_comm _ []]
  | cons a as ih =>
    simp only [List.mapM_cons, bind_eq_ok, pure_eq_ok, ih, List.forall₂_cons_left_iff]
    constructor
    · rintro ⟨b, first, bs, rest, rfl⟩
      exact ⟨b, bs, first, rest, rfl⟩
    · rintro ⟨b, bs, first, rest, rfl⟩
      exact ⟨b, first, bs, rest, rfl⟩

/-- The error of the first item that fails. -/
def FirstFailure (f : α → Except ε β) (as : List α) (e : ε) : Prop :=
  ∃ before a after, as = before ++ a :: after ∧ (∀ x ∈ before, ∃ b, f x = .ok b) ∧ f a = .error e

theorem firstFailure_nil : ¬ FirstFailure f [] e := by
  rintro ⟨before, a, after, split, -⟩
  simp at split

theorem firstFailure_cons :
    FirstFailure f (a :: as) e ↔ f a = .error e ∨ (∃ b, f a = .ok b) ∧ FirstFailure f as e := by
  constructor
  · rintro ⟨before, x, after, split, fine, failed⟩
    cases before with
    | nil =>
      cases split
      exact .inl failed
    | cons y before =>
      cases split
      obtain ⟨first, others⟩ := List.forall_mem_cons.mp fine
      exact .inr ⟨first, before, x, after, rfl, others, failed⟩
  · rintro (failed | ⟨first, before, x, after, rfl, others, failed⟩)
    · exact ⟨[], a, as, rfl, by simp, failed⟩
    · exact ⟨a :: before, x, after, rfl, List.forall_mem_cons.mpr ⟨first, others⟩, failed⟩

theorem mapM_eq_error : as.mapM f = .error e ↔ FirstFailure f as e := by
  induction as with
  | nil => simp [firstFailure_nil, pure, Except.pure]
  | cons a as ih =>
    rw [List.mapM_cons, firstFailure_cons, ← ih]
    cases f a with
    | error e' => simp [bind, Except.bind]
    | ok b => cases as.mapM f <;> simp [bind, Except.bind, pure, Except.pure]

/-- Errors may be reworded item by item, or once for the whole list. -/
theorem mapM_mapError {ε' : Type} (f : α → Except ε β) (g : ε → ε') (as : List α) :
    as.mapM (fun a => (f a).mapError g) = (as.mapM f).mapError g := by
  induction as with
  | nil => rfl
  | cons a as ih =>
    rw [List.mapM_cons, List.mapM_cons, ih]
    cases f a with
    | error e => rfl
    | ok b => cases as.mapM f <;> rfl

end Ovsdb
