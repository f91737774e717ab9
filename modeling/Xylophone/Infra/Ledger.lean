import Mathlib.Algebra.BigOperators.Group.Finset.Piecewise
import Mathlib.Algebra.Order.BigOperators.Group.Finset
import Mathlib.Algebra.Order.Group.Multiset
import Mathlib.Algebra.Order.Sub.Basic

/-!
# Ledgers

What is held altogether is a sum over the holders. An operation changes the account of one holder,
and the total changes by as much.

* `total_update` — one account changes
* `account_le_total` — an account is part of the total
-/

namespace Infra

variable {M : Type*} {n i : Nat} {f g : Nat → M}

section Total

variable [AddCommMonoid M]

/-- The sum of the first `n` accounts. It is irreducible, as no proof is to compute it. -/
@[irreducible] def total (n : Nat) (f : Nat → M) : M := ∑ i ∈ Finset.range n, f i

theorem total_congr (h : ∀ i, i < n → f i = g i) : total n f = total n g := by
  unfold total
  exact Finset.sum_congr rfl fun i hi => h i (Finset.mem_range.mp hi)

theorem total_zero (h : ∀ i, i < n → f i = 0) : total n f = 0 := by
  unfold total
  exact Finset.sum_eq_zero fun i hi => h i (Finset.mem_range.mp hi)

theorem total_succ (n : Nat) (f : Nat → M) : total (n + 1) f = total n f + f n := by
  unfold total
  exact Finset.sum_range_succ f n

/-- An account and all the others. -/
theorem total_eq_add (hi : i < n) (f : Nat → M) :
    total n f = f i + total n (Function.update f i 0) := by
  unfold total
  rw [Finset.sum_update_of_mem (Finset.mem_range.mpr hi), zero_add,
    Finset.sdiff_singleton_eq_erase, Finset.add_sum_erase _ _ (Finset.mem_range.mpr hi)]

/-- **One account changes.** -/
theorem total_update (hi : i < n) (f : Nat → M) (m : M) :
    total n (Function.update f i m) + f i = total n f + m := by
  rw [total_eq_add hi f, total_eq_add hi (Function.update f i m), Function.update_self,
    Function.update_idem, add_right_comm, add_assoc, add_comm m, add_assoc]

/-- One account changes, where the accounts are given another way. -/
theorem total_change (hi : i < n) (h : ∀ j, j < n → j ≠ i → g j = f j) :
    total n g + f i = total n f + g i := by
  have heq : total n g = total n (Function.update f i (g i)) := by
    refine total_congr fun j hj => ?_
    by_cases hji : j = i
    · rw [hji, Function.update_self]
    · rw [Function.update_of_ne hji, h j hj hji]
  rw [heq, total_update hi]

end Total

theorem mem_total {f : Nat → Multiset Nat} {a : Nat} :
    a ∈ total n f ↔ ∃ i, i < n ∧ a ∈ f i := by
  unfold total
  simp only [Multiset.mem_sum, Finset.mem_range]

/-- An account is part of the total. -/
theorem account_le_total {f : Nat → Multiset Nat} (hi : i < n) : f i ≤ total n f := by
  rw [total_eq_add hi f]
  exact Multiset.le_add_right _ _

end Infra
