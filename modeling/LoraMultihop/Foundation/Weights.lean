/- digest: The total weight of a list, class by class, and in a 32-bit accumulator. -/

import Mathlib.Algebra.BigOperators.Fin
import Mathlib.Tactic

set_option autoImplicit false
set_option relaxedAutoImplicit false

namespace LoraMultihop.Foundation.Weights

section Total

variable {α : Type} {weight : α → Nat} {a b : α}

def total (weight : α → Nat) (xs : List α) : Nat := (xs.map weight).sum

@[simp] theorem total_nil : total weight [] = 0 := rfl

@[simp] theorem total_cons (a : α) (xs : List α) :
    total weight (a :: xs) = weight a + total weight xs := by
  simp [total]

@[simp] theorem total_append (xs ys : List α) :
    total weight (xs ++ ys) = total weight xs + total weight ys := by
  simp [total]

theorem total_lt_of_added (h : 0 < weight a) (xs ys : List α) :
    total weight (xs ++ ys) < total weight (xs ++ a :: ys) := by
  rw [total_append, total_append, total_cons]
  omega

theorem total_lt_of_moved (h : weight a < weight b) (xs ys : List α) :
    total weight (xs ++ a :: ys) < total weight (xs ++ b :: ys) := by
  rw [total_append, total_append, total_cons, total_cons]
  omega

theorem total_eq_sum_countP {ι : Type} [Fintype ι] (w : ι → Nat) (p : ι → α → Bool)
    (xs : List α) :
    total (fun x => ∑ i, if p i x then w i else 0) xs = ∑ i, w i * xs.countP (p i) := by
  induction xs with
  | nil => simp
  | cons x xs ih =>
      rw [total_cons, ih, ← Finset.sum_add_distrib]
      apply Finset.sum_congr rfl
      intro i _
      rw [List.countP_cons, Nat.mul_add, mul_ite, Nat.mul_one, Nat.mul_zero, Nat.add_comm]

end Total

section Accumulator

variable {ι : Type}

theorem foldl_add_eq_total (f : ι → UInt32) (xs : List ι) (acc : UInt32)
    (h : acc.toNat + total (fun i => (f i).toNat) xs < 2 ^ 32) :
    (xs.foldl (fun sum i => sum + f i) acc).toNat =
      acc.toNat + total (fun i => (f i).toNat) xs := by
  induction xs generalizing acc with
  | nil => rfl
  | cons x xs ih =>
      rw [total_cons, ← Nat.add_assoc] at h ⊢
      have hstep : (acc + f x).toNat = acc.toNat + (f x).toNat := by
        rw [UInt32.toNat_add]
        exact Nat.mod_eq_of_lt (by omega)
      rw [List.foldl_cons, ih (acc + f x) (by rwa [hstep]), hstep]

end Accumulator

end LoraMultihop.Foundation.Weights
