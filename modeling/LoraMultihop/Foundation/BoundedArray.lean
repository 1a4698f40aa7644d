/- digest: Arrays of a given length with checked accesses. -/

import Mathlib.Data.List.Basic
import Mathlib.Tactic

set_option autoImplicit false
set_option relaxedAutoImplicit false

namespace LoraMultihop.Foundation.BoundedArray

variable {α : Type*}

def get (len : Nat) (a : Nat → α) (i : Nat) : Option α := if i < len then some (a i) else none

def set (len : Nat) (a : Nat → α) (i : Nat) (x : α) : Option (Nat → α) :=
  if i < len then some fun j => if j = i then x else a j else none

def fill (len : Nat) (a : Nat → α) (x : α) (count : Nat) : Option (Nat → α) :=
  (List.range count).foldlM (fun a i => set len a i x) a

def slice (len : Nat) (a : Nat → α) (start count : Nat) : Option (List α) :=
  (List.range count).mapM fun i => get len a (start + i)

/-- The first index that holds a value with `p`, among `count` of them from `i` on; the search stops
there. -/
def search (len : Nat) (a : Nat → α) (p : α → Bool) : Nat → Nat → Option (Option Nat)
  | _, 0 => some none
  | i, count + 1 =>
      (get len a i).bind fun x => if p x then some (some i) else search len a p (i + 1) count

variable {len : Nat} {a : Nat → α} {x : α}

private theorem get_eq {i : Nat} (h : i < len) : get len a i = some (a i) := if_pos h

theorem set_eq {i : Nat} (h : i < len) :
    set len a i x = some fun j => if j = i then x else a j := if_pos h

theorem fill_eq {count : Nat} (h : count ≤ len) :
    fill len a x count = some fun i => if i < count then x else a i := by
  induction count with
  | zero => simp [fill]
  | succ count ih =>
      have hrest := ih (Nat.le_of_succ_le h)
      rw [fill] at hrest ⊢
      rw [List.range_succ, List.foldlM_append, hrest, Option.bind_eq_bind, Option.bind_some,
        List.foldlM_cons, set_eq (Nat.lt_of_succ_le h)]
      simp only [List.foldlM_nil, Option.pure_def, Option.bind_eq_bind, Option.bind_some,
        Option.some.injEq]
      ext i
      by_cases hi : i = count
      · rw [if_pos hi, if_pos (by omega)]
      · rw [if_neg hi]
        by_cases hlt : i < count
        · rw [if_pos hlt, if_pos (by omega)]
        · rw [if_neg hlt, if_neg (by omega)]

theorem slice_eq {start count : Nat} (h : 0 < count → start + count ≤ len) :
    slice len a start count = some ((List.range count).map fun i => a (start + i)) := by
  have hall : ∀ i ∈ List.range count, get len a (start + i) = some (a (start + i)) := by
    intro i hi
    have hlt := List.mem_range.mp hi
    exact get_eq (by omega)
  rw [slice]
  generalize List.range count = is at hall ⊢
  induction is with
  | nil => rfl
  | cons i is ih =>
      rw [List.mapM_cons, hall i List.mem_cons_self,
        ih fun j hj => hall j (List.mem_cons_of_mem i hj)]
      rfl

theorem search_eq {p : α → Bool} {i count : Nat} (h : i + count ≤ len) :
    search len a p i count = some ((List.range' i count).find? fun j => p (a j)) := by
  induction count generalizing i with
  | zero => rfl
  | succ count ih =>
      rw [search, get_eq (by omega), Option.bind_some, List.range'_succ, List.find?_cons]
      cases hp : p (a i) with
      | true => simp
      | false =>
          rw [if_neg (by simp), ih (by omega)]

theorem foldlM_eq {σ β : Type*} {f : σ → β → Option σ} {g : σ → β → σ} {P : σ → Prop}
    (hstep : ∀ s b, P s → f s b = some (g s b) ∧ P (g s b)) (bs : List β) {s : σ} (h : P s) :
    bs.foldlM f s = some (bs.foldl g s) := by
  induction bs generalizing s with
  | nil => rfl
  | cons b bs ih =>
      obtain ⟨heq, hnext⟩ := hstep s b h
      rw [List.foldlM_cons, heq, List.foldl_cons]
      exact ih hnext

end LoraMultihop.Foundation.BoundedArray
