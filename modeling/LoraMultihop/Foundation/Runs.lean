/- digest: Runs of a deterministic machine, and conditions on every step of a run. -/

import Mathlib.Data.List.Basic
import Mathlib.Data.List.Infix
import Mathlib.Data.List.Pairwise
import Mathlib.Tactic

set_option autoImplicit false
set_option relaxedAutoImplicit false

namespace LoraMultihop.Foundation.Runs

variable {σ α : Type*}

def Along (step : σ → α → σ) (ok : σ → α → Prop) : σ → List α → Prop
  | _, [] => True
  | s, a :: as => ok s a ∧ Along step ok (step s a) as

instance decidableAlong (step : σ → α → σ) (ok : σ → α → Prop) [∀ s a, Decidable (ok s a)]
    (s : σ) : (as : List α) → Decidable (Along step ok s as)
  | [] => isTrue trivial
  | a :: as =>
      have := decidableAlong step ok (step s a) as
      inferInstanceAs (Decidable (_ ∧ _))

section Rules

variable {step : σ → α → σ} {ok : σ → α → Prop} {s : σ}

private theorem along_snoc (as : List α) (a : α) :
    Along step ok s (as ++ [a]) ↔ Along step ok s as ∧ ok (as.foldl step s) a := by
  induction as generalizing s with
  | nil => exact ⟨fun h => ⟨trivial, h.1⟩, fun h => ⟨h.2, trivial⟩⟩
  | cons b as ih => exact (and_congr_right fun _ => ih).trans and_assoc.symm

/-- What every step keeps holds at the end of a run. -/
theorem foldl_keeps {I : σ → Prop} (hstep : ∀ s a, I s → I (step s a)) (hstart : I s)
    (as : List α) : I (as.foldl step s) := by
  induction as generalizing s with
  | nil => exact hstart
  | cons a as ih => exact ih (hstep s a hstart)

/-- What every step of a run keeps exactly under its condition holds at the end exactly if the
condition holds along the run. -/
theorem foldl_iff_along {P : σ → Prop} (hstart : P s) {as : List α}
    (hstep : ∀ pre a, pre ++ [a] <+: as →
      (P ((pre ++ [a]).foldl step s) ↔ P (pre.foldl step s) ∧ ok (pre.foldl step s) a)) :
    P (as.foldl step s) ↔ Along step ok s as := by
  induction as using List.reverseRecOn with
  | nil => exact ⟨fun _ => trivial, fun _ => hstart⟩
  | append_singleton as a ih =>
      have hpre := ih fun pre b h => hstep pre b (h.trans (List.prefix_append as [a]))
      rw [hstep as a (List.prefix_rfl), along_snoc, hpre]

end Rules

/-- In a list in order nothing comes after the last entry. -/
theorem rel_last {R : α → α → Prop} (hrefl : ∀ a, R a a) {l : List α} (h : l.Pairwise R)
    {a b : α} (ha : l.getLast? = some a) (hb : b ∈ l) : R b a := by
  obtain ⟨init, rfl⟩ := List.getLast?_eq_some_iff.mp ha
  rcases List.mem_append.mp hb with hb | hb
  · exact (List.pairwise_append.mp h).2.2 b hb a List.mem_cons_self
  · rw [List.mem_singleton.mp hb]
    exact hrefl a

end LoraMultihop.Foundation.Runs
