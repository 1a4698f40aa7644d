/- digest: Logs of labels stamped by a clock: when stamps and labels tell entries apart alike. -/

import LoraMultihop.Foundation.Runs
import Mathlib.Data.List.Pairwise
import Mathlib.Tactic

set_option autoImplicit false
set_option relaxedAutoImplicit false

namespace LoraMultihop.Foundation.Stamps

open LoraMultihop.Foundation.Runs (rel_last)

variable {ι κ : Type*}

/-- Two entries have one label exactly if they have one stamp. -/
def Matched (log : List (ι × κ)) : Prop := ∀ f ∈ log, ∀ g ∈ log, f.1 = g.1 ↔ f.2 = g.2

private theorem Matched.left {log more : List (ι × κ)} (h : Matched (log ++ more)) : Matched log :=
  fun f hf g hg => h f (List.mem_append_left _ hf) g (List.mem_append_left _ hg)

theorem matched_nil : Matched ([] : List (ι × κ)) := fun _ hf => absurd hf List.not_mem_nil

variable [LinearOrder κ]

def Ordered (log : List (ι × κ)) : Prop := log.Pairwise fun f g => f.2 ≤ g.2

/-- The entry goes on with the label and stamp of the last one, or its label is new and its stamp
later. -/
def Continues (log : List (ι × κ)) (e : ι × κ) : Prop :=
  ∀ f, log.getLast? = some f → f.1 = e.1 ∧ f.2 = e.2 ∨ f.2 < e.2 ∧ ∀ g ∈ log, g.1 ≠ e.1

instance [DecidableEq ι] (log : List (ι × κ)) (e : ι × κ) : Decidable (Continues log e) :=
  decidable_of_iff
    (∀ f ∈ log.getLast?, f.1 = e.1 ∧ f.2 = e.2 ∨ f.2 < e.2 ∧ ∀ g ∈ log, g.1 ≠ e.1) Iff.rfl

section Append

variable {log : List (ι × κ)} {e : ι × κ}

theorem Ordered.snoc (h : Ordered log) (hlast : ∀ f ∈ log, f.2 ≤ e.2) : Ordered (log ++ [e]) := by
  apply List.pairwise_append.mpr
  refine ⟨h, List.pairwise_singleton _ _, ?_⟩
  intro f hf g hg
  rw [List.mem_singleton.mp hg]
  exact hlast f hf

private theorem Ordered.le_last (h : Ordered log) {f g : ι × κ} (hf : log.getLast? = some f)
    (hg : g ∈ log) : g.2 ≤ f.2 :=
  rel_last (fun f => le_refl f.2) h hf hg

theorem matched_snoc_iff (h : Ordered log) (hlast : ∀ f ∈ log, f.2 ≤ e.2) :
    Matched (log ++ [e]) ↔ Matched log ∧ Continues log e := by
  have he : e ∈ log ++ [e] := List.mem_append_right _ List.mem_cons_self
  constructor
  · intro hall
    refine ⟨hall.left, ?_⟩
    intro f hf
    have hmem := List.mem_of_getLast? hf
    by_cases hlabel : f.1 = e.1
    · exact Or.inl ⟨hlabel, (hall f (List.mem_append_left _ hmem) e he).mp hlabel⟩
    · have hstamp : f.2 ≠ e.2 :=
        fun heq => hlabel ((hall f (List.mem_append_left _ hmem) e he).mpr heq)
      have hlt : f.2 < e.2 := lt_of_le_of_ne (hlast f hmem) hstamp
      refine Or.inr ⟨hlt, ?_⟩
      intro g hg hsame
      have heq := (hall g (List.mem_append_left _ hg) e he).mp hsame
      exact absurd (heq ▸ h.le_last hf hg) (not_le.mpr hlt)
  · rintro ⟨hall, hnext⟩
    have hside (g : ι × κ) (hg : g ∈ log) : g.1 = e.1 ↔ g.2 = e.2 := by
      cases hf : log.getLast? with
      | none =>
          rw [List.getLast?_eq_none_iff.mp hf] at hg
          exact absurd hg List.not_mem_nil
      | some f =>
          have hmem := List.mem_of_getLast? hf
          rcases hnext f hf with ⟨hlabel, hstamp⟩ | ⟨hlt, hnew⟩
          · rw [← hlabel, ← hstamp]
            exact hall g hg f hmem
          · have hgt := lt_of_le_of_lt (h.le_last hf hg) hlt
            exact ⟨fun hsame => absurd hsame (hnew g hg), fun heq => absurd heq (ne_of_lt hgt)⟩
    intro f hf g hg
    rcases List.mem_append.mp hf with hf | hf <;> rcases List.mem_append.mp hg with hg | hg
    · exact hall f hf g hg
    · rw [List.mem_singleton.mp hg]
      exact hside f hf
    · rw [List.mem_singleton.mp hf, eq_comm, hside g hg, eq_comm]
    · rw [List.mem_singleton.mp hf, List.mem_singleton.mp hg]
      exact ⟨fun _ => rfl, fun _ => rfl⟩

end Append

end LoraMultihop.Foundation.Stamps
