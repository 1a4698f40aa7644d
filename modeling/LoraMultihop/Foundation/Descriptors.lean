/- digest: Descriptor tables that hand out the lowest number not in use. -/

import Mathlib.Data.Finset.Card
import Mathlib.Data.Finset.Range
import Mathlib.Data.List.Nodup
import Mathlib.Tactic

set_option autoImplicit false
set_option relaxedAutoImplicit false

namespace LoraMultihop.Foundation.Descriptors

/-- What each open descriptor leads to. -/
structure Table (κ : Type*) where
  entries : List (Nat × κ)
  nodup : (entries.map Prod.fst).Nodup

section Tables

variable {κ : Type*}

def Table.keys (t : Table κ) : List Nat := t.entries.map Prod.fst

def Table.lookup (t : Table κ) (fd : Nat) : Option κ :=
  (t.entries.find? fun e => e.1 = fd).map Prod.snd

def Table.size (t : Table κ) : Nat := t.entries.length

/-- The lowest descriptor that is not open. -/
def Table.fresh (t : Table κ) : Nat :=
  ((List.range (t.size + 1)).find? fun fd => fd ∉ t.keys).getD 0

private theorem Table.exists_free (t : Table κ) : ∃ fd ∈ List.range (t.size + 1), fd ∉ t.keys := by
  have hkeys : t.keys.toFinset.card < (Finset.range (t.size + 1)).card := by
    rw [Finset.card_range]
    have hle := t.keys.toFinset_card_le
    rw [Table.keys, List.length_map] at hle
    exact Nat.lt_succ_of_le hle
  obtain ⟨fd, hfd, hfree⟩ := Finset.exists_mem_notMem_of_card_lt_card hkeys
  refine ⟨fd, List.mem_range.mpr (Finset.mem_range.mp hfd), fun hmem => hfree ?_⟩
  exact List.mem_toFinset.mpr hmem

private theorem Table.fresh_free (t : Table κ) : t.fresh ∉ t.keys := by
  obtain ⟨fd, hfd, hfree⟩ := t.exists_free
  have hsome : ((List.range (t.size + 1)).find? fun fd => fd ∉ t.keys).isSome := by
    rw [List.find?_isSome]
    exact ⟨fd, hfd, decide_eq_true hfree⟩
  obtain ⟨found, hfound⟩ := Option.isSome_iff_exists.mp hsome
  have hnot := List.find?_some hfound
  rw [Table.fresh, hfound]
  exact of_decide_eq_true hnot

/-- The table after `open` has led the lowest free descriptor to `x`. -/
def Table.insert (t : Table κ) (x : κ) : Table κ where
  entries := (t.fresh, x) :: t.entries
  nodup := List.nodup_cons.mpr ⟨t.fresh_free, t.nodup⟩

def Table.erase (t : Table κ) (fd : Nat) : Table κ where
  entries := t.entries.filter fun e => e.1 ≠ fd
  nodup := t.nodup.sublist (List.filter_sublist.map Prod.fst)

private theorem Table.lookup_eq_none_iff (t : Table κ) (fd : Nat) :
    t.lookup fd = none ↔ fd ∉ t.keys := by
  rw [Table.lookup, Option.map_eq_none_iff, List.find?_eq_none, Table.keys, List.mem_map]
  constructor
  · rintro h ⟨e, he, rfl⟩
    exact h e he (decide_eq_true rfl)
  · intro h e he hfd
    exact h ⟨e, he, of_decide_eq_true hfd⟩

theorem Table.lookup_insert (t : Table κ) (x : κ) (fd : Nat) :
    (t.insert x).lookup fd = if t.fresh = fd then some x else t.lookup fd := by
  rw [Table.lookup, Table.insert, List.find?_cons]
  by_cases h : t.fresh = fd
  · simp [h]
  · simp [h, Table.lookup]

theorem Table.size_erase {t : Table κ} {fd : Nat} {x : κ} (h : t.lookup fd = some x) :
    (t.erase fd).size + 1 = t.size := by
  have hmem : fd ∈ t.keys := by
    by_contra hfree
    rw [(t.lookup_eq_none_iff fd).mpr hfree] at h
    exact absurd h (by simp)
  have hcount : t.keys.count fd = 1 := List.count_eq_one_of_mem t.nodup hmem
  have hcountP : t.entries.countP (fun e => e.1 = fd) = 1 := by
    rw [← hcount, Table.keys, List.count, List.countP_map]
    rfl
  have hsplit := List.length_eq_countP_add_countP (fun e : Nat × κ => decide (e.1 = fd))
    (l := t.entries)
  rw [Table.size, Table.size, Table.erase, hsplit, hcountP, ← List.countP_eq_length_filter]
  simp only [decide_not, Bool.not_eq_true, decide_eq_false_iff_not]
  omega

end Tables

end LoraMultihop.Foundation.Descriptors
