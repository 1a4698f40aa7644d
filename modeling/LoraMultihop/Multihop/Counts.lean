/- digest: The window of eight counters is the histogram of the rings, whatever their order. -/

import Mathlib.Data.List.MinMax
import LoraMultihop.Multihop.Discovery

set_option autoImplicit false
set_option relaxedAutoImplicit false

namespace LoraMultihop.Multihop.Counts

open LoraMultihop.Net.Params
open LoraMultihop.Multihop.Messages
open LoraMultihop.Multihop.State
open LoraMultihop.Multihop.State.MultihopState
open LoraMultihop.Multihop.Discovery

def tally (rings : List Ring) (k : Nat) : Nat := rings.countP fun r => decide (r.toNat = k)

def window (start : Ring) (rings : List Ring) : RingList :=
  ⟨start, fun i => UInt8.ofNat (tally rings (start.toNat + i.val))⟩

/-- The histogram of the rings: the window that starts at the smallest of them. -/
def histogramOf (rings : List Ring) : RingList :=
  match rings.argmin UInt8.toNat with
  | some m => window m rings
  | none => RingList.empty

def known (rings : List Ring) : List Ring := rings.filter fun r => decide (r ≠ UNKNOWN_RING)

/-- The range starts at the smallest ring, among those that are known. -/
def StartsAtLeast (rings : List Ring) (list : RingList) : Prop :=
  list.ringStart ∈ known rings ∧ ∀ r ∈ known rings, list.ringStart ≤ r

def CountsAll (rings : List Ring) (list : RingList) : Prop :=
  ∀ i, (list.counts i).toNat = tally rings (list.ringStart.toNat + i.val)

section Tally

variable {rings : List Ring} {neighbor : Ring}

private theorem tally_append (rings : List Ring) (neighbor : Ring) (k : Nat) :
    tally (rings ++ [neighbor]) k =
      tally rings k + (if neighbor.toNat = k then 1 else 0) := by
  simp [tally, List.countP_append, List.countP_singleton]

private theorem tally_pos {r : Ring} (hr : r ∈ rings) : 0 < tally rings r.toNat :=
  List.countP_pos_iff.mpr ⟨r, hr, decide_eq_true rfl⟩

private theorem tally_eq_zero {k : Nat} (h : ∀ r ∈ rings, r.toNat ≠ k) : tally rings k = 0 := by
  rw [tally, List.countP_eq_zero]
  intro r hr
  simpa using h r hr

private theorem tally_le {bound : Nat} (h : ∀ r, rings.count r ≤ bound) (k : Nat) :
    tally rings k ≤ bound := by
  by_cases hk : ∃ r ∈ rings, r.toNat = k
  · obtain ⟨r, -, rfl⟩ := hk
    refine le_trans (le_of_eq ?_) (h r)
    rw [tally, List.count]
    congr 1
    ext x
    rw [Bool.eq_iff_iff, decide_eq_true_eq, beq_iff_eq, UInt8.toNat_inj]
  · rw [tally_eq_zero fun r hr heq => hk ⟨r, hr, heq⟩]
    exact Nat.zero_le bound

end Tally

section Window

variable {rings : List Ring} {start neighbor : Ring}

theorem window_count (hbound : ∀ k, tally rings k ≤ 255) (i : Fin 8) :
    ((window start rings).counts i).toNat = tally rings (start.toNat + i.val) :=
  UInt8.toNat_ofNat_of_lt' (Nat.lt_succ_of_le (hbound _))

theorem window_first (hmem : start ∈ rings) (hbound : ∀ k, tally rings k ≤ 255) :
    0 < (window start rings).firstCount := by
  rw [UInt8.lt_iff_toNat_lt, RingList.firstCount, window_count hbound]
  exact tally_pos hmem

private theorem bump_window (hle : start ≤ neighbor) :
    bump (window start rings) neighbor = window start (rings ++ [neighbor]) := by
  have hle := UInt8.le_iff_toNat_le.mp hle
  rw [bump, window, window]
  congr 1
  ext i : 1
  rw [tally_append]
  dsimp only
  by_cases hi : i.val = neighbor.toNat - start.toNat
  · rw [if_pos hi, if_pos (by omega), UInt8.ofNat_add]
    rfl
  · rw [if_neg hi, if_neg (by omega), Nat.add_zero]

private theorem window_above (hout : start.toNat + 8 ≤ neighbor.toNat) :
    window start (rings ++ [neighbor]) = window start rings := by
  rw [window, window]
  congr 1
  ext i : 1
  rw [tally_append, if_neg (by omega), Nat.add_zero]

private theorem lowerStart_window (hleast : ∀ r ∈ rings, start ≤ r) :
    lowerStart (window start rings) neighbor =
      window (if neighbor < start then neighbor else start) rings := by
  rw [lowerStart]
  by_cases hlow : neighbor < start
  · have hlt := UInt8.lt_iff_toNat_lt.mp hlow
    have hempty (k : Nat) (hk : k < start.toNat) : tally rings k = 0 := by
      apply tally_eq_zero
      intro r hr
      have := UInt8.le_iff_toNat_le.mp (hleast r hr)
      omega
    rw [if_pos hlow, if_pos (show neighbor < (window start rings).ringStart from hlow)]
    dsimp only [window]
    by_cases hfar : 8 ≤ start.toNat - neighbor.toNat
    · rw [if_pos hfar]
      congr 1
      ext i : 1
      rw [hempty _ (by omega)]
      rfl
    · rw [if_neg hfar]
      congr 1
      ext i : 1
      rw [shiftCounts]
      by_cases hi : start.toNat - neighbor.toNat ≤ i.val
      · rw [if_pos hi]
        dsimp only
        congr 2
        omega
      · rw [if_neg hi, hempty _ (by omega)]
        rfl
  · rw [if_neg hlow, if_neg (show ¬ neighbor < (window start rings).ringStart from hlow)]

end Window

section Histogram

variable {rings : List Ring}

private theorem histogramOf_some {m : Ring} (h : rings.argmin UInt8.toNat = some m) :
    histogramOf rings = window m rings := by
  rw [histogramOf, h]

private theorem least_of_argmin {m : Ring} (h : rings.argmin UInt8.toNat = some m) :
    ∀ r ∈ rings, m ≤ r := by
  intro r hr
  exact UInt8.le_iff_toNat_le.mpr (List.le_of_mem_argmin hr h)

theorem histogramOf_cases (rings : List Ring) :
    rings = [] ∧ histogramOf rings = RingList.empty ∨
      ∃ m ∈ rings, (∀ r ∈ rings, m ≤ r) ∧ histogramOf rings = window m rings := by
  cases h : rings.argmin UInt8.toNat with
  | none =>
      obtain rfl := List.argmin_eq_none.mp h
      exact Or.inl ⟨rfl, rfl⟩
  | some m =>
      exact Or.inr ⟨m, List.argmin_mem h, least_of_argmin h, histogramOf_some h⟩

private theorem countNeighbor_histogramOf (hbound : ∀ k, tally rings k ≤ 255) (neighbor : Ring) :
    countNeighbor (histogramOf rings) neighbor = histogramOf (rings ++ [neighbor]) := by
  cases h : rings.argmin UInt8.toNat with
  | none =>
      obtain rfl := List.argmin_eq_none.mp h
      have hstart : countNeighbor (histogramOf []) neighbor =
          bump (lowerStart (window neighbor []) neighbor) neighbor := rfl
      rw [hstart, lowerStart_window fun r hr => absurd hr List.not_mem_nil,
        if_neg (UInt8.lt_irrefl neighbor), bump_window (UInt8.le_refl neighbor)]
      rfl
  | some m =>
      have hleast := least_of_argmin h
      have hfirst : (window m rings).firstCount ≠ 0 :=
        UInt8.pos_iff_ne_zero.mp (window_first (List.argmin_mem h) hbound)
      have hargmin : (rings ++ [neighbor]).argmin UInt8.toNat =
          some (if neighbor < m then neighbor else m) := by
        rw [List.argmin_concat, h]
        simp only [UInt8.lt_iff_toNat_lt]
        split_ifs <;> rfl
      rw [histogramOf_some h, histogramOf_some hargmin, countNeighbor, if_neg hfirst]
      by_cases hout : m.toNat + 8 ≤ neighbor.toNat
      · have hnot : ¬ neighbor < m := by
          rw [UInt8.lt_iff_toNat_lt]
          omega
        rw [if_pos ⟨hfirst, hout⟩, if_neg hnot, window_above hout]
      · rw [if_neg fun hc => hout hc.2, lowerStart_window hleast]
        apply bump_window
        split_ifs with hlow
        · exact UInt8.le_refl neighbor
        · exact UInt8.not_lt.mp hlow

private theorem foldl_countNeighbor (hbound : ∀ k, tally rings k ≤ 255) :
    rings.foldl countNeighbor RingList.empty = histogramOf rings := by
  induction rings using List.reverseRecOn with
  | nil => rfl
  | append_singleton rings neighbor ih =>
      have hbefore (k : Nat) : tally rings k ≤ 255 := by
        have := hbound k
        rw [tally_append] at this
        omega
      rw [List.foldl_append, ih hbefore, List.foldl_cons, List.foldl_nil,
        countNeighbor_histogramOf hbefore]

private theorem histogramOf_perm {other : List Ring} (h : rings.Perm other) :
    histogramOf rings = histogramOf other := by
  have htally (k : Nat) : tally rings k = tally other k := h.countP_eq _
  rcases histogramOf_cases rings with ⟨rfl, -⟩ | ⟨m, hm, hleast, heq⟩
  · rw [h.nil_eq]
  · rcases histogramOf_cases other with ⟨rfl, -⟩ | ⟨m', hm', hleast', heq'⟩
    · rw [h.eq_nil]
    · have hle := hleast m' (h.mem_iff.mpr hm')
      have hge := hleast' m (h.mem_iff.mp hm)
      obtain rfl := UInt8.le_antisymm hle hge
      rw [heq, heq', window, window]
      congr 1
      ext i : 1
      rw [htally]

end Histogram

section Calls

variable {rings : List Ring}

theorem addNeighbors_neighbors (rings : List Ring) (s : MultihopState) :
    (addNeighbors rings s).neighbors = (known rings).foldl countNeighbor s.neighbors := by
  induction rings generalizing s with
  | nil => rfl
  | cons r rings ih =>
      rw [addNeighbors, List.foldl_cons, ← addNeighbors, ih, addNeighbor, known, known]
      by_cases hr : UNKNOWN_RING = r
      · rw [if_pos hr, List.filter_cons_of_neg (by simpa using hr.symm)]
      · rw [if_neg hr, List.filter_cons_of_pos (by simpa using Ne.symm hr), List.foldl_cons]

theorem known_bound {bound : Nat} (h : ∀ r, rings.count r ≤ bound) (k : Nat) :
    tally (known rings) k ≤ bound := by
  apply tally_le
  intro r
  exact le_trans (List.filter_sublist.count_le r) (h r)

theorem neighbors_eq (s : MultihopState) (h : ∀ r, rings.count r ≤ 255) :
    (addNeighbors rings s.resetNeighbors).neighbors = histogramOf (known rings) := by
  rw [addNeighbors_neighbors]
  exact foldl_countNeighbor (known_bound h)

/-- The neighbor list is the exact histogram of the known rings, in whatever order they come. -/
theorem histogram_of_known (s : MultihopState) (rings : List Ring)
    (hcount : ∀ r, rings.count r ≤ 255) :
    let list := (addNeighbors rings s.resetNeighbors).neighbors
    ((∃ r ∈ rings, r ≠ UNKNOWN_RING) →
        StartsAtLeast rings list ∧ CountsAll (known rings) list) ∧
      ∀ other, rings.Perm other →
        (addNeighbors other s.resetNeighbors).neighbors = list := by
  intro list
  have hlist : list = histogramOf (known rings) := neighbors_eq s hcount
  rw [hlist]
  constructor
  · rintro ⟨r, hr, hknown⟩
    have hmem : r ∈ known rings := List.mem_filter.mpr ⟨hr, decide_eq_true hknown⟩
    rcases histogramOf_cases (known rings) with ⟨hnone, -⟩ | ⟨m, hm, hleast, heq⟩
    · rw [hnone] at hmem
      exact absurd hmem List.not_mem_nil
    · rw [heq]
      exact ⟨⟨hm, hleast⟩, window_count (known_bound hcount)⟩
  · intro other hperm
    have hother (r : Ring) : other.count r ≤ 255 := by
      rw [← hperm.count_eq r]
      exact hcount r
    rw [neighbors_eq s hother]
    exact (histogramOf_perm (hperm.filter _)).symm

theorem known_rings_counted :
    let list := (addNeighbors [9, 3, 1, 255, 3] (new).resetNeighbors).neighbors
    (StartsAtLeast [9, 3, 1, 255, 3] list ∧ CountsAll [9, 3, 1, 3] list) ∧
      (addNeighbors [1, 3, 3, 255, 9] (new).resetNeighbors).neighbors = list := by
  have h := histogram_of_known new [9, 3, 1, 255, 3] fun r =>
    le_trans List.count_le_length (by decide)
  exact ⟨h.1 ⟨1, by decide, by decide⟩, h.2 _ (by decide)⟩

/-- A neighbor of unknown ring within the range is not counted. -/
theorem unknown_ring_uncounted :
    let list := (addNeighbors [250, 255] (new).resetNeighbors).neighbors
    list.ringStart = 250 ∧ ¬ CountsAll [250, 255] list := by
  refine ⟨by decide, ?_⟩
  intro h
  exact absurd (h 5) (by decide)

end Calls

end LoraMultihop.Multihop.Counts
