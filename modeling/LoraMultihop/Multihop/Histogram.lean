/- digest: What the neighbor histogram says of the heartbeats counted since its last reset. -/

import LoraMultihop.Multihop.State

set_option autoImplicit false
set_option relaxedAutoImplicit false

namespace LoraMultihop.Multihop.Histogram

open LoraMultihop.Net.Params
open LoraMultihop.Multihop.Messages
open LoraMultihop.Multihop.State
open LoraMultihop.Multihop.State.MultihopState

/-- The histogram of the rings counted, newest first, while no count has wrapped. -/
structure Counted (list : RingList) (rings : List Ring) : Prop where
  bound : ∀ k, (list.counts k).toNat ≤ rings.length
  heard : ∀ k, list.counts k ≠ 0 → ∃ r ∈ rings, r.toNat = list.ringStart.toNat + k.val
  first : rings ≠ [] → list.counts 0 ≠ 0
  least : ∀ r ∈ rings, list.ringStart ≤ r

theorem counted_empty : Counted RingList.empty [] where
  bound k := by simp [RingList.empty]
  heard k h := absurd rfl h
  first h := absurd rfl h
  least r hr := absurd hr List.not_mem_nil

theorem add_one_ne_zero {c : UInt8} (h : c.toNat < 255) :
    (c + 1).toNat = c.toNat + 1 ∧ c + 1 ≠ 0 := by
  have hone : (1 : UInt8).toNat = 1 := rfl
  have hsum : (c + 1).toNat = c.toNat + 1 := by
    rw [UInt8.toNat_add]
    omega
  refine ⟨hsum, ?_⟩
  intro hz
  have := congrArg UInt8.toNat hz
  rw [hsum] at this
  simp at this

theorem ring_add_one {ring : Ring} (h : ring ≠ UNKNOWN_RING) :
    (ring + 1).toNat = ring.toNat + 1 := by
  refine (add_one_ne_zero ?_).1
  by_contra hge
  have := ring.toNat_lt
  exact h (UInt8.toNat_inj.mp (show ring.toNat = 255 by omega))

theorem ne_unknown_of_lt {ring other : Ring} (h : ring < other) : ring ≠ UNKNOWN_RING := by
  rintro rfl
  have hlt := UInt8.lt_iff_toNat_lt.mp h
  have hbound := other.toNat_lt
  have hval : UNKNOWN_RING.toNat = 255 := rfl
  omega

private theorem counted_single {rings : List Ring} {neighbor : Ring} (hlen : rings.length < 255)
    (hleast : ∀ r ∈ rings, neighbor ≤ r) :
    Counted (bump ⟨neighbor, fun _ => 0⟩ neighbor) (neighbor :: rings) where
  bound k := by
    simp only [bump, Nat.sub_self, List.length_cons]
    split_ifs
    · change 1 ≤ _
      omega
    · exact Nat.zero_le _
  heard k hk := by
    simp only [bump, Nat.sub_self] at hk ⊢
    split_ifs at hk with h0
    · exact ⟨neighbor, List.mem_cons_self, by omega⟩
    · exact absurd rfl hk
  first _ := by simp [bump]
  least r hr := by
    rcases List.mem_cons.mp hr with rfl | hr
    · exact UInt8.le_refl _
    · exact hleast r hr

private theorem Counted.bump {list : RingList} {rings : List Ring} (h : Counted list rings)
    (hlen : rings.length < 255) (hz : list.counts 0 ≠ 0) {neighbor : Ring}
    (hlow : list.ringStart ≤ neighbor) :
    Counted (MultihopState.bump list neighbor) (neighbor :: rings) := by
  have hge := UInt8.le_iff_toNat_le.mp hlow
  have hbound (k : Fin 8) : (list.counts k).toNat < 255 := lt_of_le_of_lt (h.bound k) hlen
  refine ⟨?_, ?_, ?_, ?_⟩
  · intro k
    have := h.bound k
    simp only [MultihopState.bump, List.length_cons]
    split_ifs
    · rw [(add_one_ne_zero (hbound k)).1]
      omega
    · omega
  · intro k hk
    simp only [MultihopState.bump] at hk ⊢
    split_ifs at hk with hidx
    · exact ⟨neighbor, List.mem_cons_self, by omega⟩
    · obtain ⟨r, hr, heq⟩ := h.heard k hk
      exact ⟨r, List.mem_cons_of_mem _ hr, heq⟩
  · intro _
    simp only [MultihopState.bump]
    split_ifs
    · exact (add_one_ne_zero (hbound 0)).2
    · exact hz
  · intro r hr
    rcases List.mem_cons.mp hr with rfl | hr
    · exact hlow
    · exact h.least r hr

private theorem Counted.shift {list : RingList} {rings : List Ring} (h : Counted list rings)
    (hlen : rings.length < 255) {neighbor : Ring} (hlow : neighbor < list.ringStart) :
    Counted
      (MultihopState.bump
        ⟨neighbor, shiftCounts list.counts (list.ringStart.toNat - neighbor.toNat)⟩ neighbor)
      (neighbor :: rings) := by
  have hlt := UInt8.lt_iff_toNat_lt.mp hlow
  have hzero : shiftCounts list.counts (list.ringStart.toNat - neighbor.toNat) 0 = 0 := by
    rw [shiftCounts, if_neg (by simp only [Fin.val_zero]; omega)]
  refine ⟨?_, ?_, ?_, ?_⟩
  · intro k
    simp only [MultihopState.bump, Nat.sub_self, List.length_cons]
    split_ifs with h0
    · rw [show k = 0 from Fin.ext h0, hzero]
      change 1 ≤ _
      omega
    · rw [shiftCounts]
      split_ifs with hoff
      · have := h.bound ⟨k.val - (list.ringStart.toNat - neighbor.toNat), by omega⟩
        omega
      · exact Nat.zero_le _
  · intro k hk
    simp only [MultihopState.bump, Nat.sub_self] at hk ⊢
    split_ifs at hk with h0
    · exact ⟨neighbor, List.mem_cons_self, by omega⟩
    · rw [shiftCounts] at hk
      split_ifs at hk with hoff
      · obtain ⟨r, hr, heq⟩ := h.heard _ hk
        dsimp only at heq
        exact ⟨r, List.mem_cons_of_mem _ hr, by omega⟩
      · exact absurd rfl hk
  · intro _
    simp only [MultihopState.bump, Nat.sub_self, Fin.val_zero, if_true, hzero]
    simp
  · intro r hr
    rcases List.mem_cons.mp hr with rfl | hr
    · exact UInt8.le_refl _
    · exact UInt8.le_trans (UInt8.le_of_lt hlow) (h.least r hr)

private theorem Counted.count {list : RingList} {rings : List Ring} (h : Counted list rings)
    (hlen : rings.length < 255) (neighbor : Ring) :
    Counted (countNeighbor list neighbor) (neighbor :: rings) := by
  rw [countNeighbor]
  by_cases hz : list.counts 0 = 0
  · have hnil : rings = [] := by
      by_contra hne
      exact h.first hne hz
    subst hnil
    have hzero : list.counts = fun _ => 0 := funext fun k => by
      have := h.bound k
      exact UInt8.toNat_inj.mp (by simpa using this)
    rw [if_pos hz]
    dsimp only
    rw [if_neg (fun hc => hc.1 hz), lowerStart, if_neg (UInt8.lt_irrefl _), hzero]
    exact counted_single hlen fun r hr => absurd hr List.not_mem_nil
  · rw [if_neg hz]
    by_cases hout : list.ringStart.toNat + 8 ≤ neighbor.toNat
    · rw [if_pos ⟨hz, hout⟩]
      refine ⟨?_, ?_, fun _ => hz, ?_⟩
      · intro k
        rw [List.length_cons]
        exact Nat.le_succ_of_le (h.bound k)
      · intro k hk
        obtain ⟨r, hr, heq⟩ := h.heard k hk
        exact ⟨r, List.mem_cons_of_mem _ hr, heq⟩
      · intro r hr
        rcases List.mem_cons.mp hr with rfl | hr
        · rw [UInt8.le_iff_toNat_le]
          omega
        · exact h.least r hr
    · rw [if_neg (fun hc => hout hc.2), lowerStart]
      by_cases hlow : neighbor < list.ringStart
      · rw [if_pos hlow]
        dsimp only
        by_cases hfar : 8 ≤ list.ringStart.toNat - neighbor.toNat
        · rw [if_pos hfar]
          exact counted_single hlen fun r hr =>
            UInt8.le_trans (UInt8.le_of_lt hlow) (h.least r hr)
        · rw [if_neg hfar]
          exact h.shift hlen hlow
      · rw [if_neg hlow]
        exact h.bump hlen hz (UInt8.not_lt.mp hlow)

/-- The lowest ring of the histogram is the least ring counted. -/
theorem Counted.lowest {list : RingList} {rings : List Ring} (h : Counted list rings) :
    rings = [] ∧ lowestRing list = UNKNOWN_RING ∨
      lowestRing list ∈ rings ∧ ∀ r ∈ rings, lowestRing list ≤ r := by
  cases rings with
  | nil =>
      have hzero : ∀ k, list.counts k = 0 := by
        intro k
        have := h.bound k
        exact UInt8.toNat_inj.mp (by simpa using this)
      have hnone : ((List.finRange 8).find? fun i => 0 < list.counts i) = none :=
        List.find?_eq_none.mpr fun i _ => by simp [hzero i]
      exact Or.inl ⟨rfl, by rw [lowestRing, hnone]⟩
  | cons r rings =>
      have hz := h.first (by simp)
      have hpos : 0 < list.counts 0 := UInt8.pos_iff_ne_zero.mpr hz
      have hlow : lowestRing list = list.ringStart := by
        rw [lowestRing, List.finRange_succ, List.find?_cons_of_pos (by simpa using hpos)]
        simp
      obtain ⟨r', hr', heq⟩ := h.heard 0 hz
      rw [hlow]
      refine Or.inr ⟨?_, h.least⟩
      rwa [← UInt8.toNat_inj.mp (show r'.toNat = list.ringStart.toNat by simpa using heq)]

theorem Counted.addNeighbor {s : MultihopState} {rings : List Ring} (h : Counted s.neighbors rings)
    (ring : Ring) (hlen : ring ≠ UNKNOWN_RING → rings.length < 255) :
    Counted (s.addNeighbor ring).neighbors
      (if ring = UNKNOWN_RING then rings else ring :: rings) := by
  rw [MultihopState.addNeighbor]
  by_cases hr : ring = UNKNOWN_RING
  · rwa [if_pos hr.symm, if_pos hr]
  · rw [if_neg (Ne.symm hr), if_neg hr]
    exact h.count (hlen hr) ring

/-- The three outcomes of an update away from the gateway: a lower ring was counted, the ring is
held, or it is given up. -/
theorem updateRing_cases {s : MultihopState} (ha : s.address ≠ GATEWAY_ADDR) :
    lowestRing s.neighbors < s.ring ∧
        s.updateRingFromNeighbors =
          { s with ring := lowestRing s.neighbors + 1, roundsWithoutLower := 0 } ∨
      s.ring ≤ lowestRing s.neighbors ∧ s.roundsWithoutLower + 1 < RING_HYSTERESIS_THRESHOLD ∧
        s.updateRingFromNeighbors =
          { s with roundsWithoutLower := s.roundsWithoutLower + 1 } ∨
      s.ring ≤ lowestRing s.neighbors ∧ RING_HYSTERESIS_THRESHOLD ≤ s.roundsWithoutLower + 1 ∧
        s.updateRingFromNeighbors =
          { s with
            ring :=
              if lowestRing s.neighbors = UNKNOWN_RING then UNKNOWN_RING
              else lowestRing s.neighbors + 1
            roundsWithoutLower := 0 } := by
  rw [updateRingFromNeighbors, if_neg (Ne.symm ha)]
  dsimp only
  by_cases hlow : lowestRing s.neighbors < s.ring
  · exact Or.inl ⟨hlow, if_pos hlow⟩
  · have hge := UInt8.not_lt.mp hlow
    rw [if_neg hlow]
    by_cases hrounds : RING_HYSTERESIS_THRESHOLD ≤ s.roundsWithoutLower + 1
    · refine Or.inr (Or.inr ⟨hge, hrounds, ?_⟩)
      by_cases hnone : lowestRing s.neighbors = UNKNOWN_RING
      · rw [if_neg (fun h => h.2 hnone), if_pos hrounds, if_pos hnone]
      · rw [if_pos ⟨hge, hnone⟩, if_pos hrounds, if_neg hnone]
    · refine Or.inr (Or.inl ⟨hge, UInt8.not_le.mp hrounds, ?_⟩)
      split_ifs <;> rfl

end LoraMultihop.Multihop.Histogram
