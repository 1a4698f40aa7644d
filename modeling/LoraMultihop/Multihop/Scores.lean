/- digest: When the score of a neighbor list ranks it as a sum of weights, without a wrap. -/

import LoraMultihop.Foundation.Weights
import LoraMultihop.Multihop.Counts

set_option autoImplicit false
set_option relaxedAutoImplicit false

namespace LoraMultihop.Multihop.Scores

open LoraMultihop.Foundation.Weights
open LoraMultihop.Net.Params
open LoraMultihop.Multihop.Messages
open LoraMultihop.Multihop.State
open LoraMultihop.Multihop.State.MultihopState
open LoraMultihop.Multihop.Discovery
open LoraMultihop.Multihop.Counts

/-- The 8-bit local of the loop of `score`. -/
def multiplier (list : RingList) (i : Fin 8) : UInt8 :=
  let max : UInt8 := list.ringStart + 8
  max - UInt8.ofNat i.val

def weight (start : Ring) (i : Fin 8) : Nat := start.toNat + 8 - i.val

def weightedSum (list : RingList) : Nat :=
  ∑ i : Fin 8, weight list.ringStart i * (list.counts i).toNat

/-- The neighbor list after a reset and a call of `add_neighbor` for each of the rings. -/
def neighborList (s : MultihopState) (rings : List Ring) : RingList :=
  (addNeighbors rings s.resetNeighbors).neighbors

/-- No ring is added so often that its count wraps. -/
def CountsFit (rings : List Ring) : Prop := ∀ r, rings.count r ≤ 255

def InWindow (list : RingList) (ring : Ring) : Prop :=
  list.ringStart ≤ ring ∧ ring.toNat < list.ringStart.toNat + 8

/-- Whichever rings the two nodes have, the first list has the higher score. -/
def Beats (list other : RingList) : Prop :=
  ∀ node node', node ≠ GATEWAY_RING → node' ≠ GATEWAY_RING → other.score node' < list.score node

/-- The score ranks the neighbor list of these rings by the sum of its weights. -/
structure Ranks (s : MultihopState) (rings : List Ring) : Prop where
  positive : ∀ i, 0 < multiplier (neighborList s rings) i
  sum : ∀ node, node ≠ GATEWAY_RING →
    ((neighborList s rings).score node).toNat = weightedSum (neighborList s rings)
  below : ∀ node, node ≠ GATEWAY_RING →
    (neighborList s rings).score node < (neighborList s rings).score GATEWAY_RING
  added : ∀ ring, ring ≠ UNKNOWN_RING → InWindow (neighborList s rings) ring →
    CountsFit (rings ++ [ring]) →
      (neighborList s (rings ++ [ring])).ringStart = (neighborList s rings).ringStart →
        Beats (neighborList s (rings ++ [ring])) (neighborList s rings)
  moved : ∀ before ring after lower, rings = before ++ ring :: after → lower < ring →
    InWindow (neighborList s rings) lower → CountsFit (before ++ lower :: after) →
      (neighborList s (before ++ lower :: after)).ringStart = (neighborList s rings).ringStart →
        Beats (neighborList s (before ++ lower :: after)) (neighborList s rings)

/-- No neighbor is known, or one so low that `ring_start + 8` stays below 256. -/
def StartsLow (rings : List Ring) : Prop :=
  known rings = [] ∨ ∃ r ∈ rings, r.toNat + 8 < 2 ^ 8

section Score

variable {list : RingList} {node : Ring}

private theorem score_eq_foldl (hnode : node ≠ GATEWAY_RING) :
    list.score node = (List.finRange 8).foldl
      (fun sum i => sum + (multiplier list i).toUInt32 * (list.counts i).toUInt32) 0 := by
  rw [RingList.score, if_neg (Ne.symm hnode)]
  rfl

private theorem weight_pos (start : Ring) (i : Fin 8) : 0 < weight start i := by
  rw [weight]
  omega

private theorem multiplier_toNat (list : RingList) (i : Fin 8) :
    (multiplier list i).toNat = weight list.ringStart i % 2 ^ 8 := by
  have hstart := list.ringStart.toNat_lt
  have height : (8 : UInt8).toNat = 8 := rfl
  have hi : (UInt8.ofNat i.val).toNat = i.val :=
    UInt8.toNat_ofNat_of_lt' (lt_trans i.isLt (by decide))
  rw [multiplier, weight, UInt8.toNat_sub, UInt8.toNat_add, hi, height]
  omega

private theorem term_toNat (list : RingList) (i : Fin 8) :
    ((multiplier list i).toUInt32 * (list.counts i).toUInt32).toNat =
        (multiplier list i).toNat * (list.counts i).toNat ∧
      (multiplier list i).toNat * (list.counts i).toNat ≤ 255 * 255 := by
  have hle : (multiplier list i).toNat * (list.counts i).toNat ≤ 255 * 255 :=
    Nat.mul_le_mul (Nat.lt_succ_iff.mp (multiplier list i).toNat_lt)
      (Nat.lt_succ_iff.mp (list.counts i).toNat_lt)
  refine ⟨?_, hle⟩
  rw [UInt32.toNat_mul, UInt8.toNat_toUInt32, UInt8.toNat_toUInt32]
  exact Nat.mod_eq_of_lt (by omega)

private theorem score_toNat (hnode : node ≠ GATEWAY_RING) :
    (list.score node).toNat = ∑ i : Fin 8, (multiplier list i).toNat * (list.counts i).toNat ∧
      (list.score node).toNat ≤ 8 * (255 * 255) := by
  have hsum : total
      (fun i => ((multiplier list i).toUInt32 * (list.counts i).toUInt32).toNat)
        (List.finRange 8) = ∑ i : Fin 8, (multiplier list i).toNat * (list.counts i).toNat := by
    rw [total, ← Fin.sum_univ_def]
    apply Finset.sum_congr rfl
    intro i _
    exact (term_toNat list i).1
  have hle : ∑ i : Fin 8, (multiplier list i).toNat * (list.counts i).toNat ≤ 8 * (255 * 255) := by
    calc ∑ i : Fin 8, (multiplier list i).toNat * (list.counts i).toNat
        ≤ ∑ _i : Fin 8, 255 * 255 := Finset.sum_le_sum fun i _ => (term_toNat list i).2
      _ = 8 * (255 * 255) := by simp
  have hzero : (0 : UInt32).toNat = 0 := rfl
  have hscore : (list.score node).toNat =
      ∑ i : Fin 8, (multiplier list i).toNat * (list.counts i).toNat := by
    rw [score_eq_foldl hnode, foldl_add_eq_total, hsum, hzero, Nat.zero_add]
    rw [hsum, hzero]
    omega
  exact ⟨hscore, by rw [hscore]; exact hle⟩

private theorem score_add_lost (hnode : node ≠ GATEWAY_RING) :
    (list.score node).toNat +
        2 ^ 8 * ∑ i : Fin 8, weight list.ringStart i / 2 ^ 8 * (list.counts i).toNat =
      weightedSum list := by
  rw [(score_toNat hnode).1, Finset.mul_sum, ← Finset.sum_add_distrib, weightedSum]
  apply Finset.sum_congr rfl
  intro i _
  rw [multiplier_toNat, ← Nat.mul_assoc, ← Nat.add_mul, Nat.mod_add_div]

end Score

/-- The weight of one neighbor in a range from `start` on; none outside of it. -/
def closeness (start ring : Ring) : Nat :=
  if start ≤ ring ∧ ring.toNat < start.toNat + 8 then
    start.toNat + 8 - (ring.toNat - start.toNat)
  else 0

section Neighbors

variable {s : MultihopState} {rings : List Ring} {start ring lower node : Ring}

private theorem closeness_eq_sum (start ring : Ring) :
    closeness start ring =
      ∑ i : Fin 8, if decide (ring.toNat = start.toNat + i.val) then weight start i else 0 := by
  rw [closeness]
  by_cases hin : start ≤ ring ∧ ring.toNat < start.toNat + 8
  · have hle := UInt8.le_iff_toNat_le.mp hin.1
    have hat : ring.toNat = start.toNat + (ring.toNat - start.toNat) := by omega
    rw [if_pos hin, Finset.sum_eq_single ⟨ring.toNat - start.toNat, by omega⟩]
    · rw [if_pos (decide_eq_true hat), weight]
    · intro i _ hi
      apply if_neg
      intro heq
      exact hi (Fin.ext (show i.val = ring.toNat - start.toNat by
        have := of_decide_eq_true heq
        omega))
    · intro hmem
      exact absurd (Finset.mem_univ _) hmem
  · rw [if_neg hin]
    symm
    apply Finset.sum_eq_zero
    intro i _
    apply if_neg
    intro heq
    have heq := of_decide_eq_true heq
    exact hin ⟨UInt8.le_iff_toNat_le.mpr (by omega), by omega⟩

private theorem weightedSum_window (hbound : ∀ k, tally rings k ≤ 255) :
    weightedSum (window start rings) = total (closeness start) rings := by
  have hclose : closeness start = fun ring =>
      ∑ i : Fin 8, if decide (ring.toNat = start.toNat + i.val) then weight start i else 0 :=
    funext (closeness_eq_sum start)
  rw [hclose, total_eq_sum_countP, weightedSum]
  apply Finset.sum_congr rfl
  intro i _
  rw [window_count hbound, tally]
  rfl

private theorem closeness_lt (hlt : lower < ring) (hle : start ≤ lower)
    (hin : lower.toNat < start.toNat + 8) : closeness start ring < closeness start lower := by
  have hlt := UInt8.lt_iff_toNat_lt.mp hlt
  have hle' := UInt8.le_iff_toNat_le.mp hle
  have hlower : closeness start lower = start.toNat + 8 - (lower.toNat - start.toNat) :=
    if_pos ⟨hle, hin⟩
  rw [hlower, closeness]
  split_ifs <;> omega

private theorem closeness_pos (hle : start ≤ ring) (hin : ring.toNat < start.toNat + 8) :
    0 < closeness start ring := by
  have hle' := UInt8.le_iff_toNat_le.mp hle
  rw [closeness, if_pos ⟨hle, hin⟩]
  omega

private theorem known_append (rings rings' : List Ring) :
    known (rings ++ rings') = known rings ++ known rings' :=
  List.filter_append ..

private theorem known_cons (hring : ring ≠ UNKNOWN_RING) (rings : List Ring) :
    known (ring :: rings) = ring :: known rings :=
  List.filter_cons_of_pos (decide_eq_true hring)

private theorem neighborList_cases (s : MultihopState) (h : CountsFit rings) :
    known rings = [] ∧ neighborList s rings = RingList.empty ∨
      ∃ m ∈ known rings, (∀ r ∈ known rings, m ≤ r) ∧
        neighborList s rings = window m (known rings) := by
  rw [neighborList, neighbors_eq s h]
  exact histogramOf_cases (known rings)

private theorem neighborList_eq_window (s : MultihopState) (h : CountsFit rings) :
    neighborList s rings = window (neighborList s rings).ringStart (known rings) := by
  rcases neighborList_cases s h with ⟨hnone, heq⟩ | ⟨m, -, -, heq⟩
  · rw [heq, hnone]
    rfl
  · rw [heq]
    rfl

private theorem weightedSum_neighborList (s : MultihopState) (h : CountsFit rings) :
    weightedSum (neighborList s rings) =
      total (closeness (neighborList s rings).ringStart) (known rings) := by
  rw [neighborList_eq_window s h]
  exact weightedSum_window (known_bound h)

private theorem score_of_low {list : RingList} (hlow : list.ringStart.toNat + 8 < 2 ^ 8)
    (hnode : node ≠ GATEWAY_RING) : (list.score node).toNat = weightedSum list := by
  rw [← score_add_lost hnode, Finset.sum_eq_zero, Nat.mul_zero, Nat.add_zero]
  intro i _
  rw [Nat.div_eq_of_lt (by rw [weight]; omega), Nat.zero_mul]

private theorem multiplier_of_low {list : RingList} (hlow : list.ringStart.toNat + 8 < 2 ^ 8)
    (i : Fin 8) : 0 < multiplier list i := by
  rw [UInt8.lt_iff_toNat_lt, multiplier_toNat, Nat.mod_eq_of_lt (by rw [weight]; omega)]
  exact weight_pos _ _

private theorem ringStart_of_low (s : MultihopState) (h : CountsFit rings)
    (hlow : StartsLow rings) : (neighborList s rings).ringStart.toNat + 8 < 2 ^ 8 := by
  rcases neighborList_cases s h with ⟨-, heq⟩ | ⟨m, hm, hleast, heq⟩
  · rw [heq]
    decide
  · rcases hlow with hnone | ⟨r, hr, hlt⟩
    · rw [hnone] at hm
      exact absurd hm List.not_mem_nil
    · have hne : r ≠ UNKNOWN_RING := by
        rintro rfl
        exact absurd hlt (by decide)
      have hle := hleast r (List.mem_filter.mpr ⟨hr, decide_eq_true hne⟩)
      rw [heq]
      exact lt_of_le_of_lt (Nat.add_le_add_right (UInt8.le_iff_toNat_le.mp hle) 8) hlt

private theorem beats_of_total {rings' : List Ring} (h : CountsFit rings) (h' : CountsFit rings')
    (hlow : (neighborList s rings).ringStart.toNat + 8 < 2 ^ 8)
    (hstart : (neighborList s rings').ringStart = (neighborList s rings).ringStart)
    (hlt : total (closeness (neighborList s rings).ringStart) (known rings) <
      total (closeness (neighborList s rings).ringStart) (known rings')) :
    Beats (neighborList s rings') (neighborList s rings) := by
  intro node node' hnode hnode'
  rw [UInt32.lt_iff_toNat_lt, score_of_low hlow hnode', score_of_low (by rwa [hstart]) hnode,
    weightedSum_neighborList s h, weightedSum_neighborList s h', hstart]
  exact hlt

private theorem ranks_of_low (h : CountsFit rings)
    (hlow : (neighborList s rings).ringStart.toNat + 8 < 2 ^ 8) : Ranks s rings where
  positive i := multiplier_of_low hlow i
  sum node hnode := score_of_low hlow hnode
  below node hnode := by
    have hle := (@score_toNat (neighborList s rings) node hnode).2
    have hgateway : ((neighborList s rings).score GATEWAY_RING).toNat = 2 ^ 32 - 1 := rfl
    rw [UInt32.lt_iff_toNat_lt, hgateway]
    omega
  added ring hknown hin hcount hstart := by
    apply beats_of_total h hcount hlow hstart
    rw [known_append, known_cons hknown]
    have hlt := total_lt_of_added (closeness_pos hin.1 hin.2) (known rings) []
    rwa [List.append_nil] at hlt
  moved before ring after lower hsplit hlt hin hcount hstart := by
    apply beats_of_total h hcount hlow hstart
    have hlower : lower ≠ UNKNOWN_RING := by
      rintro rfl
      have hbound := ring.toNat_lt
      have hlt := UInt8.lt_iff_toNat_lt.mp hlt
      have hval : UNKNOWN_RING.toNat = 255 := rfl
      omega
    obtain ⟨hle, hin⟩ := hin
    generalize (neighborList s rings).ringStart = start at hle hin ⊢
    rw [hsplit, known_append, known_append, known_cons hlower]
    by_cases hring : ring = UNKNOWN_RING
    · -- an unknown neighbor was not in the list at all
      have hnone : known (ring :: after) = known after :=
        List.filter_cons_of_neg (by simpa using hring)
      rw [hnone]
      exact total_lt_of_added (closeness_pos hle hin) _ _
    · rw [known_cons hring]
      exact total_lt_of_moved (closeness_lt hlt hle hin) _ _

end Neighbors

/-- The score ranks a neighbor list by the sum of its weights exactly if it knows no neighbor, or
its lowest one is below ring 248. -/
theorem ranks_iff (s : MultihopState) (rings : List Ring) (h : CountsFit rings) :
    Ranks s rings ↔ StartsLow rings := by
  constructor
  · intro hranks
    by_contra hhigh
    rcases neighborList_cases s h with ⟨hnone, -⟩ | ⟨m, hm, -, heq⟩
    · exact hhigh (Or.inl hnone)
    · have hge : 2 ^ 8 ≤ m.toNat + 8 := by
        by_contra hlt
        exact hhigh (Or.inr ⟨m, List.mem_of_mem_filter hm, not_le.mp hlt⟩)
      have hsum := hranks.sum UNKNOWN_RING (by decide)
      rw [← @score_add_lost (neighborList s rings) UNKNOWN_RING (by decide)] at hsum
      have hlost : ∑ i : Fin 8, weight (neighborList s rings).ringStart i / 2 ^ 8 *
          ((neighborList s rings).counts i).toNat = 0 := by omega
      have hfirst := Finset.sum_eq_zero_iff.mp hlost 0 (Finset.mem_univ 0)
      have hweight : 0 < weight m 0 / 2 ^ 8 := Nat.div_pos hge (by decide)
      have hcount := UInt8.lt_iff_toNat_lt.mp (window_first hm (known_bound h))
      rw [heq] at hfirst
      exact absurd hfirst (Nat.mul_pos hweight hcount).ne'
  · intro hlow
    exact ranks_of_low h (ringStart_of_low s h hlow)

/-- The rings of three neighbors. -/
theorem low_rings_ranked :
    let list := neighborList new [3, 4, 4]
    (list.score 4).toNat = 11 + 2 * 10 ∧ Beats (neighborList new [3, 4, 3]) list := by
  intro list
  have hranks := (ranks_iff new [3, 4, 4] fun r => le_trans List.count_le_length (by decide)).mpr
    (Or.inr ⟨3, by decide, by decide⟩)
  refine ⟨hranks.sum 4 (by decide), ?_⟩
  exact hranks.moved [3, 4] 4 [] 3 rfl (by decide) ⟨by decide, by decide⟩
    (fun r => le_trans List.count_le_length (by decide)) (by decide)

/-- A neighbor in ring 248 weighs nothing, and takes the score of 255 of one in ring 249 that
moves there. -/
theorem ring_248_weighs_nothing :
    ((neighborList new [248]).score 249 = 0 ∧ weightedSum (neighborList new [248]) = 256 ∧
        ¬ Ranks new [248]) ∧
      (neighborList new [248, 249]).score 249 = 255 ∧
        (neighborList new [248, 248]).score 249 = 0 ∧
          ¬ Ranks new [248, 249] := by
  refine ⟨⟨by decide, by decide, ?_⟩, by decide, by decide, ?_⟩
  · intro h
    exact absurd (h.sum 249 (by decide)) (by decide)
  · intro h
    have hmoved := h.moved [248] 249 [] 248 rfl (by decide) ⟨by decide, by decide⟩
      (fun r => le_trans List.count_le_length (by decide)) (by decide)
    exact absurd (hmoved 249 249 (by decide) (by decide)) (by decide)

end LoraMultihop.Multihop.Scores
