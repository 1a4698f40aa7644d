/- digest: The ring of a node over any run of its ring updates and of the calls between them. -/

import LoraMultihop.Multihop.Counts
import LoraMultihop.Multihop.Histogram

set_option autoImplicit false
set_option relaxedAutoImplicit false

namespace LoraMultihop.Multihop.Updates

open LoraMultihop.Net.Params
open LoraMultihop.Multihop.Messages
open LoraMultihop.Multihop.State
open LoraMultihop.Multihop.State.MultihopState
open LoraMultihop.Multihop.Discovery
open LoraMultihop.Multihop.Histogram
open LoraMultihop.Multihop.Counts

inductive Op
  | addNeighbor (neighbor : Ring)
  | resetNeighbors
  | updateRing

/-- A node with the states its ring updates have found, the latest first. -/
structure Track where
  state : MultihopState
  calls : List MultihopState

def Op.exec : Op → Track → Track
  | .addNeighbor neighbor, t => { t with state := t.state.addNeighbor neighbor }
  | .resetNeighbors, t => { t with state := t.state.resetNeighbors }
  | .updateRing, t => ⟨t.state.updateRingFromNeighbors, t.state :: t.calls⟩

def runOps (ops : List Op) (t : Track) : Track := ops.foldl (fun t op => op.exec t) t

/-- A call that finds no neighbor ring below the node's. -/
def Quiet (s : MultihopState) : Prop := s.ring ≤ lowestRing s.neighbors

def added (ops : List Op) : List Ring :=
  ops.filterMap fun
    | .addNeighbor neighbor => some neighbor
    | .resetNeighbors | .updateRing => none

/-- The lowest ring of the neighbor list is the least known ring among `rings`. -/
def ShowsLowest (s : MultihopState) (rings : List Ring) : Prop :=
  (∀ r ∈ rings, lowestRing s.neighbors ≤ r) ∧
    (lowestRing s.neighbors ≠ UNKNOWN_RING → lowestRing s.neighbors ∈ rings)

/-- The node holds its ring: the counter stands for so many quiet calls, the latest ones. -/
structure Holds (t : Track) : Prop where
  address : t.state.address ≠ GATEWAY_ADDR
  rounds : t.state.roundsWithoutLower.toNat ≤ 2
  positive : t.state.ring ≠ 0
  quiet : t.state.ring = UNKNOWN_RING ∨
    t.state.roundsWithoutLower.toNat ≤ t.calls.length ∧
      ∀ v ∈ t.calls.take t.state.roundsWithoutLower.toNat, Quiet v

private theorem le_unknown (ring : Ring) : ring ≤ UNKNOWN_RING :=
  UInt8.le_iff_toNat_le.mpr (Nat.lt_succ_iff.mp ring.toNat_lt)

private theorem ring_succ_ne_zero {ring : Ring} (h : ring ≠ UNKNOWN_RING) : ring + 1 ≠ 0 := by
  intro hzero
  have hsucc := ring_add_one h
  rw [hzero] at hsucc
  exact absurd hsucc (by simp)

section Step

variable {t : Track}

private theorem rounds_lt (h : Holds t) :
    t.state.roundsWithoutLower < RING_HYSTERESIS_THRESHOLD := by
  rw [UInt8.lt_iff_toNat_lt]
  exact Nat.lt_succ_of_le h.rounds

private theorem Holds.of_neighbors (h : Holds t) (list : RingList) :
    Holds { t with state := { t.state with neighbors := list } } :=
  ⟨h.address, h.rounds, h.positive, h.quiet⟩

private theorem Holds.addNeighbor (h : Holds t) (neighbor : Ring) :
    Holds ((Op.addNeighbor neighbor).exec t) := by
  obtain ⟨list, hlist⟩ := addNeighbors_kept [neighbor] t.state
  have hlist : t.state.addNeighbor neighbor = { t.state with neighbors := list } := hlist
  rw [Op.exec, hlist]
  exact h.of_neighbors list

private theorem Holds.quiet_more (h : Holds t) (hge : Quiet t.state) :
    t.state.ring = UNKNOWN_RING ∨
      t.state.roundsWithoutLower.toNat + 1 ≤ (t.state :: t.calls).length ∧
        ∀ v ∈ (t.state :: t.calls).take (t.state.roundsWithoutLower.toNat + 1), Quiet v := by
  rcases h.quiet with hunknown | ⟨hlen, hquiet⟩
  · exact Or.inl hunknown
  · refine Or.inr ⟨Nat.succ_le_succ hlen, ?_⟩
    intro v hv
    rw [List.take_succ_cons] at hv
    rcases List.mem_cons.mp hv with rfl | hv
    · exact hge
    · exact hquiet v hv

private theorem Holds.updateRing (h : Holds t) : Holds (Op.updateRing.exec t) := by
  have hone : (t.state.roundsWithoutLower + 1).toNat = t.state.roundsWithoutLower.toNat + 1 :=
    (add_one_ne_zero (by have := h.rounds; omega)).1
  have hthree : RING_HYSTERESIS_THRESHOLD.toNat = 3 := rfl
  rcases updateRing_cases h.address with ⟨hlow, hs⟩ | ⟨hge, hlt, hs⟩ | ⟨hge, hle, hs⟩
  · rw [Op.exec, hs]
    exact ⟨h.address, by simp, ring_succ_ne_zero (ne_unknown_of_lt hlow), Or.inr (by simp)⟩
  · have hlt := UInt8.lt_iff_toNat_lt.mp hlt
    rw [Op.exec, hs]
    refine ⟨h.address, ?_, h.positive, ?_⟩
    · dsimp only
      omega
    · dsimp only
      rw [hone]
      exact h.quiet_more hge
  · rw [Op.exec, hs]
    by_cases hnone : lowestRing t.state.neighbors = UNKNOWN_RING
    · refine ⟨h.address, by simp, ?_, Or.inl (if_pos hnone)⟩
      dsimp only
      rw [if_pos hnone]
      decide
    · refine ⟨h.address, by simp, ?_, Or.inr (by simp)⟩
      dsimp only
      rw [if_neg hnone]
      exact ring_succ_ne_zero hnone

private theorem Holds.exec (h : Holds t) (op : Op) : Holds (op.exec t) := by
  cases op with
  | addNeighbor neighbor => exact h.addNeighbor neighbor
  | resetNeighbors => exact h.of_neighbors RingList.empty
  | updateRing => exact h.updateRing

private theorem Holds.run (h : Holds t) (ops : List Op) : Holds (runOps ops t) := by
  induction ops generalizing t with
  | nil => exact h
  | cons op ops ih => exact ih (h.exec op)

private theorem Holds.rise (h : Holds t)
    (hrise : t.state.ring < t.state.updateRingFromNeighbors.ring) :
    2 ≤ t.calls.length ∧ ∀ v ∈ t.state :: t.calls.take 2, Quiet v := by
  have hone : (t.state.roundsWithoutLower + 1).toNat = t.state.roundsWithoutLower.toNat + 1 :=
    (add_one_ne_zero (by have := h.rounds; omega)).1
  have hthree : RING_HYSTERESIS_THRESHOLD.toNat = 3 := rfl
  have hrise := UInt8.lt_iff_toNat_lt.mp hrise
  rcases updateRing_cases h.address with ⟨hlow, hs⟩ | ⟨-, -, hs⟩ | ⟨hge, hle, hs⟩
  · -- a lower ring found never lifts the ring
    have hlt := UInt8.lt_iff_toNat_lt.mp hlow
    have hsucc := ring_add_one (ne_unknown_of_lt hlow)
    rw [hs] at hrise
    dsimp only at hrise
    omega
  · rw [hs] at hrise
    exact absurd hrise (Nat.lt_irrefl _)
  · have hle := UInt8.le_iff_toNat_le.mp hle
    have htwo : t.state.roundsWithoutLower.toNat = 2 := by
      have := h.rounds
      omega
    rcases h.quiet with hunknown | ⟨hlen, hquiet⟩
    · have hbound := t.state.updateRingFromNeighbors.ring.toNat_lt
      have hval : UNKNOWN_RING.toNat = 255 := rfl
      rw [hunknown, hval] at hrise
      omega
    · rw [htwo] at hlen hquiet
      refine ⟨hlen, ?_⟩
      intro v hv
      rcases List.mem_cons.mp hv with rfl | hv
      · exact hge
      · exact hquiet v hv

private theorem Holds.near (h : Holds t) (hknown : lowestRing t.state.neighbors ≠ UNKNOWN_RING) :
    t.state.updateRingFromNeighbors.ring.toNat ≤ (lowestRing t.state.neighbors).toNat + 1 := by
  have hsucc := ring_add_one hknown
  rcases updateRing_cases h.address with ⟨-, hs⟩ | ⟨hge, -, hs⟩ | ⟨-, -, hs⟩
  · rw [hs]
    exact le_of_eq hsucc
  · have hge := UInt8.le_iff_toNat_le.mp hge
    rw [hs]
    dsimp only
    omega
  · rw [hs]
    dsimp only
    rw [if_neg hknown]
    exact le_of_eq hsucc

end Step

section Shown

private theorem lowestRing_histogramOf {rings : List Ring} (hbound : ∀ k, tally rings k ≤ 255) :
    rings = [] ∧ lowestRing (histogramOf rings) = UNKNOWN_RING ∨
      lowestRing (histogramOf rings) ∈ rings ∧ ∀ r ∈ rings, lowestRing (histogramOf rings) ≤ r := by
  rcases histogramOf_cases rings with ⟨rfl, -⟩ | ⟨m, hm, hleast, heq⟩
  · exact Or.inl ⟨rfl, by decide⟩
  · have hfirst : 0 < (window m rings).counts 0 := window_first hm hbound
    have hlow : lowestRing (histogramOf rings) = m := by
      rw [heq, lowestRing, List.finRange_succ, List.find?_cons_of_pos (by simpa using hfirst)]
      simp [window]
    rw [hlow]
    exact Or.inr ⟨hm, hleast⟩

private theorem runOps_neighbors {ops : List Op} (hops : .resetNeighbors ∉ ops) (t : Track) :
    (runOps ops t).state.neighbors = (addNeighbors (added ops) t.state).neighbors := by
  induction ops generalizing t with
  | nil => rfl
  | cons op ops ih =>
      have hrest := ih (fun hmem => hops (List.mem_cons_of_mem _ hmem)) (op.exec t)
      have hcalls (s s' : MultihopState) (h : s.neighbors = s'.neighbors) :
          (addNeighbors (added ops) s).neighbors = (addNeighbors (added ops) s').neighbors := by
        rw [addNeighbors_neighbors, addNeighbors_neighbors, h]
      cases op with
      | addNeighbor neighbor => exact hrest
      | resetNeighbors => exact absurd List.mem_cons_self hops
      | updateRing =>
          refine Eq.trans hrest (hcalls _ _ ?_)
          simp only [Op.exec, updateRingFromNeighbors]
          split_ifs <;> rfl

private theorem shows_lowest {ops : List Op} (hops : .resetNeighbors ∉ ops)
    (hcount : ∀ r, (added ops).count r ≤ 255) (t : Track) :
    ShowsLowest (runOps ops (Op.resetNeighbors.exec t)).state (added ops) := by
  have hlist : (runOps ops (Op.resetNeighbors.exec t)).state.neighbors =
      histogramOf (known (added ops)) := by
    rw [runOps_neighbors hops]
    exact neighbors_eq t.state hcount
  rw [ShowsLowest, hlist]
  rcases lowestRing_histogramOf (known_bound hcount) with ⟨hnil, hnone⟩ | ⟨hmem, hleast⟩
  · rw [hnone]
    refine ⟨?_, fun hne => absurd rfl hne⟩
    intro r hr
    have hr : r = UNKNOWN_RING := by
      by_contra hne
      have hin : r ∈ known (added ops) := List.mem_filter.mpr ⟨hr, decide_eq_true hne⟩
      rw [hnil] at hin
      exact absurd hin List.not_mem_nil
    rw [hr]
    exact UInt8.le_refl _
  · refine ⟨?_, fun _ => List.mem_of_mem_filter hmem⟩
    intro r hr
    by_cases hne : r = UNKNOWN_RING
    · rw [hne]
      exact le_unknown _
    · exact hleast r (List.mem_filter.mpr ⟨hr, decide_eq_true hne⟩)

end Shown

/-- After any operations the counter is below its threshold and the ring is not 0; a further call
lifts the ring only after two more quiet calls, and leaves it at most one above the lowest ring in
the neighbor list, which is the lowest one added as long as no counter has wrapped. -/
theorem ring_holds (s : MultihopState) (ha : s.address ≠ GATEWAY_ADDR)
    (hring : s.ring = UNKNOWN_RING) (hrounds : s.roundsWithoutLower < RING_HYSTERESIS_THRESHOLD)
    (ops : List Op) :
    let t := runOps ops ⟨s, []⟩
    t.state.roundsWithoutLower < RING_HYSTERESIS_THRESHOLD ∧ t.state.ring ≠ 0 ∧
      (t.state.ring < t.state.updateRingFromNeighbors.ring →
        2 ≤ t.calls.length ∧ ∀ v ∈ t.state :: t.calls.take 2, Quiet v) ∧
      (lowestRing t.state.neighbors ≠ UNKNOWN_RING →
        t.state.updateRingFromNeighbors.ring.toNat ≤ (lowestRing t.state.neighbors).toNat + 1) ∧
      ∀ later, .resetNeighbors ∉ later → (∀ r, (added later).count r ≤ 255) →
        ShowsLowest (runOps later (Op.resetNeighbors.exec t)).state (added later) := by
  intro t
  have hstart : Holds ⟨s, []⟩ := by
    refine ⟨ha, ?_, ?_, Or.inl hring⟩
    · exact Nat.lt_succ_iff.mp (UInt8.lt_iff_toNat_lt.mp hrounds)
    · rw [hring]
      decide
  have h : Holds t := hstart.run ops
  exact ⟨rounds_lt h, h.positive, h.rise, h.near, fun later hops hcount =>
    shows_lowest hops hcount t⟩

theorem ring_holds_new :
    let t := runOps [.addNeighbor 3, .updateRing, .resetNeighbors, .addNeighbor 6, .updateRing,
      .updateRing] ⟨(new).withAddress 5, []⟩
    (t.state.ring = 4 ∧ t.state.updateRingFromNeighbors.ring = 7) ∧
      2 ≤ t.calls.length ∧ ∀ v ∈ t.state :: t.calls.take 2, Quiet v := by
  have h := ring_holds ((new).withAddress 5) (by decide) (by decide) (by decide)
    [.addNeighbor 3, .updateRing, .resetNeighbors, .addNeighbor 6, .updateRing, .updateRing]
  exact ⟨by decide, h.2.2.1 (by decide)⟩

end LoraMultihop.Multihop.Updates
