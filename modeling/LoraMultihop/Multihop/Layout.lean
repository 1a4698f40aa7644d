/- digest: How the downstream windows of the rings lie in a superframe. -/

import LoraMultihop.Multihop.Allocation

set_option autoImplicit false
set_option relaxedAutoImplicit false

namespace LoraMultihop.Multihop.Layout

open LoraMultihop.Net.Params
open LoraMultihop.Multihop.Messages
open LoraMultihop.Multihop.State
open LoraMultihop.Multihop.Sending
open LoraMultihop.Multihop.Slots
open LoraMultihop.Multihop.Allocation

/-- `(superframe_slot_count - 1) / reuse_distance`. -/
def windowSize (mac : MacParams) : Nat :=
  (mac.superframeSlotCount.toNat - 1) / mac.reuseDistance.toNat

/-- The slot at which `prepare_clusterhead` lets the window of a node start. -/
def windowStart (n : Node) : Nat := (prepareClusterhead n).state.downstreamStartSlot.toNat

def windowSlots (n : Node) : Finset Nat :=
  Finset.Ico (windowStart n) (windowStart n + windowSize n.mac)

/-- `f` is a relay: its own window is that of `n`, and it has one of the slots that the clusterhead
`m` can give. -/
structure RelaysFor (n m f : Node) : Prop where
  mac : f.mac = n.mac
  own : f.state.downstreamStartSlot.toNat = windowStart n
  upstream : f.state.upstreamStartSlot.toNat = windowStart m
  relative : f.state.upstreamRelativeSlot.toNat < windowSize n.mac

theorem blocks_ordered {a b w : Nat} (h : a < b) : 1 + a * w + w ≤ 1 + b * w := by
  have hle : (a + 1) * w ≤ b * w := Nat.mul_le_mul_right _ h
  rw [Nat.add_mul, Nat.one_mul] at hle
  omega

section Nodes

variable {n m f : Node}

theorem windowed (hreuse : 1 ≤ n.mac.reuseDistance) (hsize : 1 ≤ windowSize n.mac) :
    Windowed n.mac := by
  refine ⟨hreuse, ?_⟩
  rw [UInt8.le_iff_toNat_le]
  change 1 ≤ _
  by_contra hcount
  rw [windowSize, show n.mac.superframeSlotCount.toNat - 1 = 0 by omega, Nat.zero_div] at hsize
  omega

def windowIndex (n : Node) : Nat :=
  n.mac.reuseDistance.toNat - 1 - n.state.ring.toNat % n.mac.reuseDistance.toNat

theorem windowStart_eq (h : Windowed n.mac) :
    windowStart n = 1 + windowIndex n * windowSize n.mac ∧
      windowIndex n * windowSize n.mac + windowSize n.mac ≤
        n.mac.superframeSlotCount.toNat - 1 := by
  have heq := downstreamStart_eq h n.state.ring
  dsimp only at heq
  rw [vtdmaWindowSize_toNat h, Nat.add_mul, Nat.one_mul] at heq
  exact heq

theorem sendSlot_toNat (h : Windowed n.mac) (hsize : 1 ≤ windowSize n.mac) (hmac : f.mac = n.mac)
    (hown : f.state.downstreamStartSlot.toNat = windowStart n) :
    (sendSlot f).toNat = windowStart n + windowSize n.mac - 1 := by
  obtain ⟨hstart, hfit⟩ := windowStart_eq h
  have hlt := n.mac.superframeSlotCount.toNat_lt
  have hone : (1 : UInt8).toNat = 1 := rfl
  have hw : (vtdmaWindowSize f.mac).toNat = windowSize n.mac := by
    rw [hmac]
    exact vtdmaWindowSize_toNat h
  have hsum : (f.state.downstreamStartSlot + vtdmaWindowSize f.mac).toNat =
      windowStart n + windowSize n.mac := by
    rw [UInt8.toNat_add, hown, hw]
    omega
  rw [sendSlot, UInt8.toNat_sub_of_le, hsum, hone]
  rw [UInt8.le_iff_toNat_le, hsum, hone]
  omega

private theorem RelaysFor.mySlot_ge (hf : RelaysFor n m f) (hm : Windowed m.mac)
    (hmac : m.mac = n.mac) : windowStart m ≤ (mySlot f.state).toNat := by
  obtain ⟨hstart, hfit⟩ := windowStart_eq hm
  rw [hmac] at hstart hfit
  have hrel := hf.relative
  have hcount := n.mac.superframeSlotCount.toNat_lt
  rw [mySlot, UInt8.toNat_add, hf.upstream]
  omega

private theorem windows_disjoint (hn : Windowed n.mac) (hm : Windowed m.mac) (hmac : m.mac = n.mac)
    (hne : windowIndex n ≠ windowIndex m) : Disjoint (windowSlots n) (windowSlots m) := by
  rw [Finset.disjoint_left]
  intro slot hslot hslot'
  simp only [windowSlots, Finset.mem_Ico, (windowStart_eq hn).1, (windowStart_eq hm).1,
    hmac] at hslot hslot'
  rcases lt_or_gt_of_ne hne with hlt | hlt
  · have := blocks_ordered (w := windowSize n.mac) hlt
    omega
  · have := blocks_ordered (w := windowSize n.mac) hlt
    omega

theorem windowIndex_eq_iff (hreuse : 1 ≤ n.mac.reuseDistance) (hmac : m.mac = n.mac) :
    windowIndex n = windowIndex m ↔ n.state.ring % n.mac.reuseDistance =
      m.state.ring % n.mac.reuseDistance := by
  have hr := UInt8.le_iff_toNat_le.mp hreuse
  have hone : (1 : UInt8).toNat = 1 := rfl
  have hn := Nat.mod_lt n.state.ring.toNat (show 0 < n.mac.reuseDistance.toNat by omega)
  have hm := Nat.mod_lt m.state.ring.toNat (show 0 < n.mac.reuseDistance.toNat by omega)
  rw [windowIndex, windowIndex, hmac, ← UInt8.toNat_inj, UInt8.toNat_mod, UInt8.toNat_mod]
  omega

private theorem windowIndex_lt (hmac : m.mac = n.mac) (hlt : m.state.ring < n.state.ring)
    (hreuse : n.state.ring < n.mac.reuseDistance) : windowIndex n < windowIndex m := by
  have hlt := UInt8.lt_iff_toNat_lt.mp hlt
  have hr := UInt8.lt_iff_toNat_lt.mp hreuse
  rw [windowIndex, windowIndex, hmac, Nat.mod_eq_of_lt hr, Nat.mod_eq_of_lt (by omega)]
  omega

end Nodes

/-- The windows lie behind the advertising slot, they coincide or are disjoint as the rings modulo
the reuse distance do, and a relay is done with its own window before its upstream slot. -/
theorem windows_laid_out (n m : Node) (hmac : m.mac = n.mac) (hreuse : 1 ≤ n.mac.reuseDistance)
    (hsize : 1 ≤ windowSize n.mac) :
    ((vtdmaWindowSize n.mac).toNat = windowSize n.mac ∧
        windowStart n = 1 + windowIndex n * windowSize n.mac ∧ 1 ≤ windowStart n ∧
        windowStart n + windowSize n.mac - 1 ≤ n.mac.superframeSlotCount.toNat - 1 ∧
        (sendSlot (prepareClusterhead n)).toNat = windowStart n + windowSize n.mac - 1) ∧
      (n.state.ring % n.mac.reuseDistance ≠ m.state.ring % n.mac.reuseDistance →
        Disjoint (windowSlots n) (windowSlots m)) ∧
      (n.state.ring % n.mac.reuseDistance = m.state.ring % n.mac.reuseDistance →
        windowSlots n = windowSlots m) ∧
      (m.state.ring < n.state.ring → n.state.ring < n.mac.reuseDistance →
        windowStart n + windowSize n.mac - 1 < windowStart m ∧
          ∀ f : Node, RelaysFor n m f → (sendSlot f).toNat < (mySlot f.state).toNat ∧
            ∀ slot relative, listensTo slot f = some relative → slot < (mySlot f.state).toNat) := by
  have hn := windowed hreuse hsize
  have hm : Windowed m.mac := hmac ▸ hn
  obtain ⟨hstart, hfit⟩ := windowStart_eq hn
  obtain ⟨hstart', hfit'⟩ := windowStart_eq hm
  rw [hmac] at hstart' hfit'
  refine ⟨⟨vtdmaWindowSize_toNat hn, hstart, ?_, ?_, sendSlot_toNat hn hsize rfl rfl⟩, ?_, ?_, ?_⟩
  · omega
  · omega
  · intro hne
    exact windows_disjoint hn hm hmac fun heq =>
      hne ((windowIndex_eq_iff hreuse hmac).mp heq)
  · intro heq
    have hindex := (windowIndex_eq_iff hreuse hmac).mpr heq
    rw [windowSlots, windowSlots, hmac, hstart, hstart', hindex]
  · intro hlt hring
    have hbefore := blocks_ordered (w := windowSize n.mac) (windowIndex_lt hmac hlt hring)
    refine ⟨by omega, ?_⟩
    intro f hf
    have hlast := sendSlot_toNat hn hsize hf.mac hf.own
    have hmine := hf.mySlot_ge hm hmac
    refine ⟨by omega, ?_⟩
    intro slot relative hlisten
    rw [listensTo] at hlisten
    split_ifs at hlisten with hout
    push Not at hout
    omega

/-- A relay of ring 1, with a slot of its own in the window of the gateway. -/
def ringOneRelay : Node :=
  let n := prepareClusterhead ringOneHead
  { n with state := { n.state with upstreamStartSlot := 15, upstreamRelativeSlot := 2 } }

def ringZeroHead : Node := { ringOneHead with state := { ringOneHead.state with ring := 0 } }

theorem windows_laid_out_setup :
    (windowStart ringOneHead = 8 ∧ windowStart ringZeroHead = 15) ∧
      ∀ slot relative, listensTo slot ringOneRelay = some relative →
        slot < (mySlot ringOneRelay.state).toNat := by
  have h := windows_laid_out ringOneHead ringZeroHead rfl (by decide) (by decide)
  exact ⟨by decide, ((h.2.2.2 (by decide) (by decide)).2 ringOneRelay
    ⟨rfl, by decide, by decide, by decide⟩).2⟩

end LoraMultihop.Multihop.Layout
