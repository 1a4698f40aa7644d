/- digest: The superframe clock: cached window, current slot, and the time of a slot. -/

import Mathlib.Tactic
import LoraMultihop.Foundation.Periodic
import LoraMultihop.Net.Params

set_option autoImplicit false
set_option relaxedAutoImplicit false

namespace LoraMultihop.Link.Mac

open LoraMultihop.Foundation.Periodic
open LoraMultihop.Net.Params

def nextTimeInterval (now interval : UInt32) : UInt32 :=
  if interval = 0 then 0
  else
    let remainder := now % interval
    if remainder = 0 then now else now - remainder + interval

def afterWindow (w : MacState) (now : UInt32) : Bool := decide (w.windowEnd ≤ now)

def inActiveWindow (w : MacState) (now : UInt32) : Bool :=
  decide (w.windowStart ≤ now) && decide (now < w.windowEnd)

/-- The update of `MAC_STATE` that `init`, `recv`, `flush` and `current_slot` all start with. -/
def refreshWindow (mac : MacParams) (w : MacState) (now : UInt32) : MacState :=
  if afterWindow w now then
    let windowStart := nextTimeInterval now mac.superframeFrequencyS
    ⟨windowStart, windowStart + mac.windowLength⟩
  else w

/-- The slot index in a window; the cast to `int16_t` is the signed remainder. -/
def slotOf (mac : MacParams) (w : MacState) (now : UInt32) : Int :=
  if inActiveWindow w now then
    Int.bmod ((now - w.windowStart) / mac.slotDuration).toNat 65536
  else -1

def currentSlot (mac : MacParams) (w : MacState) (now : UInt32) : Int × MacState :=
  let w' := refreshWindow mac w now
  (slotOf mac w' now, w')

def timeLeftInSlot (mac : MacParams) (w : MacState) (now : UInt32) : UInt32 :=
  mac.slotDuration - (now - w.windowStart) % mac.slotDuration

/-- The offset `epoch_and_offset` stores for slot `n`, with `w` already refreshed. -/
def slotOffset (mac : MacParams) (w : MacState) (current : Int) (n : UInt8) (now : UInt32) :
    UInt32 :=
  if current < 0 ∨ (n.toNat : Int) < current then
    nextTimeInterval now mac.superframeFrequencyS - now + n.toUInt32 * mac.slotDuration
  else
    let slotsLeft := n.toNat - current.toNat
    if slotsLeft = 0 then 0
    else if 1 < slotsLeft then
      timeLeftInSlot mac w now + UInt32.ofNat (slotsLeft - 1) * mac.slotDuration
    else timeLeftInSlot mac w now

section Readings

variable {mac : MacParams} {w : MacState} {now : UInt32}

theorem nextTimeInterval_of_dvd {interval : UInt32} (hi : 0 < interval.toNat)
    (hd : interval.toNat ∣ now.toNat) :
    nextTimeInterval now interval = now := by
  have hne : interval ≠ 0 := by
    rintro rfl
    simp at hi
  have hrem : now % interval = 0 :=
    UInt32.toNat_inj.mp (by rw [UInt32.toNat_mod, Nat.mod_eq_zero_of_dvd hd]; rfl)
  rw [nextTimeInterval, if_neg hne]
  dsimp only
  rw [if_pos hrem]

theorem nextTimeInterval_of_not_dvd {interval : UInt32} (hi : 0 < interval.toNat)
    (hd : ¬ interval.toNat ∣ now.toNat) :
    (nextTimeInterval now interval).toNat =
      (now.toNat - now.toNat % interval.toNat + interval.toNat) % 2 ^ 32 := by
  have hne : interval ≠ 0 := by
    rintro rfl
    simp at hi
  have hrem : now % interval ≠ 0 := by
    intro hz
    apply hd
    apply Nat.dvd_of_mod_eq_zero
    rw [← UInt32.toNat_mod, hz]
    rfl
  have hle : now % interval ≤ now := by
    rw [UInt32.le_iff_toNat_le, UInt32.toNat_mod]
    exact Nat.mod_le _ _
  rw [nextTimeInterval, if_neg hne]
  dsimp only
  rw [if_neg hrem, UInt32.toNat_add, UInt32.toNat_sub_of_le _ _ hle, UInt32.toNat_mod]

theorem nextTimeInterval_toNat {interval : UInt32} (hi : 0 < interval.toNat)
    (hw : now.toNat + interval.toNat < 2 ^ 32) :
    (nextTimeInterval now interval).toNat = nextMultiple interval.toNat now.toNat := by
  have hle := Nat.mod_le now.toNat interval.toNat
  by_cases hd : interval.toNat ∣ now.toNat
  · rw [nextTimeInterval_of_dvd hi hd, nextMultiple, if_pos (Nat.mod_eq_zero_of_dvd hd)]
  · have hrem : now.toNat % interval.toNat ≠ 0 := fun hz => hd (Nat.dvd_of_mod_eq_zero hz)
    rw [nextTimeInterval_of_not_dvd hi hd, nextMultiple, if_neg hrem]
    exact Nat.mod_eq_of_lt (by omega)

private theorem nextTimeInterval_wrapped {interval : UInt32} (hi : 0 < interval.toNat)
    (h : nextTimeInterval now interval < now) :
    ¬ interval.toNat ∣ now.toNat ∧ (nextTimeInterval now interval).toNat + 2 ^ 32 =
      now.toNat - now.toNat % interval.toNat + interval.toNat := by
  have hlt := UInt32.lt_iff_toNat_lt.mp h
  have hd : ¬ interval.toNat ∣ now.toNat := by
    intro hd
    rw [nextTimeInterval_of_dvd hi hd] at hlt
    exact absurd hlt (Nat.lt_irrefl _)
  have hmod := Nat.mod_lt now.toNat hi
  have hnow := now.toNat_lt
  have hinterval := interval.toNat_lt
  have hsum := nextTimeInterval_of_not_dvd hi hd
  exact ⟨hd, by omega⟩

theorem nextTimeInterval_stays {r interval : UInt32} (hi : 0 < interval.toNat)
    (h : nextTimeInterval now interval < now) (hr : now ≤ r) :
    nextTimeInterval r interval = nextTimeInterval now interval := by
  obtain ⟨hd, hsum⟩ := nextTimeInterval_wrapped hi h
  have hr := UInt32.le_iff_toNat_le.mp hr
  have hmod := Nat.mod_le now.toNat interval.toNat
  have hrem := Nat.mod_lt now.toNat hi
  have hrlt := r.toNat_lt
  have hperiod : r.toNat - r.toNat % interval.toNat = now.toNat - now.toNat % interval.toNat :=
    sub_mod_eq_of_inside (by omega) (by omega)
  have hd' : ¬ interval.toNat ∣ r.toNat := by
    intro hdvd
    rw [Nat.mod_eq_zero_of_dvd hdvd] at hperiod
    exact hd (Nat.dvd_of_mod_eq_zero (by omega))
  apply UInt32.toNat_inj.mp
  rw [nextTimeInterval_of_not_dvd hi hd', nextTimeInterval_of_not_dvd hi hd, hperiod]

private theorem afterWindow_iff : afterWindow w now = true ↔ w.windowEnd.toNat ≤ now.toNat := by
  simp [afterWindow, UInt32.le_iff_toNat_le]

theorem inActiveWindow_iff :
    inActiveWindow w now = true ↔
      w.windowStart.toNat ≤ now.toNat ∧ now.toNat < w.windowEnd.toNat := by
  simp [inActiveWindow, UInt32.le_iff_toNat_le, UInt32.lt_iff_toNat_lt]

theorem refreshWindow_of_before (h : now.toNat < w.windowEnd.toNat) :
    refreshWindow mac w now = w := by
  have hn : ¬ afterWindow w now = true := by rw [afterWindow_iff]; omega
  rw [refreshWindow, if_neg hn]

theorem refreshWindow_over (h : w.windowEnd ≤ now) :
    refreshWindow mac w now =
      ⟨nextTimeInterval now mac.superframeFrequencyS,
        nextTimeInterval now mac.superframeFrequencyS + mac.windowLength⟩ := by
  rw [refreshWindow, if_pos (afterWindow_iff.mpr (UInt32.le_iff_toNat_le.mp h))]

/-- A cached window that starts on a superframe boundary and has the full length. -/
structure Aligned (mac : MacParams) (w : MacState) : Prop where
  boundary : mac.superframeFrequencyS.toNat ∣ w.windowStart.toNat
  length : w.windowEnd.toNat = w.windowStart.toNat + mac.windowLength.toNat

/-- The superframe is not shorter than its window, and neither is empty. -/
structure Scheduled (mac : MacParams) : Prop where
  positive : 0 < mac.windowLength.toNat
  fits : mac.windowLength.toNat ≤ mac.superframeFrequencyS.toNat

/-- A reading two superframes below the wrap of the clock. -/
def Early (mac : MacParams) (now : UInt32) : Prop :=
  now.toNat + 2 * mac.superframeFrequencyS.toNat < 2 ^ 32

theorem refreshWindow_of_after (hs : Scheduled mac) (he : Early mac now)
    (h : w.windowEnd.toNat ≤ now.toNat) :
    Aligned mac (refreshWindow mac w now) ∧
      (refreshWindow mac w now).windowStart.toNat =
        nextMultiple mac.superframeFrequencyS.toNat now.toNat := by
  have hpos := hs.positive
  have hfits := hs.fits
  unfold Early at he
  have hn : afterWindow w now = true := afterWindow_iff.mpr h
  have hstart : (nextTimeInterval now mac.superframeFrequencyS).toNat =
      nextMultiple mac.superframeFrequencyS.toNat now.toNat :=
    nextTimeInterval_toNat (by omega) (by omega)
  have hlt := nextMultiple_lt (p := mac.superframeFrequencyS.toNat) (by omega) now.toNat
  rw [refreshWindow, if_pos hn]
  refine ⟨⟨?_, ?_⟩, hstart⟩
  · simp only [hstart]
    exact dvd_nextMultiple _ _
  · simp only [UInt32.toNat_add]
    omega

theorem Aligned.refresh (hs : Scheduled mac) (he : Early mac now) (hw : Aligned mac w) :
    Aligned mac (refreshWindow mac w now) := by
  by_cases h : w.windowEnd.toNat ≤ now.toNat
  · exact (refreshWindow_of_after hs he h).1
  · rw [refreshWindow_of_before (by omega)]
    exact hw

theorem Aligned.offset (hs : Scheduled mac) (hw : Aligned mac w)
    (ha : inActiveWindow w now = true) :
    now.toNat % mac.superframeFrequencyS.toNat = now.toNat - w.windowStart.toNat ∧
      now.toNat % mac.superframeFrequencyS.toNat < mac.windowLength.toNat := by
  obtain ⟨hlo, hhi⟩ := inActiveWindow_iff.mp ha
  rw [hw.length] at hhi
  have hmod := mod_of_window hw.boundary hlo hhi hs.fits
  exact ⟨hmod, by omega⟩

theorem div_slotDuration_lt {x : Nat} (hx : x < mac.windowLength.toNat) :
    x / mac.slotDuration.toNat < mac.superframeSlotCount.toNat := by
  have hle : mac.windowLength.toNat ≤ mac.slotDuration.toNat * mac.superframeSlotCount.toNat := by
    rw [MacParams.windowLength, UInt32.toNat_mul, UInt8.toNat_toUInt32]
    exact Nat.mod_le _ _
  exact Nat.div_lt_of_lt_mul (lt_of_lt_of_le hx hle)

theorem slotOf_inactive (h : ¬ inActiveWindow w now = true) : slotOf mac w now = -1 := by
  rw [slotOf, if_neg h]

theorem slotOf_active
    (hlen : w.windowEnd.toNat = w.windowStart.toNat + mac.windowLength.toNat)
    (ha : inActiveWindow w now = true) :
    slotOf mac w now =
      (((now.toNat - w.windowStart.toNat) / mac.slotDuration.toNat : Nat) : Int) := by
  obtain ⟨hlo, hhi⟩ := inActiveWindow_iff.mp ha
  have hcount := mac.superframeSlotCount.toNat_lt
  have hlt : now.toNat - w.windowStart.toNat < mac.windowLength.toNat := by omega
  have hslot := div_slotDuration_lt hlt
  have hsub : (now - w.windowStart).toNat = now.toNat - w.windowStart.toNat :=
    UInt32.toNat_sub_of_le _ _ (UInt32.le_iff_toNat_le.mpr hlo)
  rw [slotOf, if_pos ha, UInt32.toNat_div, hsub]
  generalize (now.toNat - w.windowStart.toNat) / mac.slotDuration.toNat = slot at hslot ⊢
  exact Int.bmod_eq_of_le (by omega) (by omega)

theorem Aligned.slotOf_eq (hs : Scheduled mac) (hw : Aligned mac w)
    (ha : inActiveWindow w now = true) :
    slotOf mac w now =
      ((now.toNat % mac.superframeFrequencyS.toNat / mac.slotDuration.toNat : Nat) : Int) := by
  rw [slotOf_active hw.length ha, (hw.offset hs ha).1]

end Readings

end LoraMultihop.Link.Mac
