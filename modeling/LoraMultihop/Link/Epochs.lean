/- digest: The epoch stored for a slot, and the slot found on waking at it. -/

import Mathlib.Tactic
import LoraMultihop.Link.Windows

set_option autoImplicit false
set_option relaxedAutoImplicit false

namespace LoraMultihop.Link.Epochs

open LoraMultihop.Foundation.Periodic
open LoraMultihop.Net.Params
open LoraMultihop.Link.Mac
open LoraMultihop.Link.Layer
open LoraMultihop.Link.Windows

section Epoch

variable {mac : MacParams} {w : MacState} {now t : UInt32} {n : UInt8}

/-- A reading so far below the wrap that four superframes and an exact window still follow it. -/
def Far (mac : MacParams) (now : UInt32) : Prop :=
  now.toNat + 4 * mac.superframeFrequencyS.toNat +
    mac.slotDuration.toNat * mac.superframeSlotCount.toNat < 2 ^ 32

private theorem Far.windowLength (hf : Far mac now) :
    mac.windowLength.toNat = mac.slotDuration.toNat * mac.superframeSlotCount.toNat := by
  unfold Far at hf
  rw [MacParams.windowLength, UInt32.toNat_mul, UInt8.toNat_toUInt32]
  exact Nat.mod_eq_of_lt (by omega)

private theorem Far.slot_le (hf : Far mac now) (hn : n < mac.superframeSlotCount) :
    n.toNat * mac.slotDuration.toNat + mac.slotDuration.toNat ≤ mac.windowLength.toNat := by
  have hlt : n.toNat + 1 ≤ mac.superframeSlotCount.toNat := UInt8.lt_iff_toNat_lt.mp hn
  calc n.toNat * mac.slotDuration.toNat + mac.slotDuration.toNat
      = mac.slotDuration.toNat * (n.toNat + 1) := by ring
    _ ≤ mac.slotDuration.toNat * mac.superframeSlotCount.toNat := Nat.mul_le_mul_left _ hlt
    _ = mac.windowLength.toNat := hf.windowLength.symm

/-- The cached window after a refresh at `now`, with no later reading before it. -/
structure Fresh (mac : MacParams) (w : MacState) (now : UInt32) : Prop where
  aligned : Aligned mac w
  ahead : now.toNat < w.windowEnd.toNat
  past : ∃ r ≤ now.toNat,
    w.windowStart.toNat = nextMultiple mac.superframeFrequencyS.toNat r

private theorem Fresh.next (hs : Scheduled mac) (hw : Fresh mac w now)
    (h : now.toNat ≤ w.windowStart.toNat) :
    nextMultiple mac.superframeFrequencyS.toNat now.toNat = w.windowStart.toNat := by
  have hp := hs.positive
  have hl := hs.fits
  obtain ⟨r, hr, hstart⟩ := hw.past
  rw [hstart] at h ⊢
  exact nextMultiple_of_between (by omega) hr h

private theorem Fresh.start_lt (hs : Scheduled mac) (hw : Fresh mac w now) :
    w.windowStart.toNat < now.toNat + mac.superframeFrequencyS.toNat := by
  have hp := hs.positive
  have hl := hs.fits
  obtain ⟨r, hr, hstart⟩ := hw.past
  have hlt := nextMultiple_lt (p := mac.superframeFrequencyS.toNat) (by omega) r
  omega

/-- Where the slot requested lies behind the current one. -/
def Behind (mac : MacParams) (w : MacState) (now : UInt32) (n : UInt8) : Prop :=
  w.windowStart.toNat ≤ now.toNat ∧ now.toNat < w.windowEnd.toNat ∧
    n.toNat < (now.toNat - w.windowStart.toNat) / mac.slotDuration.toNat

private theorem Fresh.slotOf_active (hs : Scheduled mac) (hw : Fresh mac w now)
    (h : w.windowStart.toNat ≤ now.toNat) :
    slotOf mac w now =
      (((now.toNat - w.windowStart.toNat) / mac.slotDuration.toNat : Nat) : Int) := by
  have ha := inActiveWindow_iff.mpr ⟨h, hw.ahead⟩
  rw [hw.aligned.slotOf_eq hs ha, (hw.aligned.offset hs ha).1]

private theorem mul_slotDuration_toNat (hf : Far mac now) {k : UInt32}
    (hk : k.toNat * mac.slotDuration.toNat ≤ mac.windowLength.toNat) :
    (k * mac.slotDuration).toNat = k.toNat * mac.slotDuration.toNat := by
  have hlen := hf.windowLength
  unfold Far at hf
  rw [UInt32.toNat_mul]
  exact Nat.mod_eq_of_lt (by omega)

private theorem epoch_next (hs : Scheduled mac) (hf : Far mac now)
    (hn : n < mac.superframeSlotCount)
    {start : Nat} (hnext : nextMultiple mac.superframeFrequencyS.toNat now.toNat = start)
    {current : Int} (hc : current < 0 ∨ (n.toNat : Int) < current) :
    (now + slotOffset mac w current n now).toNat =
      start + n.toNat * mac.slotDuration.toNat := by
  have hp := hs.positive
  have hl := hs.fits
  have hslot := hf.slot_le hn
  have hmul : (n.toUInt32 * mac.slotDuration).toNat = n.toNat * mac.slotDuration.toNat := by
    rw [mul_slotDuration_toNat hf (by rw [UInt8.toNat_toUInt32]; omega), UInt8.toNat_toUInt32]
  have hge := le_nextMultiple (p := mac.superframeFrequencyS.toNat) (by omega) now.toNat
  have hlt := nextMultiple_lt (p := mac.superframeFrequencyS.toNat) (by omega) now.toNat
  unfold Far at hf
  have hint : (nextTimeInterval now mac.superframeFrequencyS).toNat =
      nextMultiple mac.superframeFrequencyS.toNat now.toNat :=
    nextTimeInterval_toNat (by omega) (by omega)
  rw [hnext] at hge hlt hint
  rw [slotOffset, if_pos hc, UInt32.toNat_add, UInt32.toNat_add, hmul, UInt32.toNat_sub_of_le,
    hint]
  · generalize n.toNat * mac.slotDuration.toNat = q at hslot ⊢
    omega
  · rw [UInt32.le_iff_toNat_le, hint]
    exact hge

private theorem epoch_here (hs : Scheduled mac) (hf : Far mac now)
    (hn : n < mac.superframeSlotCount)
    (hw : Fresh mac w now) (hlo : w.windowStart.toNat ≤ now.toNat) {cur : Nat}
    (hcur : (now.toNat - w.windowStart.toNat) / mac.slotDuration.toNat = cur)
    (hle : cur ≤ n.toNat) :
    (now + slotOffset mac w cur n now).toNat =
      if n.toNat = cur then now.toNat
      else w.windowStart.toNat + n.toNat * mac.slotDuration.toNat := by
  have hp := hs.positive
  have hd := (slotDuration_toNat_le mac hp).1
  have hslot := hf.slot_le hn
  have hbefore : ¬((cur : Int) < 0 ∨ (n.toNat : Int) < (cur : Int)) := by omega
  rw [slotOffset, if_neg hbefore]
  simp only [Int.toNat_natCast]
  by_cases hzero : n.toNat - cur = 0
  · have heq : n.toNat = cur := by omega
    rw [if_pos hzero, if_pos heq]
    simp
  · have hne : n.toNat ≠ cur := by omega
    have hsub : (now - w.windowStart).toNat = now.toNat - w.windowStart.toNat :=
      UInt32.toNat_sub_of_le _ _ (UInt32.le_iff_toNat_le.mpr hlo)
    have hmod := Nat.mod_lt (now.toNat - w.windowStart.toNat) hd
    have hdiv := Nat.div_add_mod (now.toNat - w.windowStart.toNat) mac.slotDuration.toNat
    rw [hcur, Nat.mul_comm] at hdiv
    have hleft : (timeLeftInSlot mac w now).toNat =
        mac.slotDuration.toNat -
          (now.toNat - w.windowStart.toNat) % mac.slotDuration.toNat := by
      have hrem : ((now - w.windowStart) % mac.slotDuration).toNat =
          (now.toNat - w.windowStart.toNat) % mac.slotDuration.toNat := by
        rw [UInt32.toNat_mod, hsub]
      rw [timeLeftInSlot, UInt32.toNat_sub_of_le, hrem]
      rw [UInt32.le_iff_toNat_le, hrem]
      omega
    obtain ⟨k, hk⟩ : ∃ k, n.toNat = cur + 1 + k := ⟨n.toNat - cur - 1, by omega⟩
    have hprod : n.toNat * mac.slotDuration.toNat =
        cur * mac.slotDuration.toNat + mac.slotDuration.toNat + k * mac.slotDuration.toNat := by
      rw [hk]
      ring
    have hstart := hw.start_lt hs
    have hfar := hf
    unfold Far at hfar
    rw [if_neg hzero, if_neg hne]
    have hl := hs.fits
    by_cases hone : 1 < n.toNat - cur
    · have hkn : (UInt32.ofNat (n.toNat - cur - 1)).toNat = k := by
        have := n.toNat_lt
        rw [UInt32.toNat_ofNat_of_lt' (by simp only [UInt32.size]; omega)]
        omega
      have hmul := mul_slotDuration_toNat (k := UInt32.ofNat (n.toNat - cur - 1)) hf
        (by rw [hkn]; omega)
      rw [if_pos hone, UInt32.toNat_add, UInt32.toNat_add, hleft, hmul, hkn]
      omega
    · have hk0 : k = 0 := by omega
      subst hk0
      rw [if_neg hone, UInt32.toNat_add, hleft]
      omega

def slotEnd (mac : MacParams) (e : Nat) : Nat :=
  e - e % mac.superframeFrequencyS.toNat +
    (e % mac.superframeFrequencyS.toNat / mac.slotDuration.toNat + 1) * mac.slotDuration.toNat

private theorem slotEnd_eq {start k : Nat}
    (hstart : mac.superframeFrequencyS.toNat ∣ start)
    (hlo : n.toNat * mac.slotDuration.toNat ≤ k)
    (hhi : k < n.toNat * mac.slotDuration.toNat + mac.slotDuration.toNat)
    (hk : k < mac.superframeFrequencyS.toNat) :
    slotEnd mac (start + k) =
      start + n.toNat * mac.slotDuration.toNat + mac.slotDuration.toNat := by
  have hmod : (start + k) % mac.superframeFrequencyS.toNat = k := by
    obtain ⟨j, rfl⟩ := hstart
    rw [Nat.mul_add_mod, Nat.mod_eq_of_lt hk]
  have hdiv : k / mac.slotDuration.toNat = n.toNat :=
    Nat.div_eq_of_lt_le hlo (by rw [Nat.add_mul, Nat.one_mul]; exact hhi)
  rw [slotEnd, hmod, hdiv, Nat.add_sub_cancel, Nat.add_mul, Nat.one_mul]
  omega

private theorem currentSlot_inside (hs : Scheduled mac) (hf : Far mac now)
    (hn : n < mac.superframeSlotCount) (hw : Aligned mac w)
    (hlo : w.windowStart.toNat + n.toNat * mac.slotDuration.toNat ≤ t.toNat)
    (hhi : t.toNat <
      w.windowStart.toNat + n.toNat * mac.slotDuration.toNat + mac.slotDuration.toNat) :
    (currentSlot mac w t).1 = n.toNat := by
  have hslot := hf.slot_le hn
  have hend : t.toNat < w.windowEnd.toNat := by
    rw [hw.length]
    omega
  have ha := inActiveWindow_iff.mpr ⟨by omega, hend⟩
  have hdiv : (t.toNat - w.windowStart.toNat) / mac.slotDuration.toNat = n.toNat :=
    Nat.div_eq_of_lt_le (by omega) (by rw [Nat.add_mul, Nat.one_mul]; omega)
  simp only [currentSlot, refreshWindow_of_before hend]
  rw [hw.slotOf_eq hs ha, (hw.offset hs ha).1, hdiv]

private theorem currentSlot_late (hs : Scheduled mac) (he : Early mac t)
    (hend : w.windowEnd.toNat ≤ t.toNat) (hne : t.toNat % mac.superframeFrequencyS.toNat ≠ 0) :
    (currentSlot mac w t).1 = -1 := by
  have hp := hs.positive
  have hl := hs.fits
  obtain ⟨_, hstart⟩ := refreshWindow_of_after (w := w) hs he hend
  have hge := le_nextMultiple (p := mac.superframeFrequencyS.toNat) (by omega) t.toNat
  apply slotOf_inactive
  intro ha
  have hlo := (inActiveWindow_iff.mp ha).1
  have heq : nextMultiple mac.superframeFrequencyS.toNat t.toNat = t.toNat := by omega
  exact hne (Nat.mod_eq_zero_of_dvd (heq ▸ dvd_nextMultiple _ _))

private theorem currentSlot_boundary (hs : Scheduled mac) (he : Early mac t)
    (hend : w.windowEnd.toNat ≤ t.toNat) (hz : t.toNat % mac.superframeFrequencyS.toNat = 0) :
    (currentSlot mac w t).1 = 0 := by
  have hp := hs.positive
  obtain ⟨hw, hstart⟩ := refreshWindow_of_after (w := w) hs he hend
  have heq : nextMultiple mac.superframeFrequencyS.toNat t.toNat = t.toNat := by
    rw [nextMultiple, if_pos hz]
  have hlen := hw.length
  have ha : inActiveWindow (refreshWindow mac w t) t = true :=
    inActiveWindow_iff.mpr ⟨by omega, by omega⟩
  simp only [currentSlot]
  rw [hw.slotOf_eq hs ha, hz, Nat.zero_div]
  rfl

/-- The stored epoch is right: not in the past, and the whole slot it lies in is slot `n`. -/
def Lands (mac : MacParams) (w : MacState) (now e : UInt32) (n : UInt8) : Prop :=
  now ≤ e ∧ ∀ t : UInt32, e ≤ t → t.toNat < slotEnd mac e.toNat →
    (currentSlot mac w t).1 = n.toNat

private theorem lands_inside (hs : Scheduled mac) (hf : Far mac now)
    (hn : n < mac.superframeSlotCount)
    (hw : Aligned mac w) {e : UInt32} (hnow : now.toNat ≤ e.toNat)
    (hlo : w.windowStart.toNat + n.toNat * mac.slotDuration.toNat ≤ e.toNat)
    (hhi : e.toNat <
      w.windowStart.toNat + n.toNat * mac.slotDuration.toNat + mac.slotDuration.toNat) :
    Lands mac w now e n := by
  have hl := hs.fits
  have hslot := hf.slot_le hn
  have hend : slotEnd mac (w.windowStart.toNat + (e.toNat - w.windowStart.toNat)) =
      w.windowStart.toNat + n.toNat * mac.slotDuration.toNat + mac.slotDuration.toNat :=
    slotEnd_eq hw.boundary (by omega) (by omega) (by omega)
  rw [Nat.add_sub_cancel' (by omega)] at hend
  refine ⟨UInt32.le_iff_toNat_le.mpr hnow, ?_⟩
  intro t ht hlt
  have hle := UInt32.le_iff_toNat_le.mp ht
  exact currentSlot_inside hs hf hn hw (by omega) (by omega)

private theorem lands_behind (hs : Scheduled mac) (hf : Far mac now)
    (hn : n < mac.superframeSlotCount) (hw : Fresh mac w now) (hb : Behind mac w now n) {e : UInt32}
    (he : e.toNat = w.windowStart.toNat + mac.superframeFrequencyS.toNat +
      n.toNat * mac.slotDuration.toNat) :
    Lands mac w now e n ↔ n = 0 ∧ mac.slotDuration = 1 := by
  obtain ⟨hlo, hhi, hcur⟩ := hb
  have hl := hs.fits
  have hlen := hw.aligned.length
  have hd := (slotDuration_toNat_le mac hs.positive).1
  have hslot := hf.slot_le hn
  have hdvd := hw.aligned.boundary.add (dvd_refl mac.superframeFrequencyS.toNat)
  have hlong : mac.slotDuration.toNat ≤ now.toNat - w.windowStart.toNat := by
    by_contra hlt
    rw [Nat.div_eq_of_lt (by omega)] at hcur
    omega
  have hend : slotEnd mac e.toNat = e.toNat + mac.slotDuration.toNat := by
    rw [he, slotEnd_eq (n := n) hdvd le_rfl (by omega) (by omega)]
  unfold Far at hf
  have hlate (t : UInt32) (ht : e.toNat ≤ t.toNat) (hte : t.toNat ≤ e.toNat + 1) :
      Early mac t ∧ w.windowEnd.toNat ≤ t.toNat ∧
        (t.toNat - (w.windowStart.toNat + mac.superframeFrequencyS.toNat) <
          mac.superframeFrequencyS.toNat →
        t.toNat % mac.superframeFrequencyS.toNat =
          t.toNat - (w.windowStart.toNat + mac.superframeFrequencyS.toNat)) := by
    refine ⟨by unfold Early; omega, by omega, ?_⟩
    intro hin
    have hin' : t.toNat < w.windowStart.toNat + mac.superframeFrequencyS.toNat +
        mac.superframeFrequencyS.toNat := by omega
    exact mod_of_window hdvd (by omega) hin' le_rfl
  constructor
  · rintro ⟨-, hall⟩
    have hself := hall e (UInt32.le_refl e) (by omega)
    obtain ⟨hearly, hafter, hmod⟩ := hlate e le_rfl (by omega)
    have hpos := hmod (by omega)
    have hn0 : n.toNat = 0 := by
      by_contra hne
      have hprod : 0 < n.toNat * mac.slotDuration.toNat := Nat.mul_pos (by omega) hd
      rw [currentSlot_late hs hearly hafter (by omega)] at hself
      omega
    refine ⟨UInt8.toNat_inj.mp hn0, ?_⟩
    by_contra hne
    have hd2 : mac.slotDuration.toNat ≠ 1 := fun h => hne (UInt32.toNat_inj.mp h)
    have hsucc : (e + 1).toNat = e.toNat + 1 := by
      rw [UInt32.toNat_add]
      rw [hn0] at he hslot
      simp only [UInt32.toNat_one]
      omega
    have hnext := hall (e + 1) (UInt32.le_iff_toNat_le.mpr (by omega)) (by omega)
    obtain ⟨hearly', hafter', hmod'⟩ := hlate (e + 1) (by omega) (by omega)
    rw [hn0] at he
    have hpos' := hmod' (by omega)
    rw [currentSlot_late hs hearly' hafter' (by omega)] at hnext
    omega
  · rintro ⟨rfl, hone⟩
    have hd1 : mac.slotDuration.toNat = 1 := by rw [hone]; rfl
    refine ⟨UInt32.le_iff_toNat_le.mpr (by omega), ?_⟩
    intro t ht hlt
    have hle := UInt32.le_iff_toNat_le.mp ht
    have hte : t.toNat = e.toNat := by omega
    obtain ⟨hearly, hafter, hmod⟩ := hlate t hle (by omega)
    rw [UInt8.toNat_zero, Nat.zero_mul, Nat.add_zero] at he
    rw [currentSlot_boundary hs hearly hafter (by rw [hmod (by omega)]; omega)]
    rfl

private theorem fresh_refresh (hs : Scheduled mac) (he : Early mac now) (hw : Aligned mac w)
    (hpast : ∃ r ≤ now.toNat,
      w.windowStart.toNat = nextMultiple mac.superframeFrequencyS.toNat r) :
    Fresh mac (refreshWindow mac w now) now := by
  have hp := hs.positive
  by_cases h : w.windowEnd.toNat ≤ now.toNat
  · obtain ⟨haligned, hstart⟩ := refreshWindow_of_after hs he h
    have hge := le_nextMultiple (p := mac.superframeFrequencyS.toNat)
      (by have := hs.fits; omega) now.toNat
    refine ⟨haligned, ?_, now.toNat, le_rfl, hstart⟩
    rw [haligned.length]
    omega
  · rw [refreshWindow_of_before (by omega)]
    exact ⟨hw, by omega, hpast⟩

private theorem behind_refreshed_iff (hs : Scheduled mac) (he : Early mac now) :
    Behind mac (refreshWindow mac w now) now n ↔ Behind mac w now n := by
  by_cases h : w.windowEnd.toNat ≤ now.toNat
  · refine iff_of_false ?_ fun hb => absurd hb.2.1 (by omega)
    rintro ⟨hlo, _, hcur⟩
    obtain ⟨_, hstart⟩ := refreshWindow_of_after hs he h
    have hge := le_nextMultiple (p := mac.superframeFrequencyS.toNat)
      (by have := hs.positive; have := hs.fits; omega) now.toNat
    rw [show now.toNat - (refreshWindow mac w now).windowStart.toNat = 0 by omega,
      Nat.zero_div] at hcur
    omega
  · rw [refreshWindow_of_before (by omega)]

private theorem lands_here (hs : Scheduled mac) (hf : Far mac now)
    (hn : n < mac.superframeSlotCount)
    (hw : Fresh mac w now) (hlo : w.windowStart.toNat ≤ now.toNat)
    (hb : ¬ Behind mac w now n) :
    Lands mac w now (now + slotOffset mac w (slotOf mac w now) n now) n := by
  rw [hw.slotOf_active hs hlo]
  generalize hc : (now.toNat - w.windowStart.toNat) / mac.slotDuration.toNat = cur
  have hle : cur ≤ n.toNat := by
    by_contra hlt
    exact hb ⟨hlo, hw.ahead, by omega⟩
  have hepoch := epoch_here hs hf hn hw hlo hc hle
  have hd := (slotDuration_toNat_le mac hs.positive).1
  have hmod := Nat.mod_lt (now.toNat - w.windowStart.toNat) hd
  have hdiv := Nat.div_add_mod (now.toNat - w.windowStart.toNat) mac.slotDuration.toNat
  rw [hc, Nat.mul_comm] at hdiv
  by_cases heq : n.toNat = cur
  · rw [if_pos heq] at hepoch
    apply lands_inside hs hf hn hw.aligned
    · omega
    · rw [hepoch, heq]
      omega
    · rw [hepoch, heq]
      omega
  · rw [if_neg heq] at hepoch
    have hstep : cur * mac.slotDuration.toNat + mac.slotDuration.toNat ≤
        n.toNat * mac.slotDuration.toNat := by
      calc cur * mac.slotDuration.toNat + mac.slotDuration.toNat
          = (cur + 1) * mac.slotDuration.toNat := by ring
        _ ≤ n.toNat * mac.slotDuration.toNat := Nat.mul_le_mul_right _ (by omega)
    apply lands_inside hs hf hn hw.aligned <;> omega

private theorem lands_ahead (hs : Scheduled mac) (hf : Far mac now)
    (hn : n < mac.superframeSlotCount)
    (hw : Fresh mac w now) (hlo : now.toNat < w.windowStart.toNat) :
    Lands mac w now (now + slotOffset mac w (slotOf mac w now) n now) n := by
  have hact : ¬ inActiveWindow w now = true := by
    rw [inActiveWindow_iff]
    omega
  have hinactive : (-1 : Int) < 0 ∨ (n.toNat : Int) < -1 := Or.inl (by omega)
  have hepoch := epoch_next (w := w) hs hf hn (hw.next hs (by omega)) hinactive
  have hd := (slotDuration_toNat_le mac hs.positive).1
  rw [slotOf_inactive hact]
  apply lands_inside hs hf hn hw.aligned <;> omega

private theorem lands_behind_iff (hs : Scheduled mac) (hf : Far mac now)
    (hn : n < mac.superframeSlotCount) (hw : Fresh mac w now) (hb : Behind mac w now n) :
    Lands mac w now (now + slotOffset mac w (slotOf mac w now) n now) n ↔
      n = 0 ∧ mac.slotDuration = 1 := by
  obtain ⟨hlo, hhi, hcur⟩ := id hb
  have hp := hs.positive
  have hl := hs.fits
  have hlen := hw.aligned.length
  have hinside : w.windowStart.toNat < now.toNat := by
    by_contra hge
    rw [show now.toNat - w.windowStart.toNat = 0 by omega, Nat.zero_div] at hcur
    omega
  have hnext : nextMultiple mac.superframeFrequencyS.toNat now.toNat =
      w.windowStart.toNat + mac.superframeFrequencyS.toNat :=
    nextMultiple_inside (by omega) hw.aligned.boundary hinside (by omega)
  rw [hw.slotOf_active hs hlo]
  exact lands_behind hs hf hn hw hb (epoch_next hs hf hn hnext (Or.inr (by omega)))

private theorem epoch_lands_iff_of_window (hs : Scheduled mac) (hf : Far mac now)
    (hn : n < mac.superframeSlotCount) (hw : Aligned mac w)
    (hpast : ∃ r ≤ now.toNat,
      w.windowStart.toNat = nextMultiple mac.superframeFrequencyS.toNat r) :
    let w' := (currentSlot mac w now).2
    Lands mac w' now (now + slotOffset mac w' (currentSlot mac w now).1 n now) n ↔
      ¬ Behind mac w now n ∨ n = 0 ∧ mac.slotDuration = 1 := by
  have he : Early mac now := by unfold Far at hf; unfold Early; omega
  have hfresh := fresh_refresh hs he hw hpast
  simp only [currentSlot]
  rw [← behind_refreshed_iff hs he]
  by_cases hb : Behind mac (refreshWindow mac w now) now n
  · rw [lands_behind_iff hs hf hn hfresh hb]
    simp [hb]
  · refine iff_of_true ?_ (Or.inl hb)
    by_cases hlo : (refreshWindow mac w now).windowStart.toNat ≤ now.toNat
    · exact lands_here hs hf hn hfresh hlo hb
    · exact lands_ahead hs hf hn hfresh (by omega)

private theorem runCalls_past (hs : Scheduled mac) (hearly : ∀ r ≤ now, Early mac r)
    {node : NodeParams} {link : LinkParams} {first : UInt32} (hstart : Starts node mac link first)
    (hfirst : first ≤ now) {calls : List Call}
    (hcalls : ∀ c ∈ calls, ∀ r, c.reading = some r → r ≤ now) :
    let s := runCalls calls (started node mac link first)
    s.initialized = true ∧ s.mac = mac ∧ Aligned mac s.macState ∧ ∃ r ≤ now.toNat,
      s.macState.windowStart.toNat = nextMultiple mac.superframeFrequencyS.toNat r := by
  have hstep (w : MacState) (r : UInt32) (hr : r ≤ now)
      (hw : Aligned mac w ∧ ∃ r ≤ now.toNat,
        w.windowStart.toNat = nextMultiple mac.superframeFrequencyS.toNat r) :
      Aligned mac (refreshWindow mac w r) ∧ ∃ r' ≤ now.toNat,
        (refreshWindow mac w r).windowStart.toNat =
          nextMultiple mac.superframeFrequencyS.toNat r' := by
    refine ⟨hw.1.refresh hs (hearly r hr), ?_⟩
    by_cases h : w.windowEnd.toNat ≤ r.toNat
    · exact ⟨r.toNat, UInt32.le_iff_toNat_le.mp hr, (refreshWindow_of_after hs (hearly r hr) h).2⟩
    · rw [refreshWindow_of_before (by omega)]
      exact hw.2
  have ht := started_timing hstart
  simp only [timing, Prod.mk.injEq] at ht
  obtain ⟨hi, hm, hw⟩ := ht
  obtain ⟨haligned, hboundary⟩ := refreshWindow_of_after (w := MacState.zero) hs
    (hearly first hfirst) (by simp [MacState.zero])
  refine runCalls_timing hstep calls _ ⟨hi, hm, ?_⟩ hcalls
  rw [hw]
  exact ⟨haligned, first.toNat, UInt32.le_iff_toNat_le.mp hfirst, hboundary⟩

private theorem epochAndOffset_stored (now : UInt32) {s : State} (hi : s.initialized = true)
    (hn : n < s.mac.superframeSlotCount) :
    let r := currentSlot s.mac s.macState now
    (epochAndOffset n now s).2 =
      (some (now + slotOffset s.mac r.2 r.1 n now, slotOffset s.mac r.2 r.1 n now),
        { s with macState := r.2 }) := by
  intro r
  have hvalid : ¬ s.mac.superframeSlotCount ≤ n := UInt8.not_le.mpr hn
  rw [epochAndOffset, if_neg (by simp [hi]), if_neg hvalid]

end Epoch

/-- Sleeping until the stored epoch ends in the requested slot, however late in that slot the node
wakes, exactly if the slot was not already over when the epoch was asked for, or is a slot 0 of
one second. -/
theorem epoch_lands_iff (mac : MacParams) (hd : 1 ≤ mac.slotDuration)
    (hfit : mac.windowLength ≤ mac.superframeFrequencyS) (node : NodeParams) (link : LinkParams)
    (first now : UInt32) (hstart : Starts node mac link first) (calls : List Call)
    (hfirst : first ≤ now)
    (hcalls : ∀ c ∈ calls, ∀ r, c.reading = some r → r ≤ now) (hf : Far mac now)
    (n : UInt8) (hn : n < mac.superframeSlotCount) :
    let s := runCalls calls (started node mac link first)
    ∃ e offset, (epochAndOffset n now s).2.1 = some (e, offset) ∧
      ((now ≤ e ∧ ∀ t : UInt32, e ≤ t → t.toNat < slotEnd mac e.toNat →
          (activeSlot t (epochAndOffset n now s).2.2).1 = n.toNat) ↔
        ¬ Behind mac s.macState now n ∨ n = 0 ∧ mac.slotDuration = 1) := by
  intro s
  have hlen := hf.windowLength
  have hn' := UInt8.lt_iff_toNat_lt.mp hn
  have hd' := UInt32.le_iff_toNat_le.mp hd
  have hs : Scheduled mac := by
    refine ⟨?_, UInt32.le_iff_toNat_le.mp hfit⟩
    rw [hlen]
    exact Nat.mul_pos hd' (by omega)
  have hearly (r : UInt32) (hr : r ≤ now) : Early mac r := by
    have := UInt32.le_iff_toNat_le.mp hr
    unfold Far at hf
    unfold Early
    omega
  obtain ⟨hi, hm, haligned, hpast⟩ := runCalls_past hs hearly hstart hfirst hcalls
  change s.initialized = true at hi
  change s.mac = mac at hm
  have hcall := epochAndOffset_stored now hi (hm ▸ hn)
  rw [hm] at hcall
  refine ⟨_, _, congrArg Prod.fst hcall, ?_⟩
  rw [hcall]
  simp only [activeSlot]
  exact epoch_lands_iff_of_window hs hf hn haligned hpast

/-- The slot two ahead of the current one is hit. -/
theorem epoch_of_slot_ahead_lands :
    let s := started ⟨1, 0⟩ setupMac setupLink 71
    ∃ e offset, (epochAndOffset 3 75 s).2.1 = some (e, offset) ∧
      75 ≤ e ∧ ∀ t : UInt32, e ≤ t → t.toNat < slotEnd setupMac e.toNat →
        (activeSlot t (epochAndOffset 3 75 s).2.2).1 = 3 := by
  intro s
  obtain ⟨e, offset, hsome, hiff⟩ := epoch_lands_iff setupMac (by decide) (by decide) ⟨1, 0⟩
    setupLink 71 75 (by unfold Starts; decide) [] (by decide) (by simp) (by unfold Far; decide) 3
    (by decide)
  exact ⟨e, offset, hsome, hiff.mpr (Or.inl (by unfold Behind; decide))⟩

/-- Waking one second into slot 0 of the next superframe finds no active slot. -/
theorem late_wake_misses_slot :
    let s := started ⟨1, 0⟩ setupMac setupLink 71
    ¬ ∀ e offset, (epochAndOffset 0 75 s).2.1 = some (e, offset) →
      75 ≤ e ∧ ∀ t : UInt32, e ≤ t → t.toNat < slotEnd setupMac e.toNat →
        (activeSlot t (epochAndOffset 0 75 s).2.2).1 = 0 := by
  intro s h
  have hmiss := (h 142 67 (by decide)).2 143 (by decide) (by decide)
  exact absurd hmiss (by decide)

end LoraMultihop.Link.Epochs
