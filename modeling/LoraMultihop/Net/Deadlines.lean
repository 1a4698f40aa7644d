/- digest: When a deadline over the wrapping counter tells the elapsed time right. -/

import Mathlib.Tactic
import LoraMultihop.Net.TimeHelpers

set_option autoImplicit false
set_option relaxedAutoImplicit false

namespace LoraMultihop.Net.Deadlines

open LoraMultihop.Net.TimeHelpers

section Sums

variable {a b : UInt32}

private theorem toNat_add_of_lt (h : a.toNat + b.toNat < 2 ^ 32) :
    (a + b).toNat = a.toNat + b.toNat := by
  rw [UInt32.toNat_add]
  exact Nat.mod_eq_of_lt h

private theorem toNat_add_of_le (h : 2 ^ 32 ≤ a.toNat + b.toNat) :
    (a + b).toNat = a.toNat + b.toNat - 2 ^ 32 := by
  have ha := a.toNat_lt
  have hb := b.toNat_lt
  rw [UInt32.toNat_add]
  omega

end Sums

/-- What is left of `d` milliseconds after `e` have passed. -/
def timeLeft (d e : UInt32) : UInt32 := if e ≤ d then d - e else 0

section Readings

variable {start d e : UInt32}

@[simp] theorem create_start (d start : UInt32) : (MsDeadline.create d start).start = start := rfl

@[simp] theorem create_deadline (d start : UInt32) :
    (MsDeadline.create d start).deadline = start + d := rfl

private theorem create_of_lt (h : start.toNat + d.toNat < 2 ^ 32) :
    (MsDeadline.create d start).overflows = false := by
  have hsum := toNat_add_of_lt h
  simp only [MsDeadline.create, decide_eq_false_iff_not, UInt32.lt_iff_toNat_lt]
  omega

private theorem create_of_le (h : 2 ^ 32 ≤ start.toNat + d.toNat) :
    (MsDeadline.create d start).overflows = true := by
  have hsum := toNat_add_of_le h
  have hd := d.toNat_lt
  simp only [MsDeadline.create, decide_eq_true_eq, UInt32.lt_iff_toNat_lt]
  omega

private theorem timeLeft_toNat : (timeLeft d e).toNat = d.toNat - e.toNat := by
  unfold timeLeft
  split_ifs with h
  · exact UInt32.toNat_sub_of_le d e h
  · rw [UInt32.le_iff_toNat_le] at h
    simp only [UInt32.toNat_zero]
    omega

private theorem reached_of_lt (h : start.toNat + d.toNat < 2 ^ 32) :
    (MsDeadline.create d start).reached (start + e) = true ↔
      start.toNat + e.toNat < 2 ^ 32 ∧ d < e := by
  have he := e.toNat_lt
  have hsum := toNat_add_of_lt h
  simp only [MsDeadline.reached, create_of_lt h, create_deadline, Bool.false_eq_true, if_false,
    decide_eq_true_eq, UInt32.lt_iff_toNat_lt, hsum]
  by_cases hwrap : start.toNat + e.toNat < 2 ^ 32
  · rw [toNat_add_of_lt hwrap]
    omega
  · rw [toNat_add_of_le (Nat.le_of_not_lt hwrap)]
    omega

private theorem reached_of_le (h : 2 ^ 32 ≤ start.toNat + d.toNat) :
    (MsDeadline.create d start).reached (start + e) = true ↔ e = 0 ∨ d < e := by
  have hs := start.toNat_lt
  have hd := d.toNat_lt
  have he := e.toNat_lt
  have hsum := toNat_add_of_le h
  simp only [MsDeadline.reached, create_of_le h, create_deadline, create_start, if_true,
    Bool.and_eq_true, decide_eq_true_eq, UInt32.lt_iff_toNat_lt, UInt32.le_iff_toNat_le, hsum,
    ← UInt32.toNat_inj, UInt32.toNat_zero]
  by_cases hwrap : start.toNat + e.toNat < 2 ^ 32
  · rw [toNat_add_of_lt hwrap]
    omega
  · rw [toNat_add_of_le (Nat.le_of_not_lt hwrap)]
    omega

private theorem millisUntil_flat (h : start.toNat + d.toNat < 2 ^ 32) (now : UInt32) :
    (MsDeadline.create d start).millisUntil now =
      if now < start then 0 else if start + d < now then 0 else start + d - now := by
  unfold MsDeadline.millisUntil
  rw [create_of_lt h]
  rfl

private theorem millisUntil_overflowing (h : 2 ^ 32 ≤ start.toNat + d.toNat) (now : UInt32) :
    (MsDeadline.create d start).millisUntil now =
      (if now < start then 0 else 0xFFFFFFFF - now) +
        (if now < start + d then (if start + d < now then 0 else start + d - now)
          else start + d) := by
  unfold MsDeadline.millisUntil
  rw [create_of_le h]
  rfl

private theorem millisUntil_of_lt (h : start.toNat + d.toNat < 2 ^ 32) :
    (MsDeadline.create d start).millisUntil (start + e) = timeLeft d e := by
  have hd := d.toNat_lt
  have he := e.toNat_lt
  have hsum := toNat_add_of_lt h
  apply UInt32.toNat_inj.mp
  rw [timeLeft_toNat, millisUntil_flat h]
  by_cases hwrap : start.toNat + e.toNat < 2 ^ 32
  · have hnow := toNat_add_of_lt hwrap
    have hback : ¬ start + e < start := by
      rw [UInt32.lt_iff_toNat_lt]
      omega
    rw [if_neg hback]
    split_ifs with hpast
    · rw [UInt32.lt_iff_toNat_lt] at hpast
      simp only [UInt32.toNat_zero]
      omega
    · rw [UInt32.not_lt] at hpast
      rw [UInt32.toNat_sub_of_le _ _ hpast]
      omega
  · have hnow := toNat_add_of_le (Nat.le_of_not_lt hwrap)
    have hback : start + e < start := by
      rw [UInt32.lt_iff_toNat_lt]
      omega
    rw [if_pos hback]
    simp only [UInt32.toNat_zero]
    omega

private theorem millisUntil_before_wrap (h : 2 ^ 32 ≤ start.toNat + d.toNat)
    (hwrap : start.toNat + e.toNat < 2 ^ 32) :
    ((MsDeadline.create d start).millisUntil (start + e)).toNat + 1 = (timeLeft d e).toNat := by
  have hd := d.toNat_lt
  have hsum := toNat_add_of_le h
  have hnow := toNat_add_of_lt hwrap
  have hback : ¬ start + e < start := by
    rw [UInt32.lt_iff_toNat_lt]
    omega
  have hbefore : ¬ start + e < start + d := by
    rw [UInt32.lt_iff_toNat_lt]
    omega
  have hmax : (0xFFFFFFFF - (start + e)).toNat = 4294967295 - (start + e).toNat := by
    apply UInt32.toNat_sub_of_le
    rw [UInt32.le_iff_toNat_le]
    exact Nat.le_of_lt_succ (start + e).toNat_lt
  rw [timeLeft_toNat, millisUntil_overflowing h, if_neg hback, if_neg hbefore,
    toNat_add_of_lt (by omega)]
  omega

private theorem millisUntil_after_wrap (h : 2 ^ 32 ≤ start.toNat + d.toNat)
    (hwrap : 2 ^ 32 ≤ start.toNat + e.toNat) :
    (MsDeadline.create d start).millisUntil (start + e) =
      if e < d then d - e else start + d := by
  have hd := d.toNat_lt
  have he := e.toNat_lt
  have hsum := toNat_add_of_le h
  have hnow := toNat_add_of_le hwrap
  have hback : start + e < start := by
    rw [UInt32.lt_iff_toNat_lt]
    omega
  have hiff : start + e < start + d ↔ e < d := by
    simp only [UInt32.lt_iff_toNat_lt]
    omega
  rw [millisUntil_overflowing h, if_pos hback, UInt32.zero_add]
  simp only [hiff]
  by_cases hlt : e < d
  · have hpast : ¬ start + d < start + e := UInt32.lt_asymm (hiff.mpr hlt)
    rw [if_pos hlt, if_pos hlt, if_neg hpast]
    apply UInt32.toNat_inj.mp
    rw [UInt32.toNat_sub_of_le _ _ (UInt32.not_lt.mp hpast),
      UInt32.toNat_sub_of_le _ _ (UInt32.le_of_lt hlt)]
    omega
  · rw [if_neg hlt, if_neg hlt]

end Readings

/-- `reached` tells whether more than the duration has elapsed exactly for a deadline below
`2 ^ 32` before the counter has wrapped, and for one beyond it after the start reading. -/
theorem reached_iff (start d e : UInt32) :
    ((MsDeadline.create d start).reached (start + e) = true ↔ d < e) ↔
      if start.toNat + d.toNat < 2 ^ 32 then start.toNat + e.toNat < 2 ^ 32 else e ≠ 0 := by
  split_ifs with h
  · rw [reached_of_lt h]
    constructor
    · intro hiff
      by_contra hwrap
      apply hwrap
      apply (hiff.mpr _).1
      rw [UInt32.lt_iff_toNat_lt]
      omega
    · intro hwrap
      exact and_iff_right hwrap
  · rw [reached_of_le (Nat.le_of_not_lt h)]
    constructor
    · intro hiff he
      subst he
      exact absurd (hiff.mp (Or.inl rfl)) UInt32.not_lt_zero
    · intro he
      exact or_iff_right he

/-- A deadline below `2 ^ 32` is no longer reached once the counter has wrapped, and one beyond it
is reached at its creation. -/
theorem reached_wrong_across_wrap :
    (MsDeadline.create 500 4294966296).reached (4294966296 + 1500) = false ∧
      (500 : UInt32) < 1500 ∧
      (MsDeadline.create 2000 4294966296).reached (4294966296 + 0) = true ∧
      ¬ (2000 : UInt32) < 0 := by
  decide

/-- `millis_until` is the time left exactly for a deadline below `2 ^ 32`, and for one beyond it
after the wrap, before the deadline (at any time then if the deadline is `0`). -/
theorem millisUntil_iff (start d e : UInt32) :
    (MsDeadline.create d start).millisUntil (start + e) = (if e ≤ d then d - e else 0) ↔
      start.toNat + d.toNat < 2 ^ 32 ∨
        (2 ^ 32 ≤ start.toNat + e.toNat ∧ (e < d ∨ start + d = 0)) := by
  change _ = timeLeft d e ↔ _
  rcases Nat.lt_or_ge (start.toNat + d.toNat) (2 ^ 32) with h | h
  · exact iff_of_true (millisUntil_of_lt h) (Or.inl h)
  · have hover : ¬ start.toNat + d.toNat < 2 ^ 32 := Nat.not_lt_of_le h
    rcases Nat.lt_or_ge (start.toNat + e.toNat) (2 ^ 32) with hwrap | hwrap
    · have hone := millisUntil_before_wrap h hwrap
      apply iff_of_false
      · intro heq
        rw [heq] at hone
        omega
      · omega
    · rw [millisUntil_after_wrap h hwrap]
      simp only [hover, hwrap, false_or, true_and, timeLeft]
      by_cases hlt : e < d
      · simp [hlt, UInt32.le_of_lt hlt]
      · have hpast : (if e ≤ d then d - e else 0) = 0 := by
          split_ifs with hle
          · rw [UInt32.le_antisymm hle (UInt32.not_lt.mp hlt), UInt32.sub_self]
          · rfl
        rw [if_neg hlt, hpast]
        exact (or_iff_right hlt).symm

/-- Before the wrap one millisecond is missing, and past the deadline the deadline is returned. -/
theorem millisUntil_wrong_across_wrap :
    (MsDeadline.create 2000 4294966296).millisUntil (4294966296 + 500) = 1499 ∧
      (MsDeadline.create 2000 4294966296).millisUntil (4294966296 + 3000) = 1000 := by
  decide

end LoraMultihop.Net.Deadlines
