/- digest: Rounding up to a period, and positions inside an aligned window. -/

import Mathlib.Tactic

set_option autoImplicit false
set_option relaxedAutoImplicit false

namespace LoraMultihop.Foundation.Periodic

/-- The least multiple of `p` that is not below `x`. -/
def nextMultiple (p x : Nat) : Nat := if x % p = 0 then x else x - x % p + p

variable {p x : Nat}

theorem dvd_nextMultiple (p x : Nat) : p ∣ nextMultiple p x := by
  unfold nextMultiple
  split_ifs with h
  · exact Nat.dvd_of_mod_eq_zero h
  · exact (Nat.dvd_sub_mod x).add (dvd_refl p)

theorem le_nextMultiple (hp : 0 < p) (x : Nat) : x ≤ nextMultiple p x := by
  have hlt := Nat.mod_lt x hp
  unfold nextMultiple
  split_ifs <;> omega

theorem nextMultiple_lt (hp : 0 < p) (x : Nat) : nextMultiple p x < x + p := by
  have hle := Nat.mod_le x p
  unfold nextMultiple
  split_ifs <;> omega

theorem eq_of_dvd_of_close {a b : Nat} (ha : p ∣ a) (hb : p ∣ b) (hab : a < b + p)
    (hba : b < a + p) : a = b := by
  obtain ⟨i, rfl⟩ := ha
  obtain ⟨j, rfl⟩ := hb
  have hij : i < j + 1 :=
    Nat.lt_of_mul_lt_mul_left (a := p) (by rw [Nat.mul_add, Nat.mul_one]; exact hab)
  have hji : j < i + 1 :=
    Nat.lt_of_mul_lt_mul_left (a := p) (by rw [Nat.mul_add, Nat.mul_one]; exact hba)
  rw [show i = j by omega]

private theorem nextMultiple_eq (hp : 0 < p) {k : Nat} (hk : p ∣ k) (hx : x ≤ k) (hlt : k < x + p) :
    nextMultiple p x = k := by
  have h1 := le_nextMultiple hp x
  have h2 := nextMultiple_lt hp x
  exact eq_of_dvd_of_close (dvd_nextMultiple p x) hk (by omega) (by omega)

theorem nextMultiple_of_between (hp : 0 < p) {r : Nat} (hr : r ≤ x)
    (hx : x ≤ nextMultiple p r) : nextMultiple p x = nextMultiple p r := by
  have h := nextMultiple_lt hp r
  exact nextMultiple_eq hp (dvd_nextMultiple p r) hx (by omega)

theorem nextMultiple_inside (hp : 0 < p) {start : Nat} (hs : p ∣ start) (hlo : start < x)
    (hhi : x < start + p) : nextMultiple p x = start + p :=
  nextMultiple_eq hp (hs.add (dvd_refl p)) (by omega) (by omega)

/-- In a window that starts at a multiple of the period and is not longer than it, the
position in the window is the position in the period. -/
theorem mod_of_window {start len : Nat} (hs : p ∣ start) (hlo : start ≤ x)
    (hhi : x < start + len) (hlen : len ≤ p) : x % p = x - start := by
  obtain ⟨k, rfl⟩ := hs
  obtain ⟨d, rfl⟩ := Nat.exists_eq_add_of_le hlo
  rw [Nat.mul_add_mod, Nat.mod_eq_of_lt (by omega)]
  omega

theorem sub_mod_eq_of_inside {y : Nat} (hlo : x - x % p ≤ y) (hhi : y < x - x % p + p) :
    y - y % p = x - x % p := by
  have hmod := mod_of_window (Nat.dvd_sub_mod x) hlo hhi le_rfl
  omega

theorem start_eq_of_slots {slot len a b c : Nat} (hlen : slot < len) (ha : a ≤ c) (hb : b ≤ c)
    (hfirst : c < a + slot) (hin : c < b + len)
    (h : ∀ t, c ≤ t → t < a + len → t < b + len → (t - b) / slot = (t - a) / slot) : b = a := by
  have hsecond : a + slot < b + len := by
    by_contra hshort
    have hlast := h (b + len - 1) (by omega) (by omega) (by omega)
    rw [Nat.div_eq_of_lt (show b + len - 1 - a < slot by omega)] at hlast
    have hpos : 0 < (b + len - 1 - b) / slot := Nat.div_pos (by omega) (by omega)
    omega
  have hone := h (a + slot) (by omega) (by omega) hsecond
  rw [Nat.add_sub_cancel_left, Nat.div_self (by omega)] at hone
  have hzero := h (a + slot - 1) (by omega) (by omega) (by omega)
  rw [Nat.div_eq_of_lt (show a + slot - 1 - a < slot by omega)] at hzero
  have hle : ¬ a + slot - b < slot := fun hlt => by
    rw [Nat.div_eq_of_lt hlt] at hone
    omega
  have hge : a + slot - 1 - b < slot := by
    by_contra hlt
    have hpos : 0 < (a + slot - 1 - b) / slot := Nat.div_pos (by omega) (by omega)
    omega
  omega

end LoraMultihop.Foundation.Periodic
