/- digest: Byte memory with block reads and writes, and little-endian integers. -/

import Mathlib.Data.List.GetD
import Mathlib.Tactic

set_option autoImplicit false
set_option relaxedAutoImplicit false

namespace LoraMultihop.Foundation.ByteMemory

abbrev Bytes := List UInt8

/-- The bytes from one base address on. -/
abbrev Memory := Nat → UInt8

def read (m : Memory) (off len : Nat) : Bytes := (List.range len).map fun i => m (off + i)

/-- Copy a block of bytes to offset `off`. -/
def write (m : Memory) (off : Nat) (bs : Bytes) : Memory := fun a =>
  if off ≤ a ∧ a < off + bs.length then bs.getD (a - off) 0 else m a

@[simp] theorem read_length (m : Memory) (off len : Nat) : (read m off len).length = len := by
  simp [read]

@[simp] theorem read_zero (m : Memory) (off : Nat) : read m off 0 = [] := rfl

theorem read_cons (m : Memory) (off len : Nat) :
    read m off (len + 1) = m off :: read m (off + 1) len := by
  simp only [read, List.range_succ_eq_map, List.map_cons, List.map_map, Function.comp_def,
    Nat.add_zero]
  congr 1
  apply List.map_congr_left
  intro i _
  rw [Nat.add_assoc, Nat.add_comm 1 i]

theorem read_append (m : Memory) (off a b : Nat) :
    read m off (a + b) = read m off a ++ read m (off + a) b := by
  induction a generalizing off with
  | zero => simp
  | succ a ih =>
      rw [show a + 1 + b = (a + b) + 1 by omega, read_cons, read_cons, ih]
      simp only [List.cons_append, show off + 1 + a = off + (a + 1) by omega]

theorem read_congr {m m' : Memory} {off len : Nat}
    (h : ∀ a, off ≤ a → a < off + len → m a = m' a) : read m off len = read m' off len := by
  apply List.map_congr_left
  intro i hi
  exact h _ (Nat.le_add_right _ _) (by have := List.mem_range.mp hi; omega)

theorem write_outside (m : Memory) (off : Nat) (bs : Bytes) {a : Nat}
    (h : a < off ∨ off + bs.length ≤ a) : write m off bs a = m a := by
  have hout : ¬(off ≤ a ∧ a < off + bs.length) := by omega
  rw [write, if_neg hout]

/-- Reading back the block just written. -/
theorem read_write_same (m : Memory) (off : Nat) (bs : Bytes) :
    read (write m off bs) off bs.length = bs := by
  apply List.ext_getElem
  · simp
  · intro i hi hi'
    have hin : off ≤ off + i ∧ off + i < off + bs.length := ⟨by omega, by omega⟩
    simp only [read, write, List.getElem_map, List.getElem_range, if_pos hin]
    simp [List.getElem?_eq_getElem hi']

theorem read_write_disjoint (m : Memory) (off : Nat) (bs : Bytes) {off' len : Nat}
    (h : off' + len ≤ off ∨ off + bs.length ≤ off') :
    read (write m off bs) off' len = read m off' len := by
  apply read_congr
  intro a ha hb
  exact write_outside m off bs (by omega)

theorem write_write_append (m : Memory) (off : Nat) (a b : Bytes) :
    write (write m off a) (off + a.length) b = write m off (a ++ b) := by
  ext x : 1
  simp only [write, List.length_append]
  by_cases hb : off + a.length ≤ x ∧ x < off + a.length + b.length
  · rw [if_pos hb, if_pos (by omega), List.getD_append_right _ _ _ _ (by omega)]
    congr 1
    omega
  · rw [if_neg hb]
    by_cases ha : off ≤ x ∧ x < off + a.length
    · rw [if_pos ha, if_pos (by omega), List.getD_append _ _ _ _ (by omega)]
    · rw [if_neg ha, if_neg (by omega)]

@[simp] theorem write_nil (m : Memory) (off : Nat) : write m off [] = m := by
  ext x : 1
  exact write_outside m off [] (by simp; omega)

theorem write_write_prefix (m : Memory) (off : Nat) {a a' : Bytes} (b : Bytes)
    (h : a'.length = a.length) :
    write (write m off (a ++ b)) off a' = write m off (a' ++ b) := by
  ext x : 1
  simp only [write, List.length_append, h]
  by_cases ha : off ≤ x ∧ x < off + a.length
  · rw [if_pos ha, if_pos (by omega), List.getD_append _ _ _ _ (by omega)]
  · rw [if_neg ha]
    by_cases hb : off ≤ x ∧ x < off + (a.length + b.length)
    · rw [if_pos hb, if_pos hb, List.getD_append_right _ _ _ _ (by omega),
        List.getD_append_right _ _ _ _ (by omega), h]
    · rw [if_neg hb, if_neg hb]

/-- Bytes read back one by one. -/
theorem read_eq_iff {m m' : Memory} {off len : Nat} :
    read m off len = read m' off len ↔ ∀ a, off ≤ a → a < off + len → m a = m' a := by
  refine ⟨?_, read_congr⟩
  intro h a ha hb
  have hi := List.map_inj_left.mp h (a - off) (List.mem_range.mpr (by omega))
  rwa [Nat.add_sub_cancel' ha] at hi

theorem take_drop_blocks {f : Nat → Bytes} {k : Nat} (hf : ∀ i, (f i).length = k) {i n : Nat}
    (hi : i < n) : (((List.range n).flatMap f).drop (i * k)).take k = f i := by
  induction i generalizing f n with
  | zero =>
      obtain ⟨n, rfl⟩ := Nat.exists_eq_succ_of_ne_zero (Nat.ne_of_gt hi)
      rw [List.range_succ_eq_map, List.flatMap_cons, Nat.zero_mul, List.drop_zero,
        List.take_left' (hf 0)]
  | succ i ih =>
      obtain ⟨n, rfl⟩ := Nat.exists_eq_succ_of_ne_zero (Nat.ne_of_gt (Nat.zero_lt_of_lt hi))
      rw [List.range_succ_eq_map, List.flatMap_cons, List.flatMap_map, Nat.succ_mul, Nat.add_comm,
        ← List.drop_drop, List.drop_left' (hf 0)]
      exact ih (fun j => hf (j + 1)) (Nat.lt_of_succ_lt_succ hi)

def leNat : Bytes → Nat
  | [] => 0
  | b :: bs => b.toNat + 256 * leNat bs

/-- The `n`-byte little-endian string of an integer, its higher digits dropped. -/
def leBytes : Nat → Nat → Bytes
  | 0, _ => []
  | n + 1, x => UInt8.ofNat x :: leBytes n (x / 256)

@[simp] theorem leBytes_length (n x : Nat) : (leBytes n x).length = n := by
  induction n generalizing x with
  | zero => rfl
  | succ n ih => simp [leBytes, ih]

theorem leNat_leBytes (n x : Nat) : leNat (leBytes n x) = x % 256 ^ n := by
  induction n generalizing x with
  | zero => simp [leBytes, leNat, Nat.mod_one]
  | succ n ih =>
      have hb : (UInt8.ofNat x).toNat = x % 256 := by simp
      rw [leBytes, leNat, hb, ih, Nat.pow_succ, Nat.mul_comm (256 ^ n), Nat.mod_mul]

theorem leNat_leBytes_of_lt {n x : Nat} (h : x < 256 ^ n) : leNat (leBytes n x) = x := by
  rw [leNat_leBytes, Nat.mod_eq_of_lt h]

/-- Every byte string is the little-endian string of its own value. -/
theorem leBytes_leNat (bs : Bytes) : leBytes bs.length (leNat bs) = bs := by
  induction bs with
  | nil => rfl
  | cons b bs ih =>
      have hb : b.toNat < 256 := b.toNat_lt
      have hdiv : (b.toNat + 256 * leNat bs) / 256 = leNat bs := by omega
      have hlow : UInt8.ofNat (b.toNat + 256 * leNat bs) = b := by
        apply UInt8.toNat_inj.mp
        simp
      rw [leNat, List.length_cons, leBytes, hdiv, ih, hlow]

end LoraMultihop.Foundation.ByteMemory
