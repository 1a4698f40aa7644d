/- digest: Sums of bytes, and what one changed byte does to them. -/

import Mathlib.Tactic
import LoraMultihop.Foundation.ByteMemory

set_option autoImplicit false
set_option relaxedAutoImplicit false

namespace LoraMultihop.Foundation.ByteSum

open LoraMultihop.Foundation.ByteMemory

def byteSum (bs : Bytes) : Nat := (bs.map UInt8.toNat).sum

@[simp] theorem byteSum_nil : byteSum [] = 0 := rfl

@[simp] theorem byteSum_cons (b : UInt8) (bs : Bytes) :
    byteSum (b :: bs) = b.toNat + byteSum bs := by
  simp [byteSum]

@[simp] theorem byteSum_append (bs bs' : Bytes) :
    byteSum (bs ++ bs') = byteSum bs + byteSum bs' := by
  simp [byteSum]

private theorem byteSum_le (bs : Bytes) : byteSum bs ≤ 255 * bs.length := by
  induction bs with
  | nil => simp
  | cons b bs ih =>
      have hb := b.toNat_lt
      rw [byteSum_cons, List.length_cons]
      omega

theorem byteSum_take_le (bs : Bytes) (n : Nat) : byteSum (bs.take n) ≤ byteSum bs := by
  have hsplit := congrArg byteSum (List.take_append_drop n bs)
  rw [byteSum_append] at hsplit
  omega

theorem byteSum_set (bs : Bytes) {i : Nat} (hi : i < bs.length) (b : UInt8) :
    byteSum (bs.set i b) + bs[i].toNat = byteSum bs + b.toNat := by
  induction bs generalizing i with
  | nil => exact absurd hi (Nat.not_lt_zero i)
  | cons c bs ih =>
      cases i with
      | zero =>
          simp only [List.set_cons_zero, byteSum_cons, List.getElem_cons_zero]
          omega
      | succ i =>
          have hrest := ih (Nat.lt_of_succ_lt_succ hi)
          simp only [List.set_cons_succ, byteSum_cons, List.getElem_cons_succ]
          omega

theorem foldl_add_toNat (bs : Bytes) (c : UInt16) :
    (bs.foldl (fun c b => c + b.toUInt16) c).toNat = (c.toNat + byteSum bs) % 2 ^ 16 := by
  induction bs generalizing c with
  | nil =>
      rw [List.foldl_nil, byteSum_nil, Nat.add_zero]
      exact (Nat.mod_eq_of_lt c.toNat_lt).symm
  | cons b bs ih =>
      rw [List.foldl_cons, ih, UInt16.toNat_add, UInt8.toNat_toUInt16, byteSum_cons,
        Nat.mod_add_mod, Nat.add_assoc]

theorem byteSum_inj {bs bs' : Bytes} (hlen : bs.length ≤ 257) (hlen' : bs'.length ≤ 257)
    (h : byteSum bs % 2 ^ 16 = byteSum bs' % 2 ^ 16) : byteSum bs = byteSum bs' := by
  have hle := byteSum_le bs
  have hle' := byteSum_le bs'
  rwa [Nat.mod_eq_of_lt (by omega), Nat.mod_eq_of_lt (by omega)] at h

end LoraMultihop.Foundation.ByteSum
