/- digest: Little-endian fields at fixed offsets of a byte string. -/

import LoraMultihop.Foundation.ByteMemory

set_option autoImplicit false
set_option relaxedAutoImplicit false

namespace LoraMultihop.Foundation.Fields

open LoraMultihop.Foundation.ByteMemory

/-- The integer in the `len` bytes from offset `off` on. -/
def field (data : Bytes) (off len : Nat) : Nat := leNat ((data.drop off).take len)

@[simp] theorem field_cons (b : UInt8) (data : Bytes) (off len : Nat) :
    field (b :: data) (off + 1) len = field data off len := rfl

@[simp] theorem field_byte (b : UInt8) (data : Bytes) : field (b :: data) 0 1 = b.toNat := by
  simp [field, leNat]

theorem field_leBytes {n x : Nat} (h : x < 256 ^ n) (data : Bytes) :
    field (leBytes n x ++ data) 0 n = x := by
  rw [field, List.drop_zero, List.take_left' (leBytes_length n x), leNat_leBytes_of_lt h]

theorem leNat_lt (bs : Bytes) : leNat bs < 256 ^ bs.length := by
  have h := leNat_leBytes bs.length (leNat bs)
  rw [leBytes_leNat] at h
  rw [h]
  exact Nat.mod_lt _ (by positivity)

theorem field_lt (data : Bytes) (off len : Nat) : field data off len < 256 ^ len := by
  apply lt_of_lt_of_le (leNat_lt _)
  apply Nat.pow_le_pow_right (by decide)
  exact List.length_take_le ..

end LoraMultihop.Foundation.Fields
