/- digest: Byte strings packed one after the other, each behind a one-byte length. -/

import Mathlib.Tactic
import LoraMultihop.Foundation.ByteMemory

set_option autoImplicit false
set_option relaxedAutoImplicit false

namespace LoraMultihop.Foundation.LengthPrefix

open LoraMultihop.Foundation.ByteMemory

def pack : List Bytes → Bytes
  | [] => []
  | b :: q => UInt8.ofNat b.length :: (b ++ pack q)

@[simp] theorem pack_nil : pack [] = [] := rfl

@[simp] theorem pack_append (p q : List Bytes) : pack (p ++ q) = pack p ++ pack q := by
  induction p with
  | nil => rfl
  | cons b p ih => simp [pack, ih]

theorem pack_singleton (b : Bytes) : pack [b] = UInt8.ofNat b.length :: b := by simp [pack]

theorem pack_length (q : List Bytes) : (pack q).length = q.length + (q.map List.length).sum := by
  induction q with
  | nil => rfl
  | cons b q ih =>
      simp only [pack, List.length_cons, List.length_append, ih, List.map_cons, List.sum_cons]
      omega

theorem length_lt_pack {q : List Bytes} {b : Bytes} (h : b ∈ q) : b.length < (pack q).length := by
  have hle := List.le_sum_of_mem (List.mem_map_of_mem (f := List.length) h)
  have hpos := List.length_pos_of_mem h
  rw [pack_length]
  omega

/-- The `n` strings packed from offset `off` on. -/
def unpack (m : Memory) : Nat → Nat → List Bytes
  | 0, _ => []
  | n + 1, off => read m (off + 1) (m off).toNat :: unpack m n (off + 1 + (m off).toNat)

theorem read_pack_cons {m : Memory} {off : Nat} {b : Bytes} {q : List Bytes}
    (hshort : b.length < 256) (h : read m off (pack (b :: q)).length = pack (b :: q)) :
    (m off).toNat = b.length ∧ read m (off + 1) b.length = b ∧
      read m (off + 1 + b.length) (pack q).length = pack q := by
  have hlen : (pack (b :: q)).length = b.length + (pack q).length + 1 := by simp [pack]
  rw [hlen, read_cons, read_append] at h
  simp only [pack, List.cons.injEq] at h
  obtain ⟨hhead, htail⟩ := h
  obtain ⟨hb, hq⟩ := List.append_inj htail (by simp)
  refine ⟨?_, hb, hq⟩
  rw [hhead]
  simpa using hshort

theorem unpack_pack {m : Memory} {off : Nat} {q : List Bytes} (hshort : ∀ b ∈ q, b.length < 256)
    (h : read m off (pack q).length = pack q) : unpack m q.length off = q := by
  induction q generalizing off with
  | nil => rfl
  | cons b q ih =>
      obtain ⟨hlen, hb, hq⟩ := read_pack_cons (hshort b List.mem_cons_self) h
      rw [List.length_cons, unpack, hlen, hb,
        ih (fun c hc => hshort c (List.mem_cons_of_mem b hc)) hq]

/-- The whole block is fewer than `k` packed strings. -/
def PacksFewer (k : Nat) (block : Bytes) : Prop :=
  ∃ q : List Bytes, (∀ b ∈ q, b.length < 256) ∧ block = pack q ∧ q.length < k

theorem not_packsFewer_zero (block : Bytes) : ¬ PacksFewer 0 block := by
  rintro ⟨q, -, -, hlt⟩
  exact absurd hlt (Nat.not_lt_zero _)

theorem packsFewer_nil {k : Nat} (h : 0 < k) : PacksFewer k [] :=
  ⟨[], fun _ hb => absurd hb List.not_mem_nil, rfl, h⟩

theorem packsFewer_cons {k : Nat} {c : UInt8} {block : Bytes} :
    PacksFewer (k + 1) (c :: block) ↔
      c.toNat ≤ block.length ∧ PacksFewer k (block.drop c.toNat) := by
  constructor
  · rintro ⟨q, hshort, hpack, hlt⟩
    cases q with
    | nil => exact absurd hpack (by simp)
    | cons b q =>
        obtain ⟨hhead, htail⟩ := List.cons.inj hpack
        have hlen : c.toNat = b.length := by
          rw [hhead]
          simpa using hshort b List.mem_cons_self
        rw [hlen, htail]
        refine ⟨by simp, q, fun d hd => hshort d (List.mem_cons_of_mem b hd), ?_, ?_⟩
        · exact List.drop_left
        · exact Nat.lt_of_succ_lt_succ hlt
  · rintro ⟨hle, q, hshort, hpack, hlt⟩
    have hlen : (block.take c.toNat).length = c.toNat := List.length_take_of_le hle
    refine ⟨block.take c.toNat :: q, ?_, ?_, Nat.succ_lt_succ hlt⟩
    · intro b hb
      cases List.mem_cons.mp hb with
      | inl hb =>
          rw [hb, hlen]
          exact c.toNat_lt
      | inr hb => exact hshort b hb
    · rw [pack, hlen, ← hpack, List.take_append_drop, UInt8.ofNat_toNat]

theorem pack_cons_prefix {c : UInt8} {block : Bytes} {q : List Bytes} (hle : c.toNat ≤ block.length)
    (h : pack q <+: block.drop c.toNat) : pack (block.take c.toNat :: q) <+: c :: block := by
  rw [pack, List.length_take_of_le hle, UInt8.ofNat_toNat, List.cons_prefix_cons]
  refine ⟨rfl, ?_⟩
  obtain ⟨rest, hrest⟩ := h
  exact ⟨rest, by rw [List.append_assoc, hrest, List.take_append_drop]⟩

end LoraMultihop.Foundation.LengthPrefix
