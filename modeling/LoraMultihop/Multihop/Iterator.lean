/- digest: What the calls of a datagram iterator return, with fragments taken back in between. -/

import LoraMultihop.Multihop.Fragments

set_option autoImplicit false
set_option relaxedAutoImplicit false

namespace LoraMultihop.Multihop.Iterator

open LoraMultihop.Foundation.ByteMemory (Bytes)
open LoraMultihop.Multihop.Messages
open LoraMultihop.Multihop.Fragments

inductive Op
  | next | peek | rewind
  deriving DecidableEq

/-- An iterator with the fragments that `next` has returned and no `rewind` has undone. The flag
says that the last call was a `next` that returned one. -/
structure Session where
  iter : DatagramIterator
  kept : List (Body × Bytes)
  undoable : Bool

def start (buf : Bytes) (max : UInt16) : Session := ⟨.create buf max, [], false⟩

namespace Session

def step (s : Session) : Op → Session
  | .next =>
      match s.iter.next with
      | some (header, bytes, iter) => ⟨iter, s.kept ++ [(header, bytes)], true⟩
      | none => { s with undoable := false }
  | .peek => { s with undoable := false }
  | .rewind => ⟨s.iter.rewind, s.kept.dropLast, false⟩

def run (s : Session) (ops : List Op) : Session := ops.foldl step s

/-- The fragment a call returns; `none` where it returns false. -/
def returns (s : Session) : Op → Option (Body × Bytes)
  | .next => s.iter.next.map fun r => (r.1, r.2.1)
  | .peek => s.iter.peek
  | .rewind => none

/-- Each `rewind` directly follows a successful `next`. -/
def Legal (s : Session) : List Op → Prop
  | [] => True
  | op :: ops => (op = .rewind → s.undoable = true) ∧ (s.step op).Legal ops

instance decidableLegal (s : Session) : (ops : List Op) → Decidable (s.Legal ops)
  | [] => isTrue trivial
  | op :: ops =>
      have := decidableLegal (s.step op) ops
      inferInstanceAs (Decidable (_ ∧ _))

end Session

/-- The fragment has the number `k`, and its header says so. -/
def IsFragment (buf : Bytes) (max : UInt16) (k : Nat) (f : Body × Bytes) : Prop :=
  ∃ packetBytes count part, f.1 = .datagram packetBytes count part ∧
    packetBytes.toNat = f.2.length ∧ count.toNat = fragmentCount buf max ∧ part.toNat = k ∧
    1 ≤ f.2.length ∧ f.2.length ≤ max.toNat

/-- The fragments kept are those of the part of the buffer consumed so far. -/
structure Consumes (buf : Bytes) (max : UInt16) (s : Session) : Prop where
  numbered : ∀ k (h : k < s.kept.length), IsFragment buf max k s.kept[k]
  consumed : (s.kept.map Prod.snd).flatten = buf.take s.iter.i
  peeked : ∀ n, (s.run (List.replicate n .peek)).returns .next = s.returns .peek
  ended : s.returns .next = none ↔ s.kept.length = fragmentCount buf max
  covered : s.returns .next = none → (s.kept.map Prod.snd).flatten = buf

/-- The iterator stands behind the fragments kept; a fragment that may be undone has only just been
returned. -/
structure Standing (buf : Bytes) (max : UInt16) (s : Session) : Prop where
  place : IterAt buf max s.kept.length s.iter
  kept : s.kept = (fragments buf max).take s.kept.length
  undo : s.undoable = true →
    ∃ iter before, s.iter = advanced iter ∧ s.kept.length = before + 1 ∧ IterAt buf max before iter

structure Refused (s : Session) : Prop where
  ended : s.iter.hasNext = false
  kept : s.kept = []
  undo : s.undoable = false

section Steps

variable {buf : Bytes} {max : UInt16} {s : Session}

private theorem start_standing (hcount : fragmentCount buf max ≤ 255) :
    Standing buf max (start buf max) :=
  ⟨create_at hcount, rfl, fun h => absurd h (by simp [start])⟩

private theorem start_refused (hcount : 255 < fragmentCount buf max) : Refused (start buf max) := by
  refine ⟨?_, rfl, rfl⟩
  rw [start, create_eq, if_pos hcount]
  simp [DatagramIterator.hasNext]

private theorem Standing.next (h : Standing buf max s) (hmax : 1 ≤ max.toNat) :
    Standing buf max (s.step .next) := by
  rw [Session.step]
  cases hnext : s.iter.hasNext with
  | false =>
      rw [next_none hnext]
      exact ⟨h.place, h.kept, fun hu => absurd hu (by simp)⟩
  | true =>
      have hk := (h.place.hasNext_iff hmax).mp hnext
      rw [next_some hnext]
      dsimp only
      rw [h.place.fragment hmax hk]
      refine ⟨?_, ?_, fun _ => ⟨s.iter, s.kept.length, rfl, by simp, h.place⟩⟩
      · rw [List.length_append]
        exact h.place.advanced hmax hk
      · rw [List.length_append, List.length_singleton, fragments_take_succ hk, ← h.kept]

private theorem Standing.rewind (h : Standing buf max s) (hu : s.undoable = true) :
    Standing buf max (s.step .rewind) := by
  obtain ⟨iter, before, hiter, hlen, hbefore⟩ := h.undo hu
  have hkept : s.kept = (fragments buf max).take (before + 1) := hlen ▸ h.kept
  have hdrop : s.kept.dropLast = (fragments buf max).take before := by
    rw [List.dropLast_eq_take, hlen, hkept, List.take_take, Nat.add_sub_cancel,
      Nat.min_eq_left (Nat.le_succ before)]
  have hdropLen : s.kept.dropLast.length = before := by
    rw [List.length_dropLast, hlen, Nat.add_sub_cancel]
  rw [Session.step, hiter, rewind_advanced]
  refine ⟨?_, ?_, fun hu => absurd hu (by simp)⟩
  · rw [hdropLen]
    exact hbefore.kept
  · rw [hdropLen]
    exact hdrop

private theorem Standing.step (h : Standing buf max s) (hmax : 1 ≤ max.toNat) {op : Op}
    (hop : op = .rewind → s.undoable = true) : Standing buf max (s.step op) := by
  cases op with
  | next => exact h.next hmax
  | peek => exact ⟨h.place, h.kept, fun hu => absurd hu (by simp [Session.step])⟩
  | rewind => exact h.rewind (hop rfl)

private theorem Refused.step (h : Refused s) {op : Op} (hop : op = .rewind → s.undoable = true) :
    Refused (s.step op) := by
  cases op with
  | next =>
      rw [Session.step, next_none h.ended]
      exact ⟨h.ended, h.kept, rfl⟩
  | peek => exact ⟨h.ended, h.kept, rfl⟩
  | rewind => exact absurd (h.undo.symm.trans (hop rfl)) (by simp)

private theorem Standing.run (h : Standing buf max s) (hmax : 1 ≤ max.toNat) {ops : List Op}
    (hlegal : s.Legal ops) : Standing buf max (s.run ops) := by
  induction ops generalizing s with
  | nil => exact h
  | cons op ops ih => exact ih (h.step hmax hlegal.1) hlegal.2

private theorem Refused.run (h : Refused s) {ops : List Op} (hlegal : s.Legal ops) :
    Refused (s.run ops) := by
  induction ops generalizing s with
  | nil => exact h
  | cons op ops ih => exact ih (h.step hlegal.1) hlegal.2

end Steps

section Sessions

variable {buf : Bytes} {max : UInt16} {s : Session}

private theorem fragmentAt_isFragment {k : Nat} (hmax : 1 ≤ max.toNat)
    (hcount : fragmentCount buf max ≤ 255) (hk : k < fragmentCount buf max) :
    IsFragment buf max k (fragmentAt buf max k) := by
  have hlt := (lt_fragmentCount_iff hmax).mp hk
  have hbound := max.toNat_lt
  have hlen : (fragmentAt buf max k).2.length = min max.toNat (buf.length - k * max.toNat) := by
    simp [fragmentAt]
  refine ⟨_, _, _, rfl, ?_, ?_, ?_, by omega, by omega⟩
  · apply UInt16.toNat_ofNat_of_lt'
    change (fragmentAt buf max k).2.length < 65536
    omega
  · exact UInt8.toNat_ofNat_of_lt' (Nat.lt_succ_of_le hcount)
  · apply UInt8.toNat_ofNat_of_lt'
    change k < 256
    omega

/-- Any number of calls of `peek` leaves the iterator as it was. -/
private theorem run_peeks (s : Session) (n : Nat) :
    (s.run (List.replicate n .peek)).iter = s.iter := by
  induction n generalizing s with
  | zero => rfl
  | succ n ih => exact ih (s.step .peek)

private theorem returns_peek (s : Session) : s.returns .next = s.returns .peek := by
  simp only [Session.returns, DatagramIterator.next, Option.map_map]
  cases s.iter.peek with
  | none => rfl
  | some r => rfl

private theorem returns_none_iff (s : Session) :
    s.returns .next = none ↔ s.iter.hasNext = false := by
  rw [Session.returns, Option.map_eq_none_iff]
  cases hnext : s.iter.hasNext with
  | false => simp [next_none hnext]
  | true => simp [next_some hnext]

private theorem Standing.consumes (h : Standing buf max s) (hmax : 1 ≤ max.toNat)
    (hcount : fragmentCount buf max ≤ 255) : Consumes buf max s := by
  have hended : s.returns .next = none ↔ s.kept.length = fragmentCount buf max := by
    have hle := h.place.le
    rw [returns_none_iff, ← Bool.not_eq_true, h.place.hasNext_iff hmax]
    omega
  have hflat : (s.kept.map Prod.snd).flatten = buf.take s.iter.i := by
    have hstart : (((fragments buf max).take s.kept.length).map Prod.snd).flatten =
        buf.take (s.kept.length * max.toNat) := fragments_take_flatten h.place.le
    rw [← h.kept] at hstart
    rw [hstart, h.place.place, ← List.take_take, List.take_length]
  refine ⟨?_, hflat, ?_, hended, ?_⟩
  · intro k hk
    have hlt : k < fragmentCount buf max := lt_of_lt_of_le hk h.place.le
    have helem : s.kept[k] = fragmentAt buf max k := by
      have hget := congrArg (fun l => l[k]?) h.kept
      simpa [hk, hlt, fragments] using hget
    rw [helem]
    exact fragmentAt_isFragment hmax hcount hlt
  · intro n
    rw [returns_peek, Session.returns, Session.returns, run_peeks]
  · intro hnone
    rw [h.kept, hended.mp hnone, ← fragments_length buf max, List.take_length]
    exact fragments_flatten hmax

/-- Whatever is taken back in between, an iterator returns the fragments of its buffer in order
until the buffer is covered; where the buffer has too many, it returns none. -/
theorem iterator_consumes (buf : Bytes) (max : UInt16) (hmax : 1 ≤ max.toNat) (ops : List Op)
    (hlegal : (start buf max).Legal ops) :
    let s := (start buf max).run ops
    (fragmentCount buf max ≤ 255 → Consumes buf max s) ∧
      (255 < fragmentCount buf max →
        s.kept = [] ∧ s.returns .next = none ∧ s.returns .peek = none) := by
  intro s
  constructor
  · intro hcount
    have hs : Standing buf max s := (start_standing hcount).run hmax hlegal
    exact hs.consumes hmax hcount
  · intro hcount
    have hs : Refused s := (start_refused hcount).run hlegal
    have hnone := (returns_none_iff s).mpr hs.ended
    exact ⟨hs.kept, hnone, (returns_peek s).symm.trans hnone⟩

theorem refused_last_fragment_returned :
    let ops := [Op.next, .peek, .next, .rewind, .peek, .next, .next, .rewind, .next, .next]
    Consumes [10, 20, 30, 40, 50] 2 ((start [10, 20, 30, 40, 50] 2).run ops) :=
  (iterator_consumes _ 2 (by decide) _ (by decide)).1 (by decide)

end Sessions

end LoraMultihop.Multihop.Iterator
