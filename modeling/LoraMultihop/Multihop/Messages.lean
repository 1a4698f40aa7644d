/- digest: The messages of the protocol as bytes, their decoder, and datagram fragmentation. -/

import Mathlib.Data.Fin.VecNotation
import Mathlib.Tactic
import LoraMultihop.Foundation.ByteMemory
import LoraMultihop.Net.Params

set_option autoImplicit false
set_option relaxedAutoImplicit false

namespace LoraMultihop.Multihop.Messages

open LoraMultihop.Foundation.ByteMemory
open LoraMultihop.Net.Params

inductive MessageType
  | openCluster | follow | accept | closeCluster | sendAcks | datagram | heartbeat | unknown
  deriving DecidableEq

def MessageType.toByte : MessageType → UInt8
  | .openCluster => 0
  | .follow => 1
  | .accept => 2
  | .closeCluster => 3
  | .sendAcks => 4
  | .datagram => 5
  | .heartbeat => 6
  | .unknown => 7

/-- Counts of the neighbors in the eight rings from `ringStart` on. -/
structure RingList where
  ringStart : UInt8
  counts : Fin 8 → UInt8
  deriving DecidableEq

def RingList.empty : RingList := ⟨0, fun _ => 0⟩

def RingList.toBytes (r : RingList) : Bytes :=
  [r.ringStart, r.counts 0, r.counts 1, r.counts 2, r.counts 3, r.counts 4, r.counts 5,
    r.counts 6, r.counts 7]

abbrev RingList.firstCount (r : RingList) : UInt8 := r.counts 0

/-- The loop of `score` from index `i` on; `max` is the 8-bit `ring_start + 8`. -/
def RingList.score (r : RingList) (nodeRing : Ring) : UInt32 :=
  if GATEWAY_RING = nodeRing then 0xFFFFFFFF
  else
    let max : UInt8 := r.ringStart + 8
    (List.finRange 8).foldl
      (fun (sum : UInt32) (i : Fin 8) =>
        let multiplier : UInt8 := max - UInt8.ofNat i.val
        sum + multiplier.toUInt32 * (r.counts i).toUInt32)
      0

/-- The fixed part of a message after its header; `accepted` is the raw byte. -/
inductive Body
  | openCluster (ring : Ring) (node : Address) (neighbors : RingList)
  | follow (clusterhead follower : Address)
  | accept (accepted : UInt8) (follower : Address) (startSlot relativeSlot : UInt8)
      (remoteTimeS : UInt32)
  | closeCluster (nomination : Address) (neighbors : RingList)
  | sendAcks (start stop : UInt8)
  | datagram (packetBytes : UInt16) (count part : UInt8)
  | heartbeat (ring : Ring)
  deriving DecidableEq

def Body.type : Body → MessageType
  | .openCluster _ _ _ => .openCluster
  | .follow _ _ => .follow
  | .accept _ _ _ _ _ => .accept
  | .closeCluster _ _ => .closeCluster
  | .sendAcks _ _ => .sendAcks
  | .datagram _ _ _ => .datagram
  | .heartbeat _ => .heartbeat

def Body.toBytes : Body → Bytes
  | .openCluster ring node neighbors => ring :: node :: neighbors.toBytes
  | .follow clusterhead follower => [clusterhead, follower]
  | .accept accepted follower startSlot relativeSlot remoteTimeS =>
      [accepted, follower, startSlot, relativeSlot] ++ leBytes 4 remoteTimeS.toNat
  | .closeCluster nomination neighbors => nomination :: neighbors.toBytes
  | .sendAcks start stop => [start, stop]
  | .datagram packetBytes count part => leBytes 2 packetBytes.toNat ++ [count, part]
  | .heartbeat ring => [ring]

/-- A message without its variable-length tail. -/
structure Message where
  sequence : UInt32
  src : Address
  body : Body
  deriving DecidableEq

def HEADER_SZ : Nat := 6

def SEND_ACKS_SZ : Nat := 2

def Message.toBytes (m : Message) : Bytes :=
  leBytes 4 m.sequence.toNat ++ [m.src, m.body.type.toByte] ++ m.body.toBytes

/-- The sizes of the seven bodies, each with the header. -/
def Message.size (m : Message) : Nat :=
  match m.body.type with
  | .openCluster => 11 + HEADER_SZ
  | .follow => 2 + HEADER_SZ
  | .accept => 8 + HEADER_SZ
  | .closeCluster => 10 + HEADER_SZ
  | .sendAcks => SEND_ACKS_SZ + HEADER_SZ
  | .datagram => 4 + HEADER_SZ
  | .heartbeat => 1 + HEADER_SZ
  | .unknown => 0

/-- The body and the tail after a header of type `type`, where the sizes agree. -/
def decodeBody (type : UInt8) (rest : Bytes) : Option (Body × Bytes) :=
  match type, rest with
  | 0, [ring, node, start, c0, c1, c2, c3, c4, c5, c6, c7] =>
      some (.openCluster ring node ⟨start, ![c0, c1, c2, c3, c4, c5, c6, c7]⟩, [])
  | 1, [clusterhead, follower] => some (.follow clusterhead follower, [])
  | 2, [accepted, follower, startSlot, relativeSlot, t0, t1, t2, t3] =>
      some (.accept accepted follower startSlot relativeSlot
        (UInt32.ofNat (leNat [t0, t1, t2, t3])), [])
  | 3, [nomination, start, c0, c1, c2, c3, c4, c5, c6, c7] =>
      some (.closeCluster nomination ⟨start, ![c0, c1, c2, c3, c4, c5, c6, c7]⟩, [])
  | 4, start :: stop :: acks =>
      if stop ≤ start then none
      else if acks.length = (stop - start).toNat * 4 then some (.sendAcks start stop, acks)
      else none
  | 5, b0 :: b1 :: count :: part :: packet =>
      let packetBytes := UInt16.ofNat (leNat [b0, b1])
      if packet.length = packetBytes.toNat then some (.datagram packetBytes count part, packet)
      else none
  | 6, [ring] => some (.heartbeat ring, [])
  | _, _ => none

/-- The message and the bytes that follow it, if the whole string is one message. -/
def decodeMsg (buf : Bytes) : Option (Message × Bytes) :=
  match buf with
  | s0 :: s1 :: s2 :: s3 :: src :: type :: rest =>
      (decodeBody type rest).map fun r =>
        (⟨UInt32.ofNat (leNat [s0, s1, s2, s3]), src, r.1⟩, r.2)
  | _ => none

private theorem ringList_eta (r : RingList) :
    (⟨r.ringStart, ![r.counts 0, r.counts 1, r.counts 2, r.counts 3, r.counts 4, r.counts 5,
      r.counts 6, r.counts 7]⟩ : RingList) = r := by
  congr 1
  ext i
  fin_cases i <;> rfl

private theorem leBytes_four (x : UInt32) :
    ∃ b0 b1 b2 b3, leBytes 4 x.toNat = [b0, b1, b2, b3] ∧
      UInt32.ofNat (leNat [b0, b1, b2, b3]) = x := by
  refine ⟨_, _, _, _, rfl, ?_⟩
  change UInt32.ofNat (leNat (leBytes 4 x.toNat)) = x
  rw [leNat_leBytes_of_lt x.toNat_lt, UInt32.ofNat_toNat]

private theorem leBytes_two (x : UInt16) :
    ∃ b0 b1, leBytes 2 x.toNat = [b0, b1] ∧ UInt16.ofNat (leNat [b0, b1]) = x := by
  refine ⟨_, _, rfl, ?_⟩
  change UInt16.ofNat (leNat (leBytes 2 x.toNat)) = x
  rw [leNat_leBytes_of_lt x.toNat_lt, UInt16.ofNat_toNat]

/-- Where the tail has the length the body announces. -/
def Body.Fits : Body → Bytes → Prop
  | .sendAcks start stop, tail => start < stop ∧ tail.length = (stop - start).toNat * 4
  | .datagram packetBytes _ _, tail => tail.length = packetBytes.toNat
  | _, tail => tail = []

private theorem decodeBody_toBytes {body : Body} {tail : Bytes} (h : body.Fits tail) :
    decodeBody body.type.toByte (body.toBytes ++ tail) = some (body, tail) := by
  cases body with
  | openCluster ring node neighbors =>
      obtain rfl : tail = [] := h
      simp only [Body.type, MessageType.toByte, Body.toBytes, RingList.toBytes, List.append_nil,
        decodeBody, ringList_eta]
  | follow clusterhead follower =>
      obtain rfl : tail = [] := h
      rfl
  | accept accepted follower startSlot relativeSlot remoteTimeS =>
      obtain rfl : tail = [] := h
      obtain ⟨b0, b1, b2, b3, hb, ht⟩ := leBytes_four remoteTimeS
      simp only [Body.type, MessageType.toByte, Body.toBytes, hb, List.append_nil,
        List.cons_append, List.nil_append, decodeBody, ht]
  | closeCluster nomination neighbors =>
      obtain rfl : tail = [] := h
      simp only [Body.type, MessageType.toByte, Body.toBytes, RingList.toBytes, List.append_nil,
        decodeBody, ringList_eta]
  | sendAcks start stop =>
      obtain ⟨hlt, hlen⟩ := h
      simp only [Body.type, MessageType.toByte, Body.toBytes, List.cons_append, List.nil_append,
        decodeBody]
      rw [if_neg (UInt8.not_le.mpr hlt), if_pos hlen]
  | datagram packetBytes count part =>
      obtain ⟨b0, b1, hb, hp⟩ := leBytes_two packetBytes
      have hlen : tail.length = packetBytes.toNat := h
      simp only [Body.type, MessageType.toByte, Body.toBytes, hb, List.cons_append,
        List.nil_append, decodeBody, hp]
      rw [if_pos hlen]
  | heartbeat ring =>
      obtain rfl : tail = [] := h
      rfl

/-- A message written with a fitting tail is decoded to itself. -/
theorem decodeMsg_toBytes {m : Message} {tail : Bytes} (h : m.body.Fits tail) :
    decodeMsg (m.toBytes ++ tail) = some (m, tail) := by
  obtain ⟨b0, b1, b2, b3, hb, hs⟩ := leBytes_four m.sequence
  simp only [Message.toBytes, hb, List.cons_append, List.nil_append, decodeMsg,
    decodeBody_toBytes h, Option.map_some, hs]

private theorem decodeBody_rejects {body : Body} {tail : Bytes} (h : ¬ body.Fits tail) :
    decodeBody body.type.toByte (body.toBytes ++ tail) = none := by
  have hcons (hne : tail ≠ []) : ∃ b bs, tail = b :: bs := List.exists_cons_of_ne_nil hne
  cases body with
  | openCluster ring node neighbors =>
      obtain ⟨b, bs, rfl⟩ := hcons h
      rfl
  | follow clusterhead follower =>
      obtain ⟨b, bs, rfl⟩ := hcons h
      rfl
  | accept accepted follower startSlot relativeSlot remoteTimeS =>
      obtain ⟨b, bs, rfl⟩ := hcons h
      rfl
  | closeCluster nomination neighbors =>
      obtain ⟨b, bs, rfl⟩ := hcons h
      rfl
  | sendAcks start stop =>
      simp only [Body.type, MessageType.toByte, Body.toBytes, List.cons_append, List.nil_append,
        decodeBody]
      split_ifs with hle hlen
      · rfl
      · exact absurd ⟨UInt8.not_le.mp hle, hlen⟩ h
      · rfl
  | datagram packetBytes count part =>
      obtain ⟨b0, b1, hb, hp⟩ := leBytes_two packetBytes
      have hlen : tail.length ≠ packetBytes.toNat := h
      simp only [Body.type, MessageType.toByte, Body.toBytes, hb, List.cons_append,
        List.nil_append, decodeBody, hp]
      rw [if_neg hlen]
  | heartbeat ring =>
      obtain ⟨b, bs, rfl⟩ := hcons h
      rfl

/-- Whatever follows a message written, the decoder finds that message or none. -/
theorem eq_of_decodeMsg {m : Message} {tail : Bytes} {r : Message × Bytes}
    (h : decodeMsg (m.toBytes ++ tail) = some r) : r = (m, tail) := by
  by_cases hfits : m.body.Fits tail
  · rw [decodeMsg_toBytes hfits] at h
    exact (Option.some.inj h).symm
  · have hnone : decodeMsg (m.toBytes ++ tail) = none := by
      simp only [Message.toBytes, leBytes, List.cons_append, List.nil_append, decodeMsg,
        decodeBody_rejects hfits, Option.map_none]
    rw [hnone] at h
    exact absurd h (by simp)

/-- A datagram being cut into fragments; `i` is the first byte not yet taken. -/
structure DatagramIterator where
  part : UInt8
  count : UInt8
  i : Nat
  buf : Bytes
  maxFragmentBytes : UInt16
  lastMsgSz : UInt16
  deriving DecidableEq

/-- The constructor; the quotient in floating point is exact for every buffer that fits memory. -/
def DatagramIterator.create (buf : Bytes) (maxFragmentBytes : UInt16) : DatagramIterator :=
  let count := (buf.length + maxFragmentBytes.toNat - 1) / maxFragmentBytes.toNat
  if 255 < count then ⟨0, 0, buf.length, buf, maxFragmentBytes, 0⟩
  else ⟨0, UInt8.ofNat count, 0, buf, maxFragmentBytes, 0⟩

def DatagramIterator.rewind (iter : DatagramIterator) : DatagramIterator :=
  { iter with lastMsgSz := 0, i := iter.i - iter.lastMsgSz.toNat, part := iter.part - 1 }

def DatagramIterator.hasNext (iter : DatagramIterator) : Bool := decide (iter.i ≠ iter.buf.length)

/-- The `Datagram` header and the bytes of the next fragment. -/
def DatagramIterator.peek (iter : DatagramIterator) : Option (Body × Bytes) :=
  if iter.hasNext then
    let packetBytes := min (iter.buf.length - iter.i) iter.maxFragmentBytes.toNat
    some (.datagram (UInt16.ofNat packetBytes) iter.count iter.part,
      (iter.buf.drop iter.i).take packetBytes)
  else none

def DatagramIterator.next (iter : DatagramIterator) :
    Option (Body × Bytes × DatagramIterator) :=
  iter.peek.map fun r =>
    let lastMsgSz := UInt16.ofNat r.2.length
    (r.1, r.2,
      { iter with
        lastMsgSz := lastMsgSz
        part := iter.part + 1
        i := iter.i + lastMsgSz.toNat })

end LoraMultihop.Multihop.Messages
