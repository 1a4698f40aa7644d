/- digest: What the senders write and what the decoder accepts are the same strings. -/

import LoraMultihop.Foundation.Fields
import LoraMultihop.Multihop.Discovery

set_option autoImplicit false
set_option relaxedAutoImplicit false

namespace LoraMultihop.Multihop.Codec

open LoraMultihop.Foundation.ByteMemory
open LoraMultihop.Foundation.Fields (leNat_lt)
open LoraMultihop.Net.Params
open LoraMultihop.Link
open LoraMultihop.Multihop.Messages
open LoraMultihop.Multihop.State
open LoraMultihop.Multihop.Sending

private theorem leBytes_ofNat_four (b0 b1 b2 b3 : UInt8) :
    leBytes 4 (UInt32.ofNat (leNat [b0, b1, b2, b3])).toNat = [b0, b1, b2, b3] := by
  have hlt : leNat [b0, b1, b2, b3] < UInt32.size :=
    (leNat_lt [b0, b1, b2, b3]).trans_eq (by norm_num [UInt32.size])
  rw [UInt32.toNat_ofNat_of_lt' hlt]
  exact leBytes_leNat [b0, b1, b2, b3]

private theorem leBytes_ofNat_two (b0 b1 : UInt8) :
    leBytes 2 (UInt16.ofNat (leNat [b0, b1])).toNat = [b0, b1] := by
  have hlt : leNat [b0, b1] < UInt16.size :=
    (leNat_lt [b0, b1]).trans_eq (by norm_num [UInt16.size])
  rw [UInt16.toNat_ofNat_of_lt' hlt]
  exact leBytes_leNat [b0, b1]

private theorem eq_of_decodeBody {type : UInt8} {rest : Bytes} {body : Body} {tail : Bytes}
    (h : decodeBody type rest = some (body, tail)) :
    type = body.type.toByte ∧ rest = body.toBytes ++ tail ∧ body.Fits tail := by
  unfold decodeBody at h
  split at h
  · obtain ⟨rfl, rfl⟩ := Prod.mk.inj (Option.some.inj h)
    exact ⟨rfl, rfl, rfl⟩
  · obtain ⟨rfl, rfl⟩ := Prod.mk.inj (Option.some.inj h)
    exact ⟨rfl, rfl, rfl⟩
  · obtain ⟨rfl, rfl⟩ := Prod.mk.inj (Option.some.inj h)
    refine ⟨rfl, ?_, rfl⟩
    rw [Body.toBytes, leBytes_ofNat_four]
    rfl
  · obtain ⟨rfl, rfl⟩ := Prod.mk.inj (Option.some.inj h)
    exact ⟨rfl, rfl, rfl⟩
  · split_ifs at h with hle hlen
    obtain ⟨rfl, rfl⟩ := Prod.mk.inj (Option.some.inj h)
    exact ⟨rfl, rfl, UInt8.not_le.mp hle, hlen⟩
  · dsimp only at h
    split_ifs at h with hlen
    obtain ⟨rfl, rfl⟩ := Prod.mk.inj (Option.some.inj h)
    refine ⟨rfl, ?_, hlen⟩
    rw [Body.toBytes, leBytes_ofNat_two]
    rfl
  · obtain ⟨rfl, rfl⟩ := Prod.mk.inj (Option.some.inj h)
    exact ⟨rfl, rfl, rfl⟩
  · exact absurd h (by simp)

/-- The decoder accepts the encodings of messages with a fitting tail and nothing else. -/
theorem decodeMsg_eq_some_iff {buf : Bytes} {m : Message} {tail : Bytes} :
    decodeMsg buf = some (m, tail) ↔ buf = m.toBytes ++ tail ∧ m.body.Fits tail := by
  constructor
  · intro h
    unfold decodeMsg at h
    split at h
    · next s0 s1 s2 s3 src type rest =>
      obtain ⟨⟨body, tail'⟩, hbody, heq⟩ := Option.map_eq_some_iff.mp h
      obtain ⟨rfl, rfl⟩ := Prod.mk.inj heq
      obtain ⟨htype, hrest, hfits⟩ := eq_of_decodeBody hbody
      refine ⟨?_, hfits⟩
      rw [Message.toBytes, leBytes_ofNat_four, htype, hrest]
      rfl
    · exact absurd h (by simp)
  · rintro ⟨rfl, hfits⟩
    exact decodeMsg_toBytes hfits

theorem toBytes_length (m : Message) : m.toBytes.length = m.size := by
  obtain ⟨sequence, src, body⟩ := m
  cases body <;> rfl

/-- The functions that queue one message, with their arguments and clock readings. -/
inductive Request
  | openCluster (stamp : UInt32)
  | follow (clusterhead : Address) (stamp : UInt32)
  | accept (follower : Address) (remote stamp : UInt32)
  | closeCluster (renominate : Bool) (stamp : UInt32)
  | sendHeartbeat (stamp : UInt32)
  | sendDatagram (stamp : UInt32) (iter : DatagramIterator)
  | sendAcks (ackStart ackEnd : UInt8) (stamp : UInt32)

def Request.exec : Request → Node → Node
  | .openCluster stamp, n => (Sending.openCluster stamp n).2
  | .follow clusterhead stamp, n => (Sending.follow clusterhead stamp n).2
  | .accept follower remote stamp, n => (Sending.accept follower remote stamp n).2
  | .closeCluster renominate stamp, n => (Sending.closeCluster renominate stamp n).2
  | .sendHeartbeat stamp, n => (Sending.sendHeartbeat stamp n).2
  | .sendDatagram stamp iter, n => (Sending.sendDatagram stamp iter n).2.2
  | .sendAcks ackStart ackEnd stamp, n => (Sending.sendAcks ackStart ackEnd stamp n).2.2

/-- The message, and the bytes after it, that an initialized node hands to the link layer. -/
def Request.message (n : Node) : Request → Option (Message × Bytes)
  | .openCluster stamp =>
      some (⟨stamp, n.state.address,
        .openCluster n.state.ring n.state.address n.state.neighbors⟩, [])
  | .follow clusterhead stamp =>
      some (⟨stamp, n.state.address, .follow clusterhead n.state.address⟩, [])
  | .accept follower remote stamp => some (acceptMessage follower remote stamp n, [])
  | .closeCluster renominate stamp =>
      some (⟨stamp, n.state.address,
        .closeCluster (if renominate then n.state.address else UNKNOWN_ADDR)
          n.state.neighbors⟩, [])
  | .sendHeartbeat stamp => some (⟨stamp, n.state.address, .heartbeat n.state.ring⟩, [])
  | .sendDatagram stamp iter =>
      iter.next.bind fun r =>
        if Queue.txBytesAvailable n.link < r.2.2.lastMsgSz.toNat then none
        else some (⟨stamp, n.state.address, r.1⟩, r.2.1)
  | .sendAcks ackStart _ stamp =>
      if Queue.txBytesAvailable n.link ≤ HEADER_SZ + SEND_ACKS_SZ then none
      else
        some (⟨stamp, n.state.address,
          .sendAcks ackStart (UInt8.ofNat (ackStart.toNat + ackCount ackStart n))⟩,
          ackBytes n.state.acks ackStart.toNat (ackCount ackStart n))

/-- What a request hands to the link layer, if it gets that far. -/
def Request.handed (r : Request) (n : Node) : Option (Message × Bytes) :=
  if n.state.initialized = false then none else r.message n

private theorem handed_of_initialized (r : Request) {n : Node} (hi : n.state.initialized = true) :
    r.handed n = r.message n := if_neg (by simp [hi])

private theorem send_link {n n' : Node} (m : Message) (tail : Bytes) (h : n'.link = n.link) :
    (send m tail n').2.link = (send m tail n).2.link := by
  rw [send, send, h]

private theorem exec_link (r : Request) (n : Node) :
    (r.exec n).link =
      match r.handed n with
      | some (m, tail) => (send m tail n).2.link
      | none => n.link := by
  by_cases hi : n.state.initialized = true
  · have hno : ¬ n.state.initialized = false := by simp [hi]
    rw [handed_of_initialized r hi]
    cases r with
    | openCluster stamp => rw [Request.exec, openCluster, if_neg hno]; rfl
    | follow clusterhead stamp => rw [Request.exec, follow, if_neg hno]; rfl
    | accept follower remote stamp =>
        rw [Request.exec, accept_snd remote stamp hi]
        apply send_link _ _
        rw [assign]
        split_ifs <;> rfl
    | closeCluster renominate stamp => rw [Request.exec, closeCluster, if_neg hno]; rfl
    | sendHeartbeat stamp => rw [Request.exec, sendHeartbeat, if_neg hno]; rfl
    | sendDatagram stamp iter =>
        rw [Request.exec, sendDatagram, if_neg hno, Request.message]
        cases iter.next with
        | none => rfl
        | some next =>
            dsimp only [Option.bind_some]
            split_ifs <;> rfl
    | sendAcks ackStart ackEnd stamp =>
        rw [Request.exec, Request.message]
        split_ifs with havail
        · rw [sendAcks, if_neg hno]
          dsimp only
          rw [if_pos havail]
        · rw [sendAcks_eq ackStart ackEnd stamp hi (Nat.not_le.mp havail)]
  · have hno : n.state.initialized = false := by simpa using hi
    rw [Request.handed, if_pos hno]
    cases r with
    | openCluster stamp => rw [Request.exec, openCluster, if_pos hno]
    | follow clusterhead stamp => rw [Request.exec, follow, if_pos hno]
    | accept follower remote stamp => rw [Request.exec, accept, if_pos hno]
    | closeCluster renominate stamp => rw [Request.exec, closeCluster, if_pos hno]
    | sendHeartbeat stamp => rw [Request.exec, sendHeartbeat, if_pos hno]
    | sendDatagram stamp iter => rw [Request.exec, sendDatagram, if_pos hno]
    | sendAcks ackStart ackEnd stamp => rw [Request.exec, sendAcks, if_pos hno]

private theorem next_fits {iter : DatagramIterator} {r : Body × Bytes × DatagramIterator}
    (h : iter.next = some r) : r.1.Fits r.2.1 := by
  obtain ⟨fragment, hpeek, rfl⟩ := Option.map_eq_some_iff.mp h
  rw [DatagramIterator.peek] at hpeek
  split_ifs at hpeek
  obtain rfl := Option.some.inj hpeek
  have hmax := iter.maxFragmentBytes.toNat_lt
  change ((iter.buf.drop iter.i).take _).length = (UInt16.ofNat _).toNat
  rw [UInt16.toNat_ofNat_of_lt' (by simp only [UInt16.size]; omega), List.length_take,
    List.length_drop]
  omega

private theorem handed_fits {r : Request} {n : Node} {m : Message} {tail : Bytes}
    (h : r.handed n = some (m, tail)) (hacks : m.body.type = .sendAcks → tail ≠ []) :
    m.body.Fits tail := by
  rw [Request.handed] at h
  split_ifs at h
  cases r with
  | openCluster stamp =>
      obtain ⟨rfl, rfl⟩ := Prod.mk.inj (Option.some.inj h)
      rfl
  | follow clusterhead stamp =>
      obtain ⟨rfl, rfl⟩ := Prod.mk.inj (Option.some.inj h)
      rfl
  | accept follower remote stamp =>
      obtain ⟨rfl, rfl⟩ := Prod.mk.inj (Option.some.inj h)
      rw [acceptMessage]
      split <;> rfl
  | closeCluster renominate stamp =>
      obtain ⟨rfl, rfl⟩ := Prod.mk.inj (Option.some.inj h)
      rfl
  | sendHeartbeat stamp =>
      obtain ⟨rfl, rfl⟩ := Prod.mk.inj (Option.some.inj h)
      rfl
  | sendDatagram stamp iter =>
      obtain ⟨next, hnext, hsend⟩ := Option.bind_eq_some_iff.mp h
      split_ifs at hsend
      obtain ⟨rfl, rfl⟩ := Prod.mk.inj (Option.some.inj hsend)
      exact next_fits hnext
  | sendAcks ackStart ackEnd stamp =>
      rw [Request.message] at h
      split_ifs at h
      obtain ⟨rfl, rfl⟩ := Prod.mk.inj (Option.some.inj h)
      have hpos : 0 < ackCount ackStart n := by
        by_contra hzero
        refine hacks rfl (List.eq_nil_of_length_eq_zero ?_)
        rw [ackBytes_length]
        simp [Nat.eq_zero_of_not_pos hzero]
      exact acks_fit n.state.acks hpos (ackCount_le ackStart n)

private theorem toByte_lt (body : Body) : body.type.toByte < 7 := by
  cases body <;> exact of_decide_eq_true rfl

/-- Every message that a request hands to the link layer is decoded to itself. Conversely a
string the decoder accepts is the encoding of one message and tail, whose lengths agree, and of no
other. -/
theorem codec_round_trip :
    (∀ (r : Request) (n : Node), (r.exec n).link =
      match r.handed n with
      | some (m, tail) => (send m tail n).2.link
      | none => n.link) ∧
    (∀ (r : Request) (n : Node) (m : Message) (tail : Bytes), r.handed n = some (m, tail) →
      (m.body.type = .sendAcks → tail ≠ []) → decodeMsg (m.toBytes ++ tail) = some (m, tail)) ∧
    ∀ (buf : Bytes) (m : Message) (tail : Bytes), decodeMsg buf = some (m, tail) →
      (∀ r : Message × Bytes, buf = r.1.toBytes ++ r.2 ∧ r.1.body.Fits r.2 ↔ r = (m, tail)) ∧
        buf[5]? = some m.body.type.toByte ∧ m.body.type.toByte < 7 ∧
        buf.take m.size = m.toBytes ∧ buf.drop m.size = tail := by
  refine ⟨exec_link, ?_, ?_⟩
  · intro r n m tail hhanded hacks
    exact decodeMsg_toBytes (handed_fits hhanded hacks)
  · intro buf m tail hdecode
    obtain ⟨hbuf, hfits⟩ := decodeMsg_eq_some_iff.mp hdecode
    refine ⟨?_, ?_, ?_, ?_, ?_⟩
    · intro r
      constructor
      · intro hr
        exact Option.some.inj ((decodeMsg_eq_some_iff.mpr hr).symm.trans hdecode)
      · rintro rfl
        exact ⟨hbuf, hfits⟩
    · rw [hbuf]
      rfl
    · exact toByte_lt m.body
    · rw [hbuf, ← toBytes_length, List.take_left]
    · rw [hbuf, ← toBytes_length, List.drop_left]

def setupAcks : Message × Bytes := (⟨72, 5, .sendAcks 0 22⟩, List.replicate 88 0)

theorem setupAcks_round_trip :
    decodeMsg (setupAcks.1.toBytes ++ setupAcks.2) = some setupAcks ∧
      (setupAcks.1.toBytes ++ setupAcks.2).drop setupAcks.1.size = setupAcks.2 := by
  have hdecode := codec_round_trip.2.1 (.sendAcks 0 0 72) (Discovery.setupNode 5) setupAcks.1
    setupAcks.2 (by decide +kernel) (by decide)
  exact ⟨hdecode, (codec_round_trip.2.2 _ _ _ hdecode).2.2.2.2⟩

end LoraMultihop.Multihop.Codec
