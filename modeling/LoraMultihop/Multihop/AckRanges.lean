/- digest: When the range of a SendAcks agrees with the space the link layer has for it. -/

import LoraMultihop.Multihop.Reports
import LoraMultihop.Multihop.Codec

set_option autoImplicit false
set_option relaxedAutoImplicit false

namespace LoraMultihop.Multihop.AckRanges

open LoraMultihop.Foundation.ByteMemory (Bytes)
open LoraMultihop.Net.Params
open LoraMultihop.Link
open LoraMultihop.Multihop.Messages
open LoraMultihop.Multihop.State
open LoraMultihop.Multihop.Sending
open LoraMultihop.Multihop.Slots
open LoraMultihop.Multihop.Reports
open LoraMultihop.Multihop.Codec
open LoraMultihop.Multihop.Discovery (setupNode)

section Ranges

variable (ackStart ackEnd : UInt8) (stamp : UInt32) (n : Node)

/-- With an ack to send and room for a message with one ack, the call queues acks from `ackStart`
on, and `*ack_end` tells how many. -/
def SendsRange : Prop :=
  let r := sendAcks ackStart ackEnd stamp n
  ackStart.toNat < min n.state.slotCount 255 → n.state.initialized = true →
    Room (acksSize 1) n →
      r.1 = .ok ∧ ackStart < r.2.1 ∧ r.2.1.toNat ≤ n.state.slotCount ∧
        r.2.2 = n.push (acksMessage n.state stamp ackStart (r.2.1.toNat - ackStart.toNat))

/-- The message the call has queued decodes to the range it names. -/
def DecodesRange : Prop :=
  let r := sendAcks ackStart ackEnd stamp n
  r.1 = .ok → ∃ b, r.2.2 = n.push b ∧
    ∃ sequence src acks, decodeMsg b = some (⟨sequence, src, .sendAcks ackStart r.2.1⟩, acks)

/-- The acks from `ackStart` on that a range can name. -/
def acksLeft : Nat := min n.state.slotCount 255 - ackStart.toNat

/-- Where at least one ack is left and fits behind the header: the acks left do not take the free
bytes to the last one or beyond it, unless dividing by their size has left some over, and the
message is not too big. Where not: there is no room for a message without acks. -/
def SpaceAgrees : Prop :=
  n.state.initialized = true → n.link.initialized = true →
    if 0 < acksLeft ackStart n ∧ acksSize 1 ≤ Queue.txBytesAvailable n.link then
      Room (acksSize 1) n →
        (4 ∣ Queue.txBytesAvailable n.link →
          acksSize (acksLeft ackStart n) < Queue.txBytesAvailable n.link) ∧
        acksSize (min (acksLeft ackStart n)
          ((Queue.txBytesAvailable n.link - acksSize 0) / ACK_SZ)) ≤ n.link.msgMaxBytes
    else Queue.txBytesAvailable n.link ≤ acksSize 0 ∨ n.link.msgMaxBytes < acksSize 0

private theorem acksSize_eq (count : Nat) : acksSize count = 8 + count * 4 := rfl

private theorem ackCount_eq_min :
    ackCount ackStart n =
      min (acksLeft ackStart n) ((Queue.txBytesAvailable n.link - acksSize 0) / ACK_SZ) := by
  have hempty : acksSize 0 = HEADER_SZ + SEND_ACKS_SZ := rfl
  rw [hempty]
  unfold ackCount acksLeft
  dsimp only
  generalize (Queue.txBytesAvailable n.link - (HEADER_SZ + SEND_ACKS_SZ)) / ACK_SZ = fitting
  split_ifs <;> omega

variable {ackStart n}

private theorem sendAcks_ok_iff (hi : n.state.initialized = true) :
    (sendAcks ackStart ackEnd stamp n).1 = .ok ↔
      acksSize 0 < Queue.txBytesAvailable n.link ∧ Room (acksSize (ackCount ackStart n)) n := by
  rcases sendAcks_cases ackStart ackEnd stamp hi with ⟨hok, havail, hroom, -⟩ | ⟨hno, -, hfull⟩
  · exact iff_of_true hok ⟨havail, hroom⟩
  · exact iff_of_false hno hfull

variable {ackEnd stamp}

private theorem sendAcks_range (hi : n.state.initialized = true)
    (hok : (sendAcks ackStart ackEnd stamp n).1 = .ok) :
    (sendAcks ackStart ackEnd stamp n).2.1.toNat = ackStart.toNat + ackCount ackStart n ∧
      (sendAcks ackStart ackEnd stamp n).2.2 =
        n.push (acksMessage n.state stamp ackStart (ackCount ackStart n)) := by
  rcases sendAcks_cases ackStart ackEnd stamp hi with ⟨-, -, -, hstop, hn⟩ | ⟨hno, -, -⟩
  · rw [hstop, ackEnd_toNat (ackCount_le ackStart n)]
    exact ⟨rfl, hn⟩
  · exact absurd hok hno

private theorem sendsRange_iff (hi : n.state.initialized = true) :
    SendsRange ackStart ackEnd stamp n ↔
      (0 < acksLeft ackStart n → Room (acksSize 1) n →
        Room (acksSize (ackCount ackStart n)) n) := by
  have hlt := ackStart.toNat_lt
  have hcount := ackCount_eq_min ackStart n
  rw [SendsRange]
  constructor
  · intro hsends hleft hroom
    rw [acksLeft] at hleft
    exact ((sendAcks_ok_iff ackEnd stamp hi).mp (hsends (by omega) hi hroom).1).2
  · intro hfits hstart _ hroom
    have hleft : 0 < acksLeft ackStart n := by
      rw [acksLeft]
      omega
    have havail := hroom.2.1
    rw [acksSize_eq] at havail
    have hok := (sendAcks_ok_iff ackEnd stamp hi).mpr
      ⟨by rw [acksSize_eq]; omega, hfits hleft hroom⟩
    obtain ⟨hstop, hn⟩ := sendAcks_range hi hok
    have hpos : 0 < ackCount ackStart n := by
      rw [hcount, acksSize_eq]
      unfold ACK_SZ
      omega
    refine ⟨hok, ?_, ?_, ?_⟩
    · rw [UInt8.lt_iff_toNat_lt, hstop]
      omega
    · rw [hstop]
      exact ackCount_slotCount hpos
    · rw [hn, hstop, Nat.add_sub_cancel_left]

private theorem decodesRange_iff (hi : n.state.initialized = true) :
    DecodesRange ackStart ackEnd stamp n ↔
      (acksSize 0 < Queue.txBytesAvailable n.link → Room (acksSize (ackCount ackStart n)) n →
        0 < ackCount ackStart n) := by
  rw [DecodesRange]
  constructor
  · intro hdecodes havail hroom
    have hok := (sendAcks_ok_iff ackEnd stamp hi).mpr ⟨havail, hroom⟩
    obtain ⟨b, hn, sequence, src, acks, hdecode⟩ := hdecodes hok
    obtain ⟨hstop, -⟩ := sendAcks_range hi hok
    have hlt : ackStart < (sendAcks ackStart ackEnd stamp n).2.1 :=
      (decodeMsg_eq_some_iff.mp hdecode).2.1
    rw [UInt8.lt_iff_toNat_lt, hstop] at hlt
    omega
  · intro hpos hok
    obtain ⟨havail, hroom⟩ := (sendAcks_ok_iff ackEnd stamp hi).mp hok
    obtain ⟨hstop, hn⟩ := sendAcks_range hi hok
    have hfits := acks_fit n.state.acks (hpos havail hroom) (ackCount_le ackStart n)
    rw [show (sendAcks ackStart ackEnd stamp n).2.1 = _ from UInt8.toNat_inj.mp
      (hstop.trans (ackEnd_toNat (ackCount_le ackStart n)).symm)]
    exact ⟨_, hn, stamp, n.state.address, _, decodeMsg_toBytes hfits⟩

end Ranges

/-- `send_acks` queues the acks there is room for, and nothing that does not decode, exactly where
its own count of the free bytes leaves one for the length and respects the limit of a message. The
queue stands for one of at most 255 bytes (`Queue.Sound`). -/
theorem sends_acks_iff (ackStart ackEnd : UInt8) (stamp : UInt32) (n : Node) :
    SendsRange ackStart ackEnd stamp n ∧ DecodesRange ackStart ackEnd stamp n ↔
        SpaceAgrees ackStart n := by
  by_cases hi : n.state.initialized = true
  · rw [sendsRange_iff hi, decodesRange_iff hi, SpaceAgrees, ackCount_eq_min]
    unfold Room
    by_cases hl : n.link.initialized = true
    · simp only [acksSize_eq, hi, hl, true_and, forall_const]
      unfold ACK_SZ
      generalize Queue.txBytesAvailable n.link = avail
      generalize acksLeft ackStart n = left
      generalize n.link.msgMaxBytes = msgMax
      split_ifs with hone
      · omega
      · omega
    · simp [hl]
  · have hfail : (sendAcks ackStart ackEnd stamp n).1 ≠ .ok := by
      rw [sendAcks, if_pos (by simpa using hi)]
      simp
    refine iff_of_true ⟨?_, ?_⟩ ?_
    · exact fun _ hi' => absurd hi' hi
    · exact fun hok => absurd hok hfail
    · exact fun hi' => absurd hi' hi

def loaded (first second : Nat) : Node :=
  { setupNode 5 with
    link :=
      { (setupNode 5).link with tx := [List.replicate first 0, List.replicate second 0] } }

/-- With 16 bytes free two acks are taken, and their message does not fit by the byte of its length;
with 10 free a message without acks is queued, which no receiver decodes. -/
theorem acks_miscounted :
    Queue.txBytesAvailable (loaded 110 115).link = 16 ∧
      (sendAcks 0 0 72 (loaded 110 115)).1 = .linkFull ∧
      ¬ SendsRange 0 0 72 (loaded 110 115) ∧
      Queue.txBytesAvailable (loaded 110 121).link = 10 ∧
      (sendAcks 0 0 72 (loaded 110 121)).1 = .ok ∧ ¬ DecodesRange 0 0 72 (loaded 110 121) := by
  have hfull : (sendAcks 0 0 72 (loaded 110 115)).1 = .linkFull := by decide +kernel
  refine ⟨by decide +kernel, hfull, ?_, by decide +kernel, by decide +kernel, ?_⟩
  · intro hsends
    have hok := (hsends (by decide +kernel) (by decide +kernel) (by decide +kernel)).1
    rw [hfull] at hok
    exact absurd hok (by simp)
  · intro hdecodes
    have hpos := (decodesRange_iff (by decide +kernel)).mp hdecodes (by decide +kernel)
      (by decide +kernel)
    exact absurd hpos (by decide +kernel)

end LoraMultihop.Multihop.AckRanges
