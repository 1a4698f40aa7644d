/- digest: When the frame of the acks slot says all it should. -/

import LoraMultihop.Multihop.Acks

set_option autoImplicit false
set_option relaxedAutoImplicit false

namespace LoraMultihop.Multihop.Reports

open LoraMultihop.Foundation.ByteMemory (Bytes)
open LoraMultihop.Foundation.LengthPrefix
open LoraMultihop.Net.Params
open LoraMultihop.Link
open LoraMultihop.Link.Layer (hashCdmaCode)
open LoraMultihop.Multihop.Messages
open LoraMultihop.Multihop.State
open LoraMultihop.Multihop.Sending
open LoraMultihop.Multihop.Slots
open LoraMultihop.Multihop.Relay
open LoraMultihop.Multihop.Acks

/-- The messages bring every assigned slot its current ack, and close the cluster. -/
def Complete (s : MultihopState) (msgs : List Bytes) : Prop :=
  (∀ i : UInt8, i < s.slotsAssigned → ∃ b ∈ msgs, ackFor i b = some (s.acks i.toNat)) ∧
    ∃ b ∈ msgs, isCloseCluster b = true

/-- A `do_clusterhead_send` that returns `Ok` has sent a complete frame. -/
def ReportsAll (inp : SendInput) (n : Node) : Prop :=
  (doClusterheadSend inp n).1 = .ok →
    ∃ f ∈ (doClusterheadSend inp n).2.2, Complete n.state f.msgs

def CLOSE_SZ : Nat := 16

def acksSize (count : Nat) : Nat := HEADER_SZ + SEND_ACKS_SZ + count * ACK_SZ

def AcksFit (n : Node) : Prop :=
  0 < n.state.slotsAssigned ∧ HEADER_SZ + SEND_ACKS_SZ < Queue.txBytesAvailable n.link ∧
    Room (acksSize (ackCount 0 n)) n

instance (len : Nat) (n : Node) : Decidable (Room len n) :=
  inferInstanceAs (Decidable (n.link.initialized = true ∧
    len + 1 ≤ Queue.txBytesAvailable n.link ∧ len ≤ n.link.msgMaxBytes))

instance (n : Node) : Decidable (AcksFit n) :=
  inferInstanceAs (Decidable (0 < n.state.slotsAssigned ∧
    HEADER_SZ + SEND_ACKS_SZ < Queue.txBytesAvailable n.link ∧
      Room (acksSize (ackCount 0 n)) n))

def acksRoom (n : Node) : Nat := if AcksFit n then acksSize (ackCount 0 n) + 1 else 0

def CloseFits (n : Node) : Prop :=
  n.link.initialized = true ∧
    acksRoom n + CLOSE_SZ + 1 ≤ Queue.txBytesAvailable n.link ∧ CLOSE_SZ ≤ n.link.msgMaxBytes

instance (n : Node) : Decidable (CloseFits n) :=
  inferInstanceAs (Decidable (n.link.initialized = true ∧
    acksRoom n + CLOSE_SZ + 1 ≤ Queue.txBytesAvailable n.link ∧ CLOSE_SZ ≤ n.link.msgMaxBytes))

/-- What a complete frame takes is in the queue already or fits into it. -/
def Supplied (n : Node) : Prop :=
  (∀ i : UInt8, i < n.state.slotsAssigned →
    (∃ b ∈ n.link.tx, ackFor i b = some (n.state.acks i.toNat)) ∨
      AcksFit n ∧ i.toNat < ackCount 0 n) ∧
    ((∃ b ∈ n.link.tx, isCloseCluster b = true) ∨ CloseFits n)

/-- The acks of the array, 255 at most, and the CloseCluster fit into the queue. -/
def RoomForReport (n : Node) : Prop :=
  acksSize (min 255 n.state.slotCount) + 1 + CLOSE_SZ + 1 ≤ Queue.txBytesAvailable n.link ∧
    acksSize (min 255 n.state.slotCount) ≤ n.link.msgMaxBytes ∧ CLOSE_SZ ≤ n.link.msgMaxBytes

private theorem acksMessage_length (s : MultihopState) (stamp : UInt32) (start : UInt8)
    (count : Nat) : (acksMessage s stamp start count).length = acksSize count := by
  rw [acksMessage, List.length_append, ackBytes_length]
  rfl

theorem sendAcks_cases (ackStart ackEnd : UInt8) (stamp : UInt32) {n : Node}
    (hi : n.state.initialized = true) :
    let r := sendAcks ackStart ackEnd stamp n
    r.1 = .ok ∧ HEADER_SZ + SEND_ACKS_SZ < Queue.txBytesAvailable n.link ∧
        Room (acksSize (ackCount ackStart n)) n ∧
        r.2.1 = UInt8.ofNat (ackStart.toNat + ackCount ackStart n) ∧
        r.2.2 = n.push (acksMessage n.state stamp ackStart (ackCount ackStart n)) ∨
      r.1 ≠ .ok ∧ r.2.2 = n ∧
        ¬(HEADER_SZ + SEND_ACKS_SZ < Queue.txBytesAvailable n.link ∧
          Room (acksSize (ackCount ackStart n)) n) := by
  intro r
  unfold r
  by_cases havail : HEADER_SZ + SEND_ACKS_SZ < Queue.txBytesAvailable n.link
  · have hsize := acksMessage_length n.state stamp ackStart (ackCount ackStart n)
    rw [acksMessage] at hsize
    rw [sendAcks_eq ackStart ackEnd stamp hi havail]
    rcases send_cases
        ⟨stamp, n.state.address,
          .sendAcks ackStart (UInt8.ofNat (ackStart.toNat + ackCount ackStart n))⟩
        (ackBytes n.state.acks ackStart.toNat (ackCount ackStart n)) n with
      ⟨hok, hroom, hn⟩ | ⟨hno, hroom, hn⟩
    · rw [hsize] at hroom
      exact Or.inl ⟨hok, havail, hroom, rfl, hn⟩
    · rw [hsize] at hroom
      exact Or.inr ⟨hno, hn, fun h => hroom h.2⟩
  · rw [sendAcks, if_neg (by simp [hi])]
    dsimp only
    rw [if_pos (Nat.le_of_not_lt havail)]
    exact Or.inr ⟨by simp, rfl, fun h => havail h.1⟩

private theorem acks_short {n : Node} (hslots : n.state.slotsAssigned.toNat ≤ n.state.slotCount)
    (hshort : ackCount 0 n < n.state.slotsAssigned.toNat) :
    Queue.txBytesAvailable n.link ≤ acksSize (ackCount 0 n) + ACK_SZ := by
  have hlt := n.state.slotsAssigned.toNat_lt
  unfold ackCount at hshort ⊢
  dsimp only [acksSize, HEADER_SZ, SEND_ACKS_SZ, ACK_SZ] at hshort ⊢
  simp only [UInt8.toNat_zero, Nat.zero_add] at hshort ⊢
  split_ifs at hshort ⊢ <;> omega

private theorem ackLoop_eq (stamps : Nat → UInt32) {n : Node} (hi : n.state.initialized = true)
    (hslots : n.state.slotsAssigned.toNat ≤ n.state.slotCount) :
    ackLoop (Queue.txBytesAvailable n.link + 1) stamps 0 0 n =
      if AcksFit n then n.push (acksMessage n.state (stamps 0) 0 (ackCount 0 n)) else n := by
  rw [ackLoop]
  by_cases hpos : 0 < n.state.slotsAssigned
  · rw [if_pos hpos]
    dsimp only
    rcases sendAcks_cases 0 0 (stamps 0) hi with ⟨hok, havail, hroom, hstop, hn⟩ | ⟨hno, hn, hfit⟩
    · rw [if_pos hok, hstop, hn, if_pos ⟨hpos, havail, hroom⟩]
      -- a second round finds every slot acknowledged, or no room
      obtain ⟨fuel, hfuel⟩ : ∃ fuel, Queue.txBytesAvailable n.link = fuel + 1 :=
        Nat.exists_eq_succ_of_ne_zero (by omega)
      rw [hfuel, ackLoop]
      split_ifs with hmore
      · have hle := ackCount_le 0 n
        have hshort : ackCount 0 n < n.state.slotsAssigned.toNat := by
          have h := UInt8.lt_iff_toNat_lt.mp hmore
          rw [UInt8.toNat_ofNat_of_lt' (by simp only [UInt8.size]; omega)] at h
          simpa using h
        have hfull := acks_short hslots hshort
        dsimp only
        rcases sendAcks_cases (UInt8.ofNat ((0 : UInt8).toNat + ackCount 0 n))
            (UInt8.ofNat ((0 : UInt8).toNat + ackCount 0 n)) (stamps 1)
            (n := n.push (acksMessage n.state (stamps 0) 0 (ackCount 0 n))) hi with
          ⟨-, havail', -⟩ | ⟨hno, hn', -⟩
        · rw [push_available, acksMessage_length] at havail'
          simp only [HEADER_SZ, SEND_ACKS_SZ, ACK_SZ] at havail' hfull
          omega
        · rw [if_neg hno, hn']
      · rfl
    · rw [if_neg hno, hn, if_neg (fun h => hfit h.2)]
  · rw [if_neg hpos, if_neg (fun h => hpos h.1)]

private theorem closeCluster_eq (renominate : Bool) (stamp : UInt32) {n : Node}
    (hi : n.state.initialized = true) :
    (closeCluster renominate stamp n).2 =
      if Room CLOSE_SZ n then n.push (closeMessage n.state stamp renominate) else n := by
  rw [closeCluster, if_neg (by simp [hi])]
  have hcases := send_cases
    ⟨stamp, n.state.address,
      .closeCluster (if renominate then n.state.address else UNKNOWN_ADDR) n.state.neighbors⟩ [] n
  rw [List.append_nil] at hcases
  rcases hcases with ⟨-, hroom, hn⟩ | ⟨-, hroom, hn⟩
  · exact hn.trans (if_pos hroom).symm
  · exact hn.trans (if_neg hroom).symm

private theorem queueChMessages_tx (inp : SendInput) {n : Node} (hi : n.state.initialized = true)
    (hslots : n.state.slotsAssigned.toNat ≤ n.state.slotCount) :
    (queueChMessages inp n).link.tx = n.link.tx ++
      (if AcksFit n then [acksMessage n.state (inp.stamps 0) 0 (ackCount 0 n)] else []) ++
      (if CloseFits n then
        [closeMessage n.state inp.closeStamp (announceClusterhead inp.rand n.state)] else []) := by
  rw [queueChMessages]
  rw [ackLoop_eq inp.stamps hi hslots]
  by_cases hacks : AcksFit n
  · have hroom : Room CLOSE_SZ
        (n.push (acksMessage n.state (inp.stamps 0) 0 (ackCount 0 n))) ↔ CloseFits n := by
      have hfit := hacks.2.2.2.1
      rw [Room, push_available, acksMessage_length, CloseFits, acksRoom, if_pos hacks]
      constructor
      · rintro ⟨hlink, havail, hmax⟩
        exact ⟨hlink, by omega, hmax⟩
      · rintro ⟨hlink, havail, hmax⟩
        exact ⟨hlink, by omega, hmax⟩
    rw [if_pos hacks, if_pos hacks, closeCluster_eq _ _ (by rwa [push_state]), push_state]
    by_cases hfits : CloseFits n
    · rw [if_pos (hroom.mpr hfits), if_pos hfits]
      rfl
    · rw [if_neg (fun h => hfits (hroom.mp h)), if_neg hfits, List.append_nil]
      rfl
  · have hroom : Room CLOSE_SZ n ↔ CloseFits n := by
      rw [Room, CloseFits, acksRoom, if_neg hacks, Nat.zero_add]
    rw [if_neg hacks, if_neg hacks, closeCluster_eq _ _ hi, List.append_nil]
    by_cases hfits : CloseFits n
    · rw [if_pos (hroom.mpr hfits), if_pos hfits]
      rfl
    · rw [if_neg (fun h => hfits (hroom.mp h)), if_neg hfits, List.append_nil]

private theorem queued_complete_iff (inp : SendInput) {n : Node} (hi : n.state.initialized = true)
    (hslots : n.state.slotsAssigned.toNat ≤ n.state.slotCount) :
    Complete n.state (queueChMessages inp n).link.tx ↔ Supplied n := by
  have hqueued (p : Bytes → Prop) : (∃ b ∈ (queueChMessages inp n).link.tx, p b) ↔
      (∃ b ∈ n.link.tx, p b) ∨
        AcksFit n ∧ p (acksMessage n.state (inp.stamps 0) 0 (ackCount 0 n)) ∨
        CloseFits n ∧
          p (closeMessage n.state inp.closeStamp (announceClusterhead inp.rand n.state)) := by
    rw [queueChMessages_tx inp hi hslots, List.append_assoc]
    simp only [List.mem_append, or_and_right, exists_or, List.mem_ite_nil_right,
      List.mem_singleton, and_assoc, exists_and_left, exists_eq_left]
  have hack (i : UInt8) : ackFor i (acksMessage n.state (inp.stamps 0) 0 (ackCount 0 n)) =
      some (n.state.acks i.toNat) ↔ i.toNat < ackCount 0 n := by
    rw [ackFor_acksMessage n.state _ (ackCount_le 0 n)]
    simp
  obtain ⟨hclose, hother⟩ := closeMessage_decodes n.state inp.closeStamp
    (announceClusterhead inp.rand n.state)
  simp only [Complete, Supplied, hqueued, hack, ackFor_none hother, acksMessage_close, hclose,
    reduceCtorEq, and_false, or_false, and_true, false_or]

private theorem ackCount_room {n : Node}
    (h : acksSize (min 255 n.state.slotCount) ≤ Queue.txBytesAvailable n.link) :
    ackCount 0 n = min 255 n.state.slotCount := by
  unfold ackCount
  dsimp only [acksSize, HEADER_SZ, SEND_ACKS_SZ, ACK_SZ] at h ⊢
  simp only [UInt8.toNat_zero, Nat.zero_add]
  split_ifs <;> omega

private theorem supplied_iff_room {n : Node}
    (hqueue : ∀ b ∈ n.link.tx, isSendAcks b = false ∧ isCloseCluster b = false)
    (hpos : 0 < n.state.slotsAssigned) (hlink : n.link.initialized = true)
    (hslots : n.state.slotsAssigned.toNat ≤ n.state.slotCount) :
    Supplied n ↔ RoomForReport n := by
  have hlast := n.state.slotsAssigned.toNat_lt
  constructor
  · rintro ⟨hacks, hclose⟩
    have hfit (i : UInt8) (hi : i < n.state.slotsAssigned) :
        AcksFit n ∧ i.toNat < ackCount 0 n := by
      rcases hacks i hi with ⟨b, hb, hack⟩ | hfit
      · rw [ackFor_none (hqueue b hb).1] at hack
        exact absurd hack (by simp)
      · exact hfit
    have hcloses : CloseFits n := by
      rcases hclose with ⟨b, hb, hclose⟩ | hcloses
      · rw [(hqueue b hb).2] at hclose
        exact absurd hclose (by simp)
      · exact hcloses
    have hacksFit := (hfit 0 hpos).1
    obtain ⟨-, havail, hmax⟩ := hcloses
    have hmax' := hacksFit.2.2.2.2
    rw [acksRoom, if_pos hacksFit] at havail
    have hall : ackCount 0 n = min 255 n.state.slotCount := by
      have hle := ackCount_le 0 n
      revert havail
      unfold ackCount
      dsimp only [acksSize, HEADER_SZ, SEND_ACKS_SZ, ACK_SZ, CLOSE_SZ]
      simp only [UInt8.toNat_zero, Nat.zero_add]
      split_ifs <;> omega
    rw [hall] at havail hmax'
    exact ⟨havail, hmax', hmax⟩
  · rintro ⟨havail, hmax, hmaxClose⟩
    have hall := ackCount_room (n := n) (by omega)
    have hfit : AcksFit n := by
      refine ⟨hpos, ?_, hlink, ?_, ?_⟩
      · simp only [acksSize, HEADER_SZ, SEND_ACKS_SZ] at havail ⊢
        omega
      · rw [hall]
        omega
      · rwa [hall]
    refine ⟨?_, Or.inr ⟨hlink, ?_, hmaxClose⟩⟩
    · intro i hi
      have hlt := UInt8.lt_iff_toNat_lt.mp hi
      exact Or.inr ⟨hfit, by omega⟩
    · rw [acksRoom, if_pos hfit, hall]
      exact havail

/-- `do_clusterhead_send` returns `Ok` with a complete frame exactly when the frame does not go out
or its parts were supplied for: those that find no room are left out in silence. The queue stands
for one of at most 255 bytes (`Queue.Sound`). -/
theorem reports_all_iff (inp : SendInput) {n : Node}
    (hslots : n.state.slotsAssigned.toNat ≤ n.state.slotCount) :
    (ReportsAll inp n ↔ (SendsAcks inp n → Supplied n)) ∧
      ((∀ b ∈ n.link.tx, isSendAcks b = false ∧ isCloseCluster b = false) →
        0 < n.state.slotsAssigned → n.link.initialized = true →
          (Supplied n ↔ RoomForReport n)) := by
  refine ⟨?_, fun hqueue hpos hlink => supplied_iff_room hqueue hpos hlink hslots⟩
  have hextends : Extends (fun _ => True) (setCdmaCode 0 (beforeEmit inp n))
      (queueChMessages inp (setCdmaCode 0 (beforeEmit inp n))) :=
    Extends.queueChMessages inp (fun _ _ _ _ _ => trivial) (fun _ _ => trivial)
  obtain ⟨-, msgs, -, hcase⟩ := doClusterheadSend_cases hextends
  rcases hcase with ⟨hsends, hrc, -, hframes, htx⟩ | ⟨hno, hrc, -, -⟩
  · have hiff := queued_complete_iff inp (n := setCdmaCode 0 (beforeEmit inp n)) hsends.2.1 hslots
    rw [htx] at hiff
    rw [ReportsAll, hframes]
    constructor
    · intro h _
      obtain ⟨f, hf, hcomplete⟩ := h hrc
      rw [List.mem_singleton.mp hf] at hcomplete
      exact hiff.mp hcomplete
    · intro h _
      exact ⟨_, List.mem_singleton.mpr rfl, hiff.mpr (h hsends)⟩
  · constructor
    · intro _ hsends
      exact absurd hsends hno
    · intro _ hok
      exact absurd hok hrc

/-- The relay with nothing to forward sends all its acks. -/
theorem idle_relay_reports_all : ReportsAll forwardingRun.send forwardingRelay := by
  have hiff := reports_all_iff forwardingRun.send (n := forwardingRelay) (by decide)
  apply hiff.1.mpr
  intro _
  apply (hiff.2 (by decide) (by decide) rfl).mpr
  exact ⟨by decide, by decide, by decide⟩

/-- The relay with two datagrams to forward, which leave 12 bytes of the frame. -/
def crowdedRelay : Node :=
  { forwardingRelay with
    link :=
      { forwardingRelay.link with
        tx :=
          [Message.toBytes ⟨98, 9, .datagram 100 2 0⟩ ++ List.replicate 100 42,
            Message.toBytes ⟨98, 9, .datagram 109 2 1⟩ ++ List.replicate 109 42] } }

/-- It returns `Ok` for a frame with neither acks nor a CloseCluster. -/
theorem crowded_relay_reports_nothing :
    (doClusterheadSend forwardingRun.send crowdedRelay).1 = .ok ∧
      ¬ ReportsAll forwardingRun.send crowdedRelay := by
  have hok : (doClusterheadSend forwardingRun.send crowdedRelay).1 = .ok := by decide +kernel
  have hnone : ∀ f ∈ (doClusterheadSend forwardingRun.send crowdedRelay).2.2, ∀ b ∈ f.msgs,
      isSendAcks b = false ∧ isCloseCluster b = false := by decide +kernel
  refine ⟨hok, ?_⟩
  intro hreports
  obtain ⟨f, hf, -, b, hb, hclose⟩ := hreports hok
  rw [(hnone f hf b hb).2] at hclose
  exact absurd hclose (by simp)

end LoraMultihop.Multihop.Reports
