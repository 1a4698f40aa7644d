/- digest: What a node does in the slots after the advertising slot. -/

import LoraMultihop.Multihop.Sending

set_option autoImplicit false
set_option relaxedAutoImplicit false

namespace LoraMultihop.Multihop.Slots

open LoraMultihop.Foundation.ByteMemory
open LoraMultihop.Foundation.LengthPrefix
open LoraMultihop.Net.Params
open LoraMultihop.Link
open LoraMultihop.Link.Layer (FRAME_HEADER_SZ)
open LoraMultihop.Multihop.Messages
open LoraMultihop.Multihop.State
open LoraMultihop.Multihop.Sending

/-- `active_slot()` at the reading `now`. -/
def activeSlot (now : UInt32) (n : Node) : Int × Node :=
  let (slot, link) := Queue.activeSlot now n.link
  (slot, { n with link := link })

def setCdmaCode (id : UInt8) (n : Node) : Node := { n with link := Queue.setCdmaCode id n.link }

def mySlot (s : MultihopState) : UInt8 := s.upstreamStartSlot + s.upstreamRelativeSlot

def doFollowerSend (slotNow flushNow : UInt32) (sent : Bool) (n : Node) :
    RC × Node × List Queue.Frame :=
  let (slot, n) := activeSlot slotNow n
  if slot ≠ (mySlot n.state).toNat then (.invalidSlot, n, [])
  else
    let n := setCdmaCode n.state.upstreamRelativeSlot n
    let (rc, link, frames) := Queue.flush flushNow sent n.link
    (if rc = .ok then .ok else .linkError, { n with link := link }, frames)

/-- Entry `i` of the acks that follow a SendAcks. -/
def ackAt (acks : Bytes) (i : Nat) : UInt32 :=
  UInt32.ofNat (leNat ((acks.drop (i * ACK_SZ)).take ACK_SZ))

/-- What the loop of `do_follower_recv` does with one message; the flag is
`waiting_for_clusterhead_msg`. -/
def takeClusterheadMsg (w : Bool × Node) (buf : Bytes) : Bool × Node :=
  let s := w.2.state
  match decodeMsg buf with
  | some (⟨_, _, .sendAcks start stop⟩, acks) =>
      if s.upstreamRelativeSlot < stop ∧ start ≤ s.upstreamRelativeSlot then
        let ack := ackAt acks (s.upstreamRelativeSlot.toNat - start.toNat)
        (false, { w.2 with state := { s with acks := fun i => if i = 0 then ack else s.acks i } })
      else (false, w.2)
  | some (⟨_, _, .closeCluster nomination _⟩, _) =>
      if nomination ≠ UNKNOWN_ADDR then
        (false, { w.2 with state := { s with clusterheadAddr := nomination } })
      else
        (false,
          { w.2 with
            state := { s with clusterheadAddr := UNKNOWN_ADDR, clusterheadRing := UNKNOWN_RING } })
  | _ => w

/-- The readings of one pass of the loop of `do_follower_recv` and how its wait ended. -/
structure WaitPass where
  recvNow : UInt32
  arrival : Queue.Arrival
  slotNow : UInt32

def takeFrame (msgs : List Bytes) (n : Node) : Bool × Node :=
  msgs.foldl takeClusterheadMsg (true, { n with link := { n.link with rx := [] } })

/-- The loop; there is no return code where it goes on after the passes given. -/
def waitLoop (chSlot : UInt8) : List WaitPass → Node → Option RC × Node
  | [], n => (none, n)
  | p :: passes, n =>
      let (rc, link) := Queue.recv p.recvNow p.arrival n.link
      let n := { n with link := link }
      if rc ≠ .ok then (some (if rc = .timedOut then .noData else .linkError), n)
      else
        let (waiting, n) := takeFrame n.link.rx n
        if waiting then
          let (slot, n) := activeSlot p.slotNow n
          if slot = chSlot.toNat then waitLoop chSlot passes n else (some .noData, n)
        else (some .ok, n)

def doFollowerRecv (slotNow : UInt32) (passes : List WaitPass) (n : Node) : Option RC × Node :=
  if UNKNOWN_ADDR = n.state.clusterheadAddr then (some .noClusterhead, n)
  else
    let chSlot := n.state.upstreamAckSlot
    let (slot, n) := activeSlot slotNow n
    if slot ≠ chSlot.toNat then (some .invalidSlot, n)
    else waitLoop chSlot passes (setCdmaCode 0 n)

/-- The loop over `send_acks`; call `i` stamps its message with `stamps i`. -/
def ackLoop : Nat → (Nat → UInt32) → UInt8 → UInt8 → Node → Node
  | 0, _, _, _, n => n
  | fuel + 1, stamps, ackStart, ackEnd, n =>
      if ackStart < n.state.slotsAssigned then
        let (rc, ackEnd, n) := sendAcks ackStart ackEnd (stamps 0) n
        if rc = .ok then ackLoop fuel (fun i => stamps (i + 1)) ackEnd ackEnd n else n
      else n

structure SendInput where
  slotNow : UInt32
  stamps : Nat → UInt32
  rand : UInt32
  closeStamp : UInt32
  flushNow : UInt32
  sent : Bool

/-- Every round of the loop takes room in the queue, so as many rounds as there are free bytes and
one more always reach its end. -/
def queueChMessages (inp : SendInput) (n : Node) : Node :=
  let n := ackLoop (Queue.txBytesAvailable n.link + 1) inp.stamps 0 0 n
  let renominate := announceClusterhead inp.rand n.state
  (closeCluster renominate inp.closeStamp n).2

def emitChMessages (inp : SendInput) (n : Node) : RC × Node × List Queue.Frame :=
  let n := setCdmaCode 0 n
  let n := queueChMessages inp n
  Sending.flush inp.flushNow inp.sent n

def sendSlot (n : Node) : UInt8 := n.state.downstreamStartSlot + vtdmaWindowSize n.mac - 1

def doClusterheadSend (inp : SendInput) (n : Node) : RC × Node × List Queue.Frame :=
  let (slot, n) := activeSlot inp.slotNow n
  if slot ≠ (sendSlot n).toNat then (.invalidSlot, n, []) else emitChMessages inp n

/-- The relative slot `do_clusterhead_recv` listens to in slot `slot`, if it does. -/
def listensTo (slot : Int) (n : Node) : Option UInt8 :=
  if slot ≤ n.state.downstreamStartSlot.toNat ∨ (sendSlot n).toNat ≤ slot then none
  else
    let relative := UInt8.ofInt (slot - n.state.downstreamStartSlot.toNat)
    if n.state.slotsAssigned ≤ relative then none else some relative

/-- What the loop of `do_clusterhead_recv` does with one message. -/
def takeDatagram (relative : UInt8) (n : Node) (buf : Bytes) : Node :=
  match decodeMsg buf with
  | some (⟨sequence, _, .datagram _ _ _⟩, _) =>
      { state :=
          { n.state with
            acks := fun i => if i = relative.toNat then sequence else n.state.acks i }
        link := (Queue.sendmsg (buf.take (UInt8.ofNat buf.length).toNat) n.link).2 }
  | _ => n

structure RecvInput where
  slotNow : UInt32
  recvNow : UInt32
  arrival : Queue.Arrival

def doClusterheadRecv (inp : RecvInput) (n : Node) : RC × Node :=
  let (slot, n) := activeSlot inp.slotNow n
  match listensTo slot n with
  | none => (.invalidSlot, n)
  | some relative =>
      let n := setCdmaCode relative n
      let (rc, link) := Queue.recv inp.recvNow inp.arrival n.link
      let n := { n with link := link }
      if rc ≠ .ok then (if rc = .timedOut then .noData else .linkError, n)
      else
        (.ok, n.link.rx.foldl (takeDatagram relative) { n with link := { n.link with rx := [] } })

/-- `n'` is `n` with some messages that satisfy `P` added to its queue. -/
def Extends (P : Bytes → Prop) (n n' : Node) : Prop :=
  ∃ msgs : List Bytes, (∀ b ∈ msgs, P b) ∧ n'.state = n.state ∧
    n'.link = { n.link with tx := n.link.tx ++ msgs }

/-- The SendAcks of a node for `count` slots from `start` on. -/
def acksMessage (s : MultihopState) (stamp : UInt32) (start : UInt8) (count : Nat) : Bytes :=
  Message.toBytes ⟨stamp, s.address, .sendAcks start (UInt8.ofNat (start.toNat + count))⟩ ++
    ackBytes s.acks start.toNat count

def closeMessage (s : MultihopState) (stamp : UInt32) (renominate : Bool) : Bytes :=
  Message.toBytes ⟨stamp, s.address,
    .closeCluster (if renominate then s.address else UNKNOWN_ADDR) s.neighbors⟩

section Extending

variable {P : Bytes → Prop} {n : Node}

private theorem Extends.refl (n : Node) : Extends P n n := ⟨[], by simp, rfl, by simp⟩

private theorem Extends.trans {a b c : Node} (h : Extends P a b) (h' : Extends P b c) :
    Extends P a c := by
  obtain ⟨ms, hms, hs, hl⟩ := h
  obtain ⟨ms', hms', hs', hl'⟩ := h'
  refine ⟨ms ++ ms', ?_, hs'.trans hs, ?_⟩
  · intro x hx
    cases List.mem_append.mp hx with
    | inl hx => exact hms x hx
    | inr hx => exact hms' x hx
  · rw [hl', hl]
    simp

theorem Extends.state {n' : Node} (h : Extends P n n') : n'.state = n.state := by
  obtain ⟨-, -, hs, -⟩ := h
  exact hs

theorem Extends.send {m : Message} {tail : Bytes} (h : P (m.toBytes ++ tail)) (n : Node) :
    Extends P n (Sending.send m tail n).2 := by
  rcases send_cases m tail n with ⟨-, -, hn⟩ | ⟨-, -, hn⟩
  · rw [hn]
    exact ⟨[m.toBytes ++ tail], by simpa using h, rfl, rfl⟩
  · rw [hn]
    exact Extends.refl n

theorem Extends.sendAcks (ackStart ackEnd : UInt8) (stamp : UInt32)
    (hacks : ackStart.toNat + ackCount ackStart n ≤ 255 →
      (0 < ackCount ackStart n → ackStart.toNat + ackCount ackStart n ≤ n.state.slotCount) →
        P (acksMessage n.state stamp ackStart (ackCount ackStart n))) :
    Extends P n (Sending.sendAcks ackStart ackEnd stamp n).2.2 := by
  by_cases hi : n.state.initialized = true
  · by_cases havail : HEADER_SZ + SEND_ACKS_SZ < Queue.txBytesAvailable n.link
    · rw [sendAcks_eq ackStart ackEnd stamp hi havail]
      exact Extends.send (hacks (ackCount_le _ _) ackCount_slotCount) n
    · rw [Sending.sendAcks, if_neg (by simp [hi])]
      dsimp only
      rw [if_pos (Nat.le_of_not_lt havail)]
      exact Extends.refl n
  · rw [Sending.sendAcks, if_pos (by simpa using hi)]
    exact Extends.refl n

private theorem Extends.ackLoop (fuel : Nat) (stamps : Nat → UInt32) (ackStart ackEnd : UInt8)
    (hacks : ∀ stamp start count, start.toNat + count ≤ 255 →
      (0 < count → start.toNat + count ≤ n.state.slotCount) →
        P (acksMessage n.state stamp start count)) :
    Extends P n (Slots.ackLoop fuel stamps ackStart ackEnd n) := by
  induction fuel generalizing stamps ackStart ackEnd n with
  | zero => exact Extends.refl n
  | succ fuel ih =>
      have hsend := Extends.sendAcks ackStart ackEnd (stamps 0)
        (hacks (stamps 0) ackStart (ackCount ackStart n))
      rw [Slots.ackLoop]
      dsimp only
      split_ifs
      · refine hsend.trans (ih _ _ _ ?_)
        rw [hsend.state]
        exact hacks
      · exact hsend
      · exact Extends.refl n

theorem Extends.closeCluster (renominate : Bool) (stamp : UInt32)
    (hclose : P (closeMessage n.state stamp renominate)) :
    Extends P n (Sending.closeCluster renominate stamp n).2 := by
  unfold Sending.closeCluster
  split
  · exact Extends.refl n
  · exact Extends.send (by rwa [List.append_nil]) n

/-- What `emit_ch_messages` adds to the queue are SendAcks and a CloseCluster of the node. -/
theorem Extends.queueChMessages (inp : SendInput)
    (hacks : ∀ stamp start count, start.toNat + count ≤ 255 →
      (0 < count → start.toNat + count ≤ n.state.slotCount) →
        P (acksMessage n.state stamp start count))
    (hclose : ∀ stamp renominate, P (closeMessage n.state stamp renominate)) :
    Extends P n (Slots.queueChMessages inp n) := by
  have hloop := Extends.ackLoop (Queue.txBytesAvailable n.link + 1) inp.stamps 0 0 hacks
  refine hloop.trans (Extends.closeCluster _ _ ?_)
  rw [hloop.state]
  exact hclose _ _

theorem queueChMessages_state (inp : SendInput) (n : Node) :
    (queueChMessages inp n).state = n.state :=
  (Extends.queueChMessages (P := fun _ => True) inp (fun _ _ _ _ _ => trivial)
    fun _ _ => trivial).state

end Extending

theorem sendAcks_room {ackStart ackEnd : UInt8} {stamp : UInt32} {n : Node}
    (h : (sendAcks ackStart ackEnd stamp n).1 = .ok) :
    Queue.txBytesAvailable (sendAcks ackStart ackEnd stamp n).2.2.link <
      Queue.txBytesAvailable n.link := by
  have hsend (m : Message) (tail : Bytes) (hok : (send m tail n).1 = .ok) :
      Queue.txBytesAvailable (send m tail n).2.link < Queue.txBytesAvailable n.link := by
    rcases send_cases m tail n with ⟨-, hroom, hn⟩ | ⟨hno, -, -⟩
    · have havail := hroom.2.1
      rw [hn, push_available]
      omega
    · exact absurd hok hno
  unfold sendAcks at h ⊢
  dsimp only at h ⊢
  split_ifs at h ⊢
  · exact hsend _ _ h
  · exact hsend _ _ h

/-- A frame of `do_follower_send` goes out in the node's upstream slot, on its upstream code. -/
theorem doFollowerSend_frames {slotNow flushNow : UInt32} {sent : Bool} {n : Node}
    {f : Queue.Frame} (hf : f ∈ (doFollowerSend slotNow flushNow sent n).2.2) :
    (activeSlot slotNow n).1 = (mySlot n.state).toNat ∧
      f.code = Layer.hashCdmaCode n.state.upstreamRelativeSlot := by
  have hstate : (activeSlot slotNow n).2.state = n.state := rfl
  rw [doFollowerSend] at hf
  dsimp only at hf
  rw [hstate] at hf
  by_cases hslot : (activeSlot slotNow n).1 = (mySlot n.state).toNat
  · rw [if_neg (not_not.mpr hslot)] at hf
    refine ⟨hslot, ?_⟩
    by_cases hg : Queue.GoesOut flushNow sent
        (setCdmaCode n.state.upstreamRelativeSlot (activeSlot slotNow n).2).link
    · rw [Queue.flush_out hg] at hf
      rw [List.mem_singleton.mp hf]
      rfl
    · rw [(Queue.flush_kept hg).2.1] at hf
      exact absurd hf List.not_mem_nil
  · rw [if_pos hslot] at hf
    exact absurd hf List.not_mem_nil

theorem doFollowerSend_rc {slotNow flushNow : UInt32} {sent : Bool} {n : Node}
    (h : (activeSlot slotNow n).1 = (mySlot n.state).toNat) :
    (doFollowerSend slotNow flushNow sent n).1 ≠ .invalidSlot := by
  have hstate : (activeSlot slotNow n).2.state = n.state := rfl
  rw [doFollowerSend]
  dsimp only
  rw [hstate, if_neg (not_not.mpr h)]
  dsimp only
  split_ifs <;> simp

private theorem takeDatagram_code (relative : UInt8) (msgs : List Bytes) (n : Node) :
    (msgs.foldl (takeDatagram relative) n).link.code = n.link.code := by
  induction msgs generalizing n with
  | nil => rfl
  | cons b msgs ih =>
      rw [List.foldl_cons, ih, takeDatagram]
      split
      · dsimp only
        by_cases hok : (Queue.sendmsg (b.take (UInt8.ofNat b.length).toNat) n.link).1 = .ok
        · rw [(Queue.sendmsg_ok hok).1]
        · rw [Queue.sendmsg_rejected hok]
      · rfl

private theorem recv_code (now : UInt32) (arrival : Queue.Arrival) (s : Queue.State) :
    (Queue.recv now arrival s).2.code = s.code := by
  rcases Queue.recv_cases now arrival s with ⟨-, w, hs⟩ | ⟨-, w, hs⟩
  · rw [hs]
  · rw [hs]

theorem doClusterheadRecv_listens {inp : RecvInput} {n : Node} {relative : UInt8}
    (h : listensTo (activeSlot inp.slotNow n).1 n = some relative) :
    (doClusterheadRecv inp n).1 ≠ .invalidSlot ∧
      (doClusterheadRecv inp n).2.link.code = Layer.hashCdmaCode relative := by
  have hlisten : listensTo (activeSlot inp.slotNow n).1 (activeSlot inp.slotNow n).2 =
      some relative := h
  rw [doClusterheadRecv]
  dsimp only
  rw [hlisten]
  dsimp only
  split_ifs
  · exact ⟨by simp, recv_code _ _ _⟩
  · exact ⟨by simp, recv_code _ _ _⟩
  · refine ⟨by simp, ?_⟩
    rw [takeDatagram_code]
    exact recv_code _ _ _

end LoraMultihop.Multihop.Slots
