/- digest: The multihop layer with every access to its two arrays checked. -/

import LoraMultihop.Foundation.BoundedArray
import LoraMultihop.Multihop.Api
import LoraMultihop.Multihop.Codec

set_option autoImplicit false
set_option relaxedAutoImplicit false

namespace LoraMultihop.Multihop.Bounds

open LoraMultihop.Foundation
open LoraMultihop.Foundation.ByteMemory (Bytes leBytes)
open LoraMultihop.Net.Params
open LoraMultihop.Link
open LoraMultihop.Multihop.Messages
open LoraMultihop.Multihop.State
open LoraMultihop.Multihop.Sending
  (RC Node vtdmaWindowSize ADV_SLOTS ACK_SZ NUM_ADV_ROUNDS announceClusterhead
    ADVERTISEMENT_SLOT send)
open LoraMultihop.Multihop.Slots
  (activeSlot setCdmaCode ackAt WaitPass SendInput RecvInput sendSlot listensTo)
open LoraMultihop.Multihop.Discovery (Input)
open LoraMultihop.Multihop.Advertise
  (Proc JoinLocals AnnounceLocals Control volunteers withRole attach trySecond roundMs)
open LoraMultihop.Multihop.Api (InitParams Op Setup Legal)

/-! The functions of the layer that access `acks` or `slot_assignments`, as they are but for the
accesses: one outside the array has no result. -/

def prepareClusterhead (n : Node) : Option Node := do
  let s := n.state
  let stop : UInt8 := UInt8.ofNat s.slotCount - 1
  let vtdmaWindow := vtdmaWindowSize n.mac
  let invertedIndex : UInt8 := n.mac.reuseDistance - 1 - s.ring % n.mac.reuseDistance
  let acks ← BoundedArray.fill s.slotCount s.acks 0 s.slotCount
  let slots ← BoundedArray.fill s.slotCount s.slotAssignments 0 s.slotCount
  let slots ← BoundedArray.set s.slotCount slots stop.toNat s.address
  some
    { n with
      state :=
        { s with
          acks := acks
          slotAssignments := slots
          slotsAssigned := 1
          downstreamStartSlot := ADV_SLOTS + invertedIndex * vtdmaWindow } }

def accept (follower : Address) (remote stamp : UInt32) (n : Node) : Option (RC × Node) :=
  if n.state.initialized = false then some (.notInit, n)
  else do
    let s := n.state
    let held ← BoundedArray.search s.slotCount s.slotAssignments (fun a => decide (a = follower)) 0
      s.slotsAssigned.toNat
    match held with
    | some i =>
        some (send ⟨stamp, s.address,
          .accept 1 follower s.downstreamStartSlot (UInt8.ofNat i) remote⟩ [] n)
    | none =>
        if vtdmaWindowSize n.mac ≤ s.slotsAssigned then
          some (.slotsFull, (send ⟨stamp, s.address, .accept 0 follower 0 0 remote⟩ [] n).2)
        else do
          let relativeSlot := s.slotsAssigned
          let slots ← BoundedArray.set s.slotCount s.slotAssignments relativeSlot.toNat follower
          let n :=
            { n with
              state := { s with slotAssignments := slots, slotsAssigned := relativeSlot + 1 } }
          some (send ⟨stamp, s.address,
            .accept 1 follower s.downstreamStartSlot relativeSlot remote⟩ [] n)

def sendAcks (ackStart ackEnd : UInt8) (stamp : UInt32) (n : Node) :
    Option (RC × UInt8 × Node) :=
  if n.state.initialized = false then some (.notInit, ackEnd, n)
  else
    let avail := Queue.txBytesAvailable n.link
    let msgSz := HEADER_SZ + SEND_ACKS_SZ
    if avail ≤ msgSz then some (.linkFull, ackStart, n)
    else do
      let numAcks := min ((avail - msgSz) / ACK_SZ) (255 - ackStart.toNat)
      let numAcks :=
        if n.state.slotCount < ackStart.toNat + numAcks then n.state.slotCount - ackStart.toNat
        else numAcks
      let ackEnd := UInt8.ofNat (ackStart.toNat + numAcks)
      let acks ← BoundedArray.slice n.state.slotCount n.state.acks ackStart.toNat numAcks
      let (rc, n) :=
        send ⟨stamp, n.state.address, .sendAcks ackStart ackEnd⟩
          (acks.flatMap fun ack => leBytes ACK_SZ ack.toNat) n
      some (rc, ackEnd, n)

def ackLoop : Nat → (Nat → UInt32) → UInt8 → UInt8 → Node → Option Node
  | 0, _, _, _, n => some n
  | fuel + 1, stamps, ackStart, ackEnd, n =>
      if ackStart < n.state.slotsAssigned then do
        let (rc, ackEnd, n) ← sendAcks ackStart ackEnd (stamps 0) n
        if rc = .ok then ackLoop fuel (fun i => stamps (i + 1)) ackEnd ackEnd n else some n
      else some n

def queueChMessages (inp : SendInput) (n : Node) : Option Node := do
  let n ← ackLoop (Queue.txBytesAvailable n.link + 1) inp.stamps 0 0 n
  let renominate := announceClusterhead inp.rand n.state
  some (Sending.closeCluster renominate inp.closeStamp n).2

def emitChMessages (inp : SendInput) (n : Node) : Option (RC × Node × List Queue.Frame) := do
  let n := setCdmaCode 0 n
  let n ← queueChMessages inp n
  some (Sending.flush inp.flushNow inp.sent n)

def doClusterheadSend (inp : SendInput) (n : Node) : Option (RC × Node × List Queue.Frame) :=
  let (slot, n) := activeSlot inp.slotNow n
  if slot ≠ (sendSlot n).toNat then some (.invalidSlot, n, []) else emitChMessages inp n

def takeDatagram (relative : UInt8) (n : Node) (buf : Bytes) : Option Node :=
  match decodeMsg buf with
  | some (⟨sequence, _, .datagram _ _ _⟩, _) => do
      let acks ← BoundedArray.set n.state.slotCount n.state.acks relative.toNat sequence
      some
        { state := { n.state with acks := acks }
          link := (Queue.sendmsg (buf.take (UInt8.ofNat buf.length).toNat) n.link).2 }
  | _ => some n

def doClusterheadRecv (inp : RecvInput) (n : Node) : Option (RC × Node) :=
  let (slot, n) := activeSlot inp.slotNow n
  match listensTo slot n with
  | none => some (.invalidSlot, n)
  | some relative =>
      let n := setCdmaCode relative n
      let (rc, link) := Queue.recv inp.recvNow inp.arrival n.link
      let n := { n with link := link }
      if rc ≠ .ok then some (if rc = .timedOut then .noData else .linkError, n)
      else do
        let n ← n.link.rx.foldlM (takeDatagram relative) { n with link := { n.link with rx := [] } }
        some (.ok, n)

/-- Entry `i` of the acks in a message; there is none outside the message. -/
def readAck (acks : Bytes) (i : Nat) : Option UInt32 :=
  if i * ACK_SZ + ACK_SZ ≤ acks.length then some (ackAt acks i) else none

def takeClusterheadMsg (w : Bool × Node) (buf : Bytes) : Option (Bool × Node) :=
  let s := w.2.state
  match decodeMsg buf with
  | some (⟨_, _, .sendAcks start stop⟩, acks) =>
      if s.upstreamRelativeSlot < stop ∧ start ≤ s.upstreamRelativeSlot then do
        let ack ← readAck acks (s.upstreamRelativeSlot.toNat - start.toNat)
        let acks ← BoundedArray.set s.slotCount s.acks 0 ack
        some (false, { w.2 with state := { s with acks := acks } })
      else some (false, w.2)
  | some (⟨_, _, .closeCluster nomination _⟩, _) =>
      if nomination ≠ UNKNOWN_ADDR then
        some (false, { w.2 with state := { s with clusterheadAddr := nomination } })
      else
        some (false,
          { w.2 with
            state := { s with clusterheadAddr := UNKNOWN_ADDR, clusterheadRing := UNKNOWN_RING } })
  | _ => some w

def takeFrame (msgs : List Bytes) (n : Node) : Option (Bool × Node) :=
  msgs.foldlM takeClusterheadMsg (true, { n with link := { n.link with rx := [] } })

def waitLoop (chSlot : UInt8) : List WaitPass → Node → Option (Option RC × Node)
  | [], n => some (none, n)
  | p :: passes, n =>
      let (rc, link) := Queue.recv p.recvNow p.arrival n.link
      let n := { n with link := link }
      if rc ≠ .ok then some (some (if rc = .timedOut then .noData else .linkError), n)
      else do
        let (waiting, n) ← takeFrame n.link.rx n
        if waiting then
          let (slot, n) := activeSlot p.slotNow n
          if slot = chSlot.toNat then waitLoop chSlot passes n else some (some .noData, n)
        else some (some .ok, n)

def doFollowerRecv (slotNow : UInt32) (passes : List WaitPass) (n : Node) :
    Option (Option RC × Node) :=
  if UNKNOWN_ADDR = n.state.clusterheadAddr then some (some .noClusterhead, n)
  else
    let chSlot := n.state.upstreamAckSlot
    let (slot, n) := activeSlot slotNow n
    if slot ≠ chSlot.toNat then some (some .invalidSlot, n)
    else waitLoop chSlot passes (setCdmaCode 0 n)

/-! The advertising slot. -/

def resetCluster (n : Node) : Option Node := do
  let s := n.state
  let acks ← BoundedArray.fill s.slotCount s.acks 0 s.slotCount
  some
    { setCdmaCode DEFAULT_CODE n with
      state :=
        { s with
          role := if s.role ≠ .gateway then .follower else s.role
          clusterheadAddr := UNKNOWN_ADDR
          clusterheadRing := UNKNOWN_RING
          upstreamStartSlot := 0
          upstreamRelativeSlot := 0
          upstreamAckSlot := 0
          acks := acks } }

def startAdvertise (inp : Input) (n : Node) : Option Proc := do
  let n' ← resetCluster n
  let (l, n) := Discovery.startDiscovery inp (Advertise.discoveryMs n.mac) n'
  some ⟨.discovery l, n⟩

def startAnnouncement (inp : Input) (durationMs : UInt32) (eligibleRing : Ring) (earlier : Bool)
    (n : Node) : Option (AnnounceLocals × Node) := do
  let isClusterhead := volunteers (inp.rand 0) eligibleRing n.state
  let n ←
    if isClusterhead && !earlier then
      prepareClusterhead (if n.state.role ≠ .gateway then withRole .clusterhead n else n)
    else some n
  some ((⟨isClusterhead, isClusterhead && !earlier,
    Net.TimeHelpers.MsDeadline.create durationMs (inp.millis 1),
    Net.TimeHelpers.MsDeadline.create (Sending.randDelayMs (inp.rand 1) 0 durationMs)
      (inp.millis 2), .reset⟩), n)

def startRound (inp : Input) (round : Nat) (earlier : Bool) (n : Node) : Option Proc := do
  let (l, n) ← startAnnouncement inp (roundMs n.mac) (UInt8.ofNat round) earlier n
  some ⟨.announcement round earlier l, n⟩

def answerFollow (inp : Input) (isClusterhead : Bool) (m : Message) (n : Node) :
    Option (Node × List Queue.Frame) :=
  match m.body with
  | .follow clusterhead _ =>
      if isClusterhead = true ∧ clusterhead = n.state.address then do
        let (_, n) ← accept m.src (inp.now 0) (inp.now 1) n
        let (_, n, frames) := Sending.flush (inp.now 2) inp.sent n
        some (n, frames)
      else some (n, [])
  | _ => some (n, [])

def promote (rand : UInt32) (n : Node) : Option Node :=
  if n.state.actsAsClusterhead = false ∧ announceClusterhead rand n.state = true then
    prepareClusterhead (withRole .clusterhead n)
  else some n

def join (inp : Input) (l : JoinLocals) (m : Message) (n : Node) (durationMs : UInt32) :
    Option (Bool × JoinLocals × Node) :=
  match m.body with
  | .accept accepted follower startSlot relativeSlot _ =>
      if l.joined = false ∧ l.eligibleFollower = true ∧ m.src = l.targetNode ∧
          follower = n.state.address then
        if accepted ≠ 0 then do
          let n ← promote (inp.rand 0) (attach l startSlot relativeSlot n)
          some (false, { l with joined := true }, n)
        else some (true, trySecond inp durationMs n.state l, n)
      else some (false, l, n)
  | _ => some (false, l, n)

def joinMessage (inp : Input) (round : Nat) (isClusterhead : Bool) (l : JoinLocals) (n : Node) :
    Option (Proc × List Queue.Frame) :=
  let (msg, link) := Queue.getmsg n.link
  let n := { n with link := link }
  match msg.bind decodeMsg with
  | none => some (⟨.joining .head round isClusterhead l, n⟩, [])
  | some (m, _) => do
      let (n, frames) ← answerFollow inp isClusterhead m n
      let (stop, l, n) ← join inp l m n (roundMs n.mac)
      some (⟨.joining (if stop then .head else .drain) round isClusterhead l, n⟩, frames)

/-- The steps that do not access the arrays are those of the machine itself. -/
def step (inp : Input) (p : Proc) : Option (Proc × List Queue.Frame) :=
  match p.control with
  | .idle =>
      let (slot, n) := activeSlot (inp.now 0) p.node
      if slot ≠ ADVERTISEMENT_SLOT.toNat then some (⟨.idle, n⟩, [])
      else (startAdvertise inp n).map fun p => (p, [])
  | .discovery l =>
      if l.phaseDeadline.reached (inp.millis 0) then
        (startRound inp 0 false p.node).map fun p => (p, [])
      else some (Advertise.step inp p)
  | .joining .head round isClusterhead l =>
      if l.phaseDeadline.reached (inp.millis 0) ∧ round + 1 < NUM_ADV_ROUNDS then
        (startRound inp (round + 1) isClusterhead p.node).map fun p => (p, [])
      else some (Advertise.step inp p)
  | .joining .drain round isClusterhead l => joinMessage inp round isClusterhead l p.node
  | _ => some (Advertise.step inp p)

def run (inps : List Input) (p : Proc) : Option Proc :=
  inps.foldlM (fun p inp => (step inp p).map Prod.fst) p

def init (p : InitParams) (now : UInt32) (n : Node) : Option (RC × Node) :=
  if p.slotCount < p.mac.superframeSlotCount.toNat then some (.acksArrayLen, n)
  else
    let (rc, link) := Queue.init p.mac p.link now n.link
    if rc ≠ .ok then some (.linkError, { n with link := link })
    else do
      let n := Api.configured p link n.state
      let n ← if p.node.address = GATEWAY_ADDR then prepareClusterhead n else some n
      some (.ok, n)

def exec (op : Op) (n : Node) : Option Node :=
  match op with
  | .accept follower remote stamp => (accept follower remote stamp n).map Prod.snd
  | .sendAcks ackStart ackEnd stamp => (sendAcks ackStart ackEnd stamp n).map fun r => r.2.2
  | .doAdvertise inps => (run inps ⟨.idle, n⟩).map Proc.node
  | .doFollowerRecv slotNow passes => (doFollowerRecv slotNow passes n).map Prod.snd
  | .doClusterheadSend inp => (doClusterheadSend inp n).map fun r => r.2.1
  | .doClusterheadRecv inp => (doClusterheadRecv inp n).map Prod.snd
  | op => some (op.exec n)

def runOps (ops : List Op) (n : Node) : Option Node := ops.foldlM (fun n op => exec op n) n

private theorem stop_lt {count : Nat} (h : 1 ≤ count) : (UInt8.ofNat count - 1).toNat < count := by
  rw [UInt8.toNat_sub, UInt8.toNat_ofNat', show (1 : UInt8).toNat = 1 from rfl]
  omega

section Checked

variable {c : Setup} {n : Node}

private theorem slotCount_pos (h : Legal c n) :
    1 ≤ n.state.slotCount := Nat.one_le_of_lt h.window_lt

private theorem prepareClusterhead_eq (h : Legal c n) :
    prepareClusterhead n = some (Sending.prepareClusterhead n) := by
  have hstop := stop_lt (slotCount_pos h)
  simp only [prepareClusterhead, BoundedArray.fill_eq le_rfl, BoundedArray.set_eq hstop,
    Option.bind_eq_bind, Option.bind_some]
  rfl

private theorem accept_eq (follower : Address) (remote stamp : UInt32) (h : Legal c n) :
    accept follower remote stamp n = some (Sending.accept follower remote stamp n) := by
  have hassigned := h.assigned_le
  have hwindow := h.window_lt
  have hsearch : BoundedArray.search n.state.slotCount n.state.slotAssignments
      (fun a => decide (a = follower)) 0 n.state.slotsAssigned.toNat =
        some (Sending.assignedSlot follower n.state) := by
    rw [BoundedArray.search_eq (by omega), ← List.range_eq_range']
    rfl
  rw [accept, Sending.accept]
  dsimp only
  by_cases hi : n.state.initialized = false
  · rw [if_pos hi, if_pos hi]
  · rw [if_neg hi, if_neg hi, hsearch, Option.bind_eq_bind, Option.bind_some]
    cases Sending.assignedSlot follower n.state with
    | some i => rfl
    | none =>
        dsimp only
        split_ifs with hfull
        · rfl
        · have hfree : n.state.slotsAssigned.toNat < n.state.slotCount := by
            rw [UInt8.le_iff_toNat_le] at hfull
            omega
          rw [BoundedArray.set_eq hfree]
          rfl

private theorem sendAcks_eq (ackStart ackEnd : UInt8) (stamp : UInt32) (n : Node) :
    sendAcks ackStart ackEnd stamp n = some (Sending.sendAcks ackStart ackEnd stamp n) := by
  rw [sendAcks, Sending.sendAcks]
  dsimp only
  have hbytes (count : Nat) :
      ((List.range count).map fun i => n.state.acks (ackStart.toNat + i)).flatMap
        (fun ack => leBytes ACK_SZ ack.toNat) =
          Sending.ackBytes n.state.acks ackStart.toNat count := by
    rw [List.flatMap_map, Sending.ackBytes]
  split_ifs with hi havail hclip
  · rfl
  · rfl
  · rw [BoundedArray.slice_eq (by omega), Option.bind_eq_bind, Option.bind_some, hbytes]
  · rw [BoundedArray.slice_eq (by omega), Option.bind_eq_bind, Option.bind_some, hbytes]

private theorem ackLoop_eq (fuel : Nat) (stamps : Nat → UInt32) (ackStart ackEnd : UInt8)
    (n : Node) : ackLoop fuel stamps ackStart ackEnd n =
      some (Slots.ackLoop fuel stamps ackStart ackEnd n) := by
  induction fuel generalizing stamps ackStart ackEnd n with
  | zero => rfl
  | succ fuel ih =>
      rw [ackLoop, Slots.ackLoop]
      split_ifs
      · rw [sendAcks_eq, Option.bind_eq_bind, Option.bind_some]
        dsimp only
        split_ifs
        · exact ih _ _ _ _
        · rfl
      · rfl

private theorem doClusterheadSend_eq (inp : SendInput) (n : Node) :
    doClusterheadSend inp n = some (Slots.doClusterheadSend inp n) := by
  have hemit (n : Node) : emitChMessages inp n = some (Slots.emitChMessages inp n) := by
    rw [emitChMessages, queueChMessages, ackLoop_eq]
    rfl
  rw [doClusterheadSend, Slots.doClusterheadSend]
  dsimp only
  split_ifs
  · rfl
  · exact hemit _

private theorem listensTo_lt {slot : Int} {relative : UInt8} (h : Legal c n)
    (hlisten : listensTo slot n = some relative) : relative.toNat < n.state.slotCount := by
  rw [listensTo] at hlisten
  dsimp only at hlisten
  split_ifs at hlisten with houter hinner
  rw [Option.some.injEq] at hlisten
  rw [hlisten, UInt8.not_le, UInt8.lt_iff_toNat_lt] at hinner
  exact Nat.lt_of_lt_of_le hinner h.assigned_le

private theorem takeDatagram_eq {relative : UInt8} (buf : Bytes)
    (hslot : relative.toNat < n.state.slotCount) :
    takeDatagram relative n buf = some (Slots.takeDatagram relative n buf) ∧
      relative.toNat < (Slots.takeDatagram relative n buf).state.slotCount := by
  rw [takeDatagram, Slots.takeDatagram]
  cases decodeMsg buf with
  | none => exact ⟨rfl, hslot⟩
  | some r =>
      obtain ⟨⟨sequence, src, body⟩, tail⟩ := r
      cases body with
      | datagram packetBytes count part =>
          dsimp only
          rw [BoundedArray.set_eq hslot]
          exact ⟨rfl, hslot⟩
      | _ => exact ⟨rfl, hslot⟩

private theorem takeDatagrams_eq {relative : UInt8} (msgs : List Bytes)
    (hslot : relative.toNat < n.state.slotCount) :
    msgs.foldlM (takeDatagram relative) n =
      some (msgs.foldl (Slots.takeDatagram relative) n) :=
  BoundedArray.foldlM_eq (P := fun m : Node => relative.toNat < m.state.slotCount)
    (fun _ buf hm => takeDatagram_eq buf hm) msgs hslot

private theorem doClusterheadRecv_eq (inp : RecvInput) (h : Legal c n) :
    doClusterheadRecv inp n = some (Slots.doClusterheadRecv inp n) := by
  rw [doClusterheadRecv, Slots.doClusterheadRecv]
  dsimp only
  cases hlisten : listensTo (activeSlot inp.slotNow n).1 (activeSlot inp.slotNow n).2 with
  | none => rfl
  | some relative =>
      have hslot : relative.toNat < n.state.slotCount := listensTo_lt (h.congr rfl) hlisten
      dsimp only
      split_ifs
      · rfl
      · rfl
      · rw [takeDatagrams_eq]
        · rfl
        · exact hslot

private theorem readAck_eq {buf acks : Bytes} {m : Message} {start stop slot : UInt8}
    (hdecode : decodeMsg buf = some (m, acks)) (hbody : m.body = .sendAcks start stop)
    (hstop : slot < stop) (hstart : start ≤ slot) :
    readAck acks (slot.toNat - start.toNat) =
      some (ackAt acks (slot.toNat - start.toNat)) := by
  obtain ⟨-, hfits⟩ := Codec.decodeMsg_eq_some_iff.mp hdecode
  rw [hbody] at hfits
  obtain ⟨hlt, hlen⟩ := hfits
  rw [UInt8.toNat_sub_of_le _ _ (UInt8.le_of_lt hlt)] at hlen
  rw [UInt8.lt_iff_toNat_lt] at hstop
  rw [UInt8.le_iff_toNat_le] at hstart
  apply if_pos
  rw [hlen, ACK_SZ]
  omega

private theorem takeClusterheadMsg_eq (w : Bool × Node) (buf : Bytes) (h : Legal c w.2) :
    takeClusterheadMsg w buf = some (Slots.takeClusterheadMsg w buf) := by
  have hfirst : 0 < w.2.state.slotCount := slotCount_pos h
  rw [takeClusterheadMsg, Slots.takeClusterheadMsg]
  dsimp only
  cases hdecode : decodeMsg buf with
  | none => rfl
  | some r =>
      obtain ⟨⟨sequence, src, body⟩, acks⟩ := r
      cases body with
      | sendAcks start stop =>
          dsimp only
          split_ifs with hrange
          · rw [readAck_eq hdecode rfl hrange.1 hrange.2, Option.bind_eq_bind, Option.bind_some,
              BoundedArray.set_eq hfirst]
            rfl
          · rfl
      | closeCluster nomination neighbors =>
          dsimp only
          split_ifs <;> rfl
      | _ => rfl

private theorem takeFrame_eq (msgs : List Bytes) (h : Legal c n) :
    takeFrame msgs n = some (Slots.takeFrame msgs n) := by
  refine BoundedArray.foldlM_eq (P := fun w : Bool × Node => Legal c w.2) ?_ msgs (h.congr rfl)
  intro w buf hw
  exact ⟨takeClusterheadMsg_eq w buf hw, hw.congr (Api.takeClusterheadMsg_core w buf)⟩

private theorem waitLoop_eq (chSlot : UInt8) (passes : List WaitPass) (h : Legal c n) :
    waitLoop chSlot passes n = some (Slots.waitLoop chSlot passes n) := by
  induction passes generalizing n with
  | nil => rfl
  | cons p passes ih =>
      have hrecv : Legal c (Discovery.recv p.recvNow p.arrival n).2 := h.congr (Api.recv_core ..)
      rw [waitLoop, Slots.waitLoop]
      dsimp only
      by_cases hrc : (Queue.recv p.recvNow p.arrival n.link).1 = .ok
      · have hframe := takeFrame_eq (Queue.recv p.recvNow p.arrival n.link).2.rx hrecv
        have htaken := hrecv.congr
          (Api.takeFrame_core (Queue.recv p.recvNow p.arrival n.link).2.rx _)
        simp only [Discovery.recv] at hframe htaken
        rw [if_neg (not_not.mpr hrc), if_neg (not_not.mpr hrc), hframe, Option.bind_eq_bind,
          Option.bind_some]
        split_ifs
        · exact ih (htaken.congr rfl)
        · rfl
        · rfl
      · rw [if_pos hrc, if_pos hrc]

private theorem doFollowerRecv_eq (slotNow : UInt32) (passes : List WaitPass) (h : Legal c n) :
    doFollowerRecv slotNow passes n = some (Slots.doFollowerRecv slotNow passes n) := by
  rw [doFollowerRecv, Slots.doFollowerRecv]
  dsimp only
  split_ifs
  · rfl
  · rfl
  · exact waitLoop_eq _ _ (h.congr rfl)

private theorem startRound_eq (inp : Input) (round : Nat) (earlier : Bool) (h : Legal c n) :
    startRound inp round earlier n = some (Advertise.startRound inp round earlier n) := by
  rw [startRound, startAnnouncement, Advertise.startRound, Advertise.startAnnouncement]
  dsimp only
  split_ifs with hnew hrole
  · rw [prepareClusterhead_eq (h.asClusterhead hrole)]
    rfl
  · rw [prepareClusterhead_eq h]
    rfl
  · rfl

private theorem answerFollow_eq (inp : Input) (isClusterhead : Bool) (m : Message) (h : Legal c n) :
    answerFollow inp isClusterhead m n =
      some (Advertise.answerFollow inp isClusterhead m n) := by
  obtain ⟨sequence, src, body⟩ := m
  cases body with
  | follow clusterhead follower =>
      rw [answerFollow, Advertise.answerFollow]
      dsimp only
      split_ifs
      · rw [accept_eq _ _ _ h]
        rfl
      · rfl
  | _ => rfl

private theorem promote_eq (rand : UInt32) (h : Legal c n) :
    promote rand n = some (Advertise.promote rand n) := by
  rw [promote, Advertise.promote]
  split_ifs with hnew
  · refine prepareClusterhead_eq (h.asClusterhead ?_)
    intro hgateway
    simp [MultihopState.actsAsClusterhead, hgateway] at hnew
  · rfl

private theorem join_eq (inp : Input) (l : JoinLocals) (m : Message) (durationMs : UInt32)
    (h : Legal c n) : join inp l m n durationMs = some (Advertise.join inp l m n durationMs) := by
  obtain ⟨sequence, src, body⟩ := m
  cases body with
  | accept accepted follower startSlot relativeSlot remoteTimeS =>
      have hattach : Legal c (attach l startSlot relativeSlot n) := h.congr rfl
      rw [join, Advertise.join]
      dsimp only
      split_ifs
      · rw [promote_eq _ hattach]
        rfl
      · rfl
      · rfl
  | _ => rfl

private theorem joinMessage_eq (inp : Input) (round : Nat) (isClusterhead : Bool) (l : JoinLocals)
    (h : Legal c n) :
    joinMessage inp round isClusterhead l n =
      some (Advertise.joinMessage inp round isClusterhead l n) := by
  have hmsg : Legal c { n with link := (Queue.getmsg n.link).2 } := by
    apply h.congr
    rw [Queue.getmsg]
    split <;> rfl
  rw [joinMessage, Advertise.joinMessage]
  dsimp only
  cases (Queue.getmsg n.link).1.bind decodeMsg with
  | none => rfl
  | some r =>
      dsimp only
      rw [answerFollow_eq inp isClusterhead r.1 hmsg, Option.bind_eq_bind, Option.bind_some,
        join_eq inp l r.1 _ (hmsg.answerFollow inp isClusterhead r.1)]
      rfl

private theorem startAdvertise_eq (inp : Input) (n : Node) :
    startAdvertise inp n = some (Advertise.startAdvertise inp n) := by
  rw [startAdvertise, resetCluster, BoundedArray.fill_eq le_rfl]
  rfl

/-- On a legal node no step leaves the arrays. -/
private theorem step_eq {p : Proc} (inp : Input) (h : Legal c p.node) :
    step inp p = some (Advertise.step inp p) := by
  obtain ⟨control, n⟩ := p
  cases control with
  | idle =>
      rw [step, Advertise.step]
      dsimp only
      split_ifs
      · rfl
      · rw [startAdvertise_eq]
        rfl
  | discovery l =>
      rw [step]
      dsimp only
      split_ifs with hend
      · rw [startRound_eq inp 0 false h, Advertise.step]
        dsimp only
        rw [if_pos hend]
        rfl
      · rfl
  | announcement round earlier l => rfl
  | joining stage round isClusterhead l =>
      cases stage with
      | head =>
          rw [step]
          dsimp only
          split_ifs with hend
          · rw [startRound_eq inp (round + 1) isClusterhead h, Advertise.step]
            dsimp only
            rw [if_pos hend.1, if_pos hend.2]
            rfl
          · rfl
      | recv => rfl
      | drain => exact joinMessage_eq inp round isClusterhead l h
  | done => rfl

private theorem run_eq {p : Proc} (inps : List Input) (h : Legal c p.node) :
    run inps p = some (Advertise.run inps p) := by
  refine BoundedArray.foldlM_eq (P := fun p : Proc => Legal c p.node) ?_ inps h
  intro p inp hp
  rw [step_eq inp hp]
  exact ⟨rfl, hp.step inp⟩

private theorem exec_eq (op : Op) (h : Legal c n) : exec op n = some (op.exec n) := by
  cases op with
  | accept follower remote stamp =>
      rw [exec, accept_eq follower remote stamp h]
      rfl
  | sendAcks ackStart ackEnd stamp =>
      rw [exec, sendAcks_eq]
      rfl
  | doAdvertise inps =>
      rw [exec, run_eq inps (p := ⟨.idle, n⟩) h]
      rfl
  | doFollowerRecv slotNow passes =>
      rw [exec, doFollowerRecv_eq slotNow passes h]
      rfl
  | doClusterheadSend inp =>
      rw [exec, doClusterheadSend_eq]
      rfl
  | doClusterheadRecv inp =>
      rw [exec, doClusterheadRecv_eq inp h]
      rfl
  | _ => rfl

private theorem runOps_eq (ops : List Op) (h : Legal c n) :
    runOps ops n = some (Api.runOps ops n) := by
  refine BoundedArray.foldlM_eq (P := fun n : Node => Legal c n) ?_ ops h
  intro n op hn
  exact ⟨exec_eq op hn, hn.exec op⟩

private theorem init_eq {p : InitParams} {now : UInt32} (hboot : n.state = MultihopState.new)
    (hmac : p.mac = c.mac) (hcount : p.slotCount = c.slotCount) :
    init p now n = some (Api.init p now n) := by
  rw [init, Api.init]
  dsimp only
  split_ifs with hshort hrc hgateway
  · rfl
  · rfl
  · have hlink := (Api.queueInit_ok (not_not.mp hrc)).2.2
    rw [hboot, prepareClusterhead_eq (Api.configured_legal (hlink.trans hmac) hcount)]
    rfl
  · rfl

end Checked

/-- After a successful `init` no sequence of calls ever reads or writes outside the two arrays or
reads an ack outside a received message, and the slots assigned stay within the window. -/
theorem accesses_in_bounds {p : InitParams} {now : UInt32} {n : Node}
    (hboot : n.state = MultihopState.new) (hreuse : 1 ≤ p.mac.reuseDistance)
    (hok : (Api.init p now n).1 = .ok) (ops : List Op) :
    init p now n = some (Api.init p now n) ∧
      runOps ops (Api.init p now n).2 = some (Api.runOps ops (Api.init p now n).2) ∧
      (Api.runOps ops (Api.init p now n).2).state.slotCount = p.slotCount ∧
      (Api.runOps ops (Api.init p now n).2).state.slotsAssigned.toNat ≤
        max 1 (vtdmaWindowSize p.mac).toNat := by
  obtain ⟨hfits, hcount, -⟩ := Api.init_ok hok
  let c : Setup := ⟨p.mac, p.slotCount, ⟨hreuse, hcount⟩, hfits⟩
  have hlegal : Legal c (Api.init p now n).2 := Api.init_legal hboot rfl rfl hok
  have hrun := hlegal.runOps ops
  exact ⟨init_eq hboot (c := c) rfl rfl, runOps_eq ops hlegal, hrun.slotCount, hrun.assigned⟩

/-- A gateway with the parameters of the node program. -/
def gatewayParams : InitParams where
  node := ⟨0, 0⟩
  mac := setupMac
  link := setupLink
  acks := fun _ => 0
  slots := fun _ => 0
  slotCount := setupMac.superframeSlotCount.toNat
  clusterheadProbability := 255

def powerOn : Node where
  state := MultihopState.new
  link := ⟨false, ⟨0, 0, 0, 0, 0⟩, .zero, 0, 0, 0, [], []⟩

/-- Nine followers ask for the seven slots, and one of them is heard. -/
def busySuperframe : List Op :=
  ((List.range 9).map fun i => .accept (UInt8.ofNat (i + 1)) 72 72) ++
    [.doClusterheadRecv ⟨119, 119, .accepted [Message.toBytes ⟨118, 1, .datagram 1 1 0⟩ ++ [42]]⟩,
      .sendAcks 1 1 120]

theorem gateway_stays_in_bounds :
    runOps busySuperframe (Api.init gatewayParams 71 powerOn).2 =
        some (Api.runOps busySuperframe (Api.init gatewayParams 71 powerOn).2) ∧
      (Api.runOps busySuperframe (Api.init gatewayParams 71 powerOn).2).state.slotsAssigned.toNat ≤
        max 1 (vtdmaWindowSize setupMac).toNat := by
  obtain ⟨-, hrun, -, hassigned⟩ :=
    @accesses_in_bounds gatewayParams 71 powerOn rfl (by decide) (by decide) busySuperframe
  exact ⟨hrun, hassigned⟩

example : (Api.runOps busySuperframe (Api.init gatewayParams 71 powerOn).2).state.acks 1 = 118 := by
  decide +kernel

end LoraMultihop.Multihop.Bounds
