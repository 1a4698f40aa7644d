/- digest: The public functions of the multihop layer, and what no sequence of them breaks. -/

import LoraMultihop.Multihop.Advertise
import LoraMultihop.Multihop.Allocation

set_option autoImplicit false
set_option relaxedAutoImplicit false

namespace LoraMultihop.Multihop.Api

open LoraMultihop.Foundation.ByteMemory (Bytes)
open LoraMultihop.Net.Params
open LoraMultihop.Link
open LoraMultihop.Multihop.Messages
open LoraMultihop.Multihop.State
open LoraMultihop.Multihop.Sending
open LoraMultihop.Multihop.Slots
open LoraMultihop.Multihop.Discovery (Input)
open LoraMultihop.Multihop.Advertise
open LoraMultihop.Multihop.Allocation (Windowed vtdmaWindowSize_toNat)

/-- The arguments of `init`; the two arrays are the memory their pointers lead to. -/
structure InitParams where
  node : NodeParams
  mac : MacParams
  link : LinkParams
  acks : Nat → UInt32
  slots : Nat → Address
  slotCount : Nat
  clusterheadProbability : UInt8

def configured (p : InitParams) (link : Queue.State) (s : MultihopState) : Node :=
  let s := s.withAddress p.node.address
  let s := { s with slotAssignments := p.slots }
  let s := s.clusterheadProbability p.clusterheadProbability
  { state := s.withAcksArray p.acks p.slotCount, link := link }

def init (p : InitParams) (now : UInt32) (n : Node) : RC × Node :=
  if p.slotCount < p.mac.superframeSlotCount.toNat then (.acksArrayLen, n)
  else
    let (rc, link) := Queue.init p.mac p.link now n.link
    if rc ≠ .ok then (.linkError, { n with link := link })
    else
      let n := configured p link n.state
      (.ok, if p.node.address = GATEWAY_ADDR then prepareClusterhead n else n)

def setClusterheadProbability (p : UInt8) (n : Node) : Node :=
  { n with state := n.state.clusterheadProbability p }

def epochAndOffset (slot : UInt8) (now : UInt32) (n : Node) :
    RC × Option (UInt32 × UInt32) × Node :=
  if n.state.initialized = false then (.notInit, none, n)
  else
    let (rc, out, link) := Queue.epochAndOffset slot now n.link
    (match rc with
      | .ok => .ok
      | .notInit => .notInit
      | .invalidSlot => .invalidSlot
      | .notInWindow => .notInWindow
      | _ => .linkError, out, { n with link := link })

def advertisementSlot (now : UInt32) (n : Node) : RC × Option (UInt32 × UInt32) × Node :=
  epochAndOffset ADVERTISEMENT_SLOT now n

def clusterheadSlot (now : UInt32) (n : Node) : RC × Option (UInt32 × UInt32) × Node :=
  if UNKNOWN_ADDR = n.state.clusterheadAddr then (.noClusterhead, none, n)
  else epochAndOffset n.state.downstreamStartSlot now n

def mySlotTime (now : UInt32) (n : Node) : RC × Option (UInt32 × UInt32) × Node :=
  if UNKNOWN_ADDR = n.state.clusterheadAddr then (.noClusterhead, none, n)
  else epochAndOffset (mySlot n.state) now n

/-- The public functions after `init`, with the readings and radio results of a call;
`do_advertise` takes one input for each step of its loops. -/
inductive Op
  | setClusterheadProbability (p : UInt8)
  | epochAndOffset (slot : UInt8) (now : UInt32)
  | advertisementSlot (now : UInt32)
  | clusterheadSlot (now : UInt32)
  | mySlotTime (now : UInt32)
  | openCluster (stamp : UInt32)
  | follow (clusterhead : Address) (stamp : UInt32)
  | accept (follower : Address) (remote stamp : UInt32)
  | closeCluster (renominate : Bool) (stamp : UInt32)
  | sendAcks (ackStart ackEnd : UInt8) (stamp : UInt32)
  | sendHeartbeat (stamp : UInt32)
  | sendDatagram (stamp : UInt32) (iter : DatagramIterator)
  | doAdvertise (inps : List Input)
  | doFollowerSend (slotNow flushNow : UInt32) (sent : Bool)
  | doFollowerRecv (slotNow : UInt32) (passes : List WaitPass)
  | doClusterheadSend (inp : SendInput)
  | doClusterheadRecv (inp : RecvInput)
  | flush (now : UInt32) (sent : Bool)

def Op.exec : Op → Node → Node
  | .setClusterheadProbability p, n => Api.setClusterheadProbability p n
  | .epochAndOffset slot now, n => (Api.epochAndOffset slot now n).2.2
  | .advertisementSlot now, n => (Api.advertisementSlot now n).2.2
  | .clusterheadSlot now, n => (Api.clusterheadSlot now n).2.2
  | .mySlotTime now, n => (Api.mySlotTime now n).2.2
  | .openCluster stamp, n => (Sending.openCluster stamp n).2
  | .follow clusterhead stamp, n => (Sending.follow clusterhead stamp n).2
  | .accept follower remote stamp, n => (Sending.accept follower remote stamp n).2
  | .closeCluster renominate stamp, n => (Sending.closeCluster renominate stamp n).2
  | .sendAcks ackStart ackEnd stamp, n => (Sending.sendAcks ackStart ackEnd stamp n).2.2
  | .sendHeartbeat stamp, n => (Sending.sendHeartbeat stamp n).2
  | .sendDatagram stamp iter, n => (Sending.sendDatagram stamp iter n).2.2
  | .doAdvertise inps, n => (run inps ⟨.idle, n⟩).node
  | .doFollowerSend slotNow flushNow sent, n => (Slots.doFollowerSend slotNow flushNow sent n).2.1
  | .doFollowerRecv slotNow passes, n => (Slots.doFollowerRecv slotNow passes n).2
  | .doClusterheadSend inp, n => (Slots.doClusterheadSend inp n).2.1
  | .doClusterheadRecv inp, n => (Slots.doClusterheadRecv inp n).2
  | .flush now sent, n => (Sending.flush now sent n).2.1

def runOps (ops : List Op) (n : Node) : Node := ops.foldl (fun n op => op.exec n) n

/-- The calls that may change more than the link layer. -/
def changesState : Op → Bool
  | .setClusterheadProbability _ => true
  | .accept _ _ _ => true
  | .doAdvertise _ => true
  | .doFollowerRecv _ _ => true
  | .doClusterheadRecv _ => true
  | _ => false

section States

private theorem epochAndOffset_state (slot : UInt8) (now : UInt32) (n : Node) :
    (Api.epochAndOffset slot now n).2.2.state = n.state := by
  rw [Api.epochAndOffset]
  split_ifs <;> rfl

private theorem request_state (m : Message) (n : Node) :
    (if n.state.initialized = false then (RC.notInit, n)
      else Sending.send m [] n).2.state = n.state := by
  split_ifs <;> rfl

theorem exec_state {op : Op} (hop : changesState op = false) (n : Node) :
    (op.exec n).state = n.state := by
  cases op with
  | epochAndOffset slot now => exact epochAndOffset_state slot now n
  | advertisementSlot now => exact epochAndOffset_state _ now n
  | clusterheadSlot now =>
      rw [Op.exec, Api.clusterheadSlot]
      split_ifs
      · rfl
      · exact epochAndOffset_state _ now n
  | mySlotTime now =>
      rw [Op.exec, Api.mySlotTime]
      split_ifs
      · rfl
      · exact epochAndOffset_state _ now n
  | openCluster stamp => exact request_state _ n
  | follow clusterhead stamp => exact request_state _ n
  | closeCluster renominate stamp => exact request_state _ n
  | sendHeartbeat stamp => exact request_state _ n
  | sendAcks ackStart ackEnd stamp =>
      exact (Slots.Extends.sendAcks (P := fun _ => True) ackStart ackEnd stamp
        fun _ _ => trivial).state
  | sendDatagram stamp iter =>
      rw [Op.exec, sendDatagram]
      split_ifs
      · rfl
      · split
        · rfl
        · dsimp only
          split_ifs <;> rfl
  | doFollowerSend slotNow flushNow sent =>
      rw [Op.exec, Slots.doFollowerSend]
      dsimp only
      split_ifs <;> rfl
  | doClusterheadSend inp =>
      rw [Op.exec, Slots.doClusterheadSend]
      dsimp only
      split_ifs
      · rfl
      · rw [Slots.emitChMessages, flush_state, Slots.queueChMessages_state]
        rfl
  | flush now sent => exact flush_state ..
  | _ => exact absurd hop (by simp [changesState])

end States

/-- The parameters of a successful `init`. -/
structure Setup where
  mac : MacParams
  slotCount : Nat
  windowed : Windowed mac
  fits : mac.superframeSlotCount.toNat ≤ slotCount

private theorem Setup.window_lt (c : Setup) : (vtdmaWindowSize c.mac).toNat < c.slotCount := by
  have hslots : 1 ≤ c.mac.superframeSlotCount.toNat := UInt8.le_iff_toNat_le.mp c.windowed.count
  have hfits := c.fits
  have hle := Nat.div_le_self (c.mac.superframeSlotCount.toNat - 1) c.mac.reuseDistance.toNat
  rw [vtdmaWindowSize_toNat c.windowed]
  omega

/-- What `init` establishes and every call keeps. -/
structure Legal (c : Setup) (n : Node) : Prop where
  mac : n.mac = c.mac
  slotCount : n.state.slotCount = c.slotCount
  assigned : n.state.slotsAssigned.toNat ≤ max 1 (vtdmaWindowSize c.mac).toNat
  gateway : n.state.role = .gateway →
    n.state.address = GATEWAY_ADDR ∧ n.state.ring = GATEWAY_RING

variable {c : Setup}

def core (n : Node) : MacParams × Nat × UInt8 × Address × Ring × Bool :=
  (n.mac, n.state.slotCount, n.state.slotsAssigned, n.state.address, n.state.ring,
    decide (n.state.role = .gateway))

theorem Legal.congr {n n' : Node} (h : Legal c n) (hcore : core n' = core n) : Legal c n' := by
  simp only [core, Prod.mk.injEq, decide_eq_decide] at hcore
  obtain ⟨hmac, hcount, hassigned, haddress, hring, hrole⟩ := hcore
  refine ⟨hmac.trans h.mac, hcount.trans h.slotCount, ?_, ?_⟩
  · rw [hassigned]
    exact h.assigned
  · rw [hrole, haddress, hring]
    exact h.gateway

theorem Legal.window_lt {n : Node} (h : Legal c n) :
    (vtdmaWindowSize n.mac).toNat < n.state.slotCount := by
  rw [h.mac, h.slotCount]
  exact c.window_lt

theorem Legal.assigned_le {n : Node} (h : Legal c n) :
    n.state.slotsAssigned.toNat ≤ n.state.slotCount := by
  have hassigned := h.assigned
  have hwindow := h.window_lt
  rw [h.mac] at hwindow
  omega

section Core

variable {n : Node}

private theorem extends_core {P : Bytes → Prop} {n' : Node} (h : Extends P n n') :
    core n' = core n := by
  obtain ⟨msgs, -, hstate, hlink⟩ := h
  rw [Api.core, Api.core, hstate, Node.mac, hlink]
  rfl

private theorem send_core (m : Message) (tail : Bytes) (n : Node) :
    core (Sending.send m tail n).2 = core n :=
  extends_core (Extends.send (P := fun _ => True) trivial n)

private theorem flush_core (now : UInt32) (sent : Bool) (n : Node) :
    core (Sending.flush now sent n).2.1 = core n := by
  rw [core, core, flush_state, flush_mac]

theorem recv_core (now : UInt32) (arrival : Queue.Arrival) (n : Node) :
    core (Discovery.recv now arrival n).2 = core n := by
  rw [core, core, Discovery.recv_state, (Discovery.recv_link now arrival n).2]

private theorem openCluster_core (stamp : UInt32) (n : Node) :
    core (Sending.openCluster stamp n).2 = core n := by
  rw [Sending.openCluster]
  split_ifs
  · rfl
  · exact send_core ..

private theorem follow_core (clusterhead : Address) (stamp : UInt32) (n : Node) :
    core (Sending.follow clusterhead stamp n).2 = core n := by
  rw [Sending.follow]
  split_ifs
  · rfl
  · exact send_core ..

private theorem closeCluster_core (renominate : Bool) (stamp : UInt32) (n : Node) :
    core (Sending.closeCluster renominate stamp n).2 = core n :=
  extends_core (Extends.closeCluster (P := fun _ => True) renominate stamp trivial)

private theorem sendAcks_core (ackStart ackEnd : UInt8) (stamp : UInt32) (n : Node) :
    core (Sending.sendAcks ackStart ackEnd stamp n).2.2 = core n :=
  extends_core (Extends.sendAcks (P := fun _ => True) ackStart ackEnd stamp fun _ _ => trivial)

private theorem sendHeartbeat_core (stamp : UInt32) (n : Node) :
    core (Sending.sendHeartbeat stamp n).2 = core n := by
  rw [Sending.sendHeartbeat]
  split_ifs
  · rfl
  · exact send_core ..

private theorem sendDatagram_core (stamp : UInt32) (iter : DatagramIterator) (n : Node) :
    core (Sending.sendDatagram stamp iter n).2.2 = core n := by
  rw [Sending.sendDatagram]
  split_ifs
  · rfl
  · split
    · rfl
    · dsimp only
      split_ifs
      · rfl
      · exact send_core ..

private theorem queueFlush_core (now : UInt32) (sent : Bool) (n : Node) :
    core { n with link := (Queue.flush now sent n.link).2.1 } = core n := by
  have hmac : (Queue.flush now sent n.link).2.1.mac = n.link.mac := by
    by_cases h : Queue.GoesOut now sent n.link
    · rw [Queue.flush_out h]
      rfl
    · obtain ⟨-, -, w, hw⟩ := Queue.flush_kept h
      rw [hw]
  rw [core, core, Node.mac, hmac]
  rfl

private theorem doFollowerSend_core (slotNow flushNow : UInt32) (sent : Bool) (n : Node) :
    core (Slots.doFollowerSend slotNow flushNow sent n).2.1 = core n := by
  rw [Slots.doFollowerSend]
  dsimp only
  split_ifs
  · rfl
  · exact queueFlush_core ..
  · exact queueFlush_core ..

theorem takeClusterheadMsg_core (w : Bool × Node) (buf : Bytes) :
    core (takeClusterheadMsg w buf).2 = core w.2 := by
  rw [takeClusterheadMsg]
  dsimp only
  split
  · split_ifs <;> rfl
  · split_ifs <;> rfl
  · rfl

theorem takeFrame_core (msgs : List Bytes) (n : Node) : core (takeFrame msgs n).2 = core n := by
  have hfold (w : Bool × Node) : core (msgs.foldl takeClusterheadMsg w).2 = core w.2 := by
    induction msgs generalizing w with
    | nil => rfl
    | cons b msgs ih =>
        rw [List.foldl_cons, ih, takeClusterheadMsg_core]
  exact hfold _

private theorem waitLoop_core (chSlot : UInt8) (passes : List WaitPass) (n : Node) :
    core (waitLoop chSlot passes n).2 = core n := by
  induction passes generalizing n with
  | nil => rfl
  | cons p passes ih =>
      have hrecv : core (Discovery.recv p.recvNow p.arrival n).2 = core n := recv_core ..
      rw [waitLoop]
      dsimp only
      split_ifs
      · exact hrecv
      · exact hrecv
      · exact (ih _).trans ((takeFrame_core ..).trans hrecv)
      · exact (takeFrame_core ..).trans hrecv
      · exact (takeFrame_core ..).trans hrecv

private theorem doFollowerRecv_core (slotNow : UInt32) (passes : List WaitPass) (n : Node) :
    core (Slots.doFollowerRecv slotNow passes n).2 = core n := by
  rw [Slots.doFollowerRecv]
  dsimp only
  split_ifs
  · rfl
  · rfl
  · exact waitLoop_core ..

private theorem doClusterheadSend_core (inp : SendInput) (n : Node) :
    core (Slots.doClusterheadSend inp n).2.1 = core n := by
  rw [Slots.doClusterheadSend]
  dsimp only
  split_ifs
  · rfl
  · rw [emitChMessages, flush_core]
    have hqueue (n : Node) : core (queueChMessages inp n) = core n :=
      extends_core (Extends.queueChMessages (P := fun _ => True) inp (fun _ _ _ _ _ => trivial)
        fun _ _ => trivial)
    rw [hqueue]
    rfl

private theorem takeDatagram_core (relative : UInt8) (n : Node) (buf : Bytes) :
    core (takeDatagram relative n buf) = core n := by
  rw [takeDatagram]
  split
  · by_cases hok : (Queue.sendmsg (buf.take (UInt8.ofNat buf.length).toNat) n.link).1 = .ok
    · rw [(Queue.sendmsg_ok hok).1]
      rfl
    · rw [Queue.sendmsg_rejected hok]
      rfl
  · rfl

private theorem doClusterheadRecv_core (inp : RecvInput) (n : Node) :
    core (Slots.doClusterheadRecv inp n).2 = core n := by
  have hfold (relative : UInt8) (msgs : List Bytes) (n : Node) :
      core (msgs.foldl (takeDatagram relative) n) = core n := by
    induction msgs generalizing n with
    | nil => rfl
    | cons b msgs ih => rw [List.foldl_cons, ih, takeDatagram_core]
  rw [Slots.doClusterheadRecv]
  dsimp only
  split
  · rfl
  · next relative _ =>
    have hrecv : core (Discovery.recv inp.recvNow inp.arrival
        (setCdmaCode relative (activeSlot inp.slotNow n).2)).2 = core n := recv_core ..
    split_ifs
    · exact hrecv
    · exact hrecv
    · rw [hfold]
      exact hrecv

private theorem epochAndOffset_core (slot : UInt8) (now : UInt32) (n : Node) :
    core (Api.epochAndOffset slot now n).2.2 = core n := by
  have hmac : (Queue.epochAndOffset slot now n.link).2.2.mac = n.link.mac := by
    rw [Queue.epochAndOffset]
    split_ifs <;> rfl
  rw [Api.epochAndOffset]
  split_ifs
  · rfl
  · rw [core, core, Node.mac, hmac]
    rfl

private theorem announcementPass_core (inp : Input) (l : AnnounceLocals) (n : Node) :
    core (announcementPass inp l n).2.1 = core n := by
  have hannounce (n : Node) : core (announceCluster inp l n).2.1 = core n := by
    rw [announceCluster]
    dsimp only
    split_ifs
    · rw [flush_core, openCluster_core]
    · exact openCluster_core ..
    · rfl
  have hdrained (n : Node) : core (Discovery.drained n) = core n := rfl
  rw [announcementPass_eq, hdrained, hannounce, recv_core]

private theorem joinHead_core (inp : Input) (l : JoinLocals) (n : Node) :
    core (joinHead inp l n).2.1 = core n := by
  rw [joinHead]
  dsimp only
  split_ifs
  · rw [flush_core, follow_core]
  · rfl
  · rfl

private theorem resetCluster_core (n : Node) : core (resetCluster n) = core n := by
  by_cases h : n.state.role = .gateway
  · simp [core, resetCluster, h]
    rfl
  · simp [core, resetCluster, h]
    rfl

end Core

private theorem Legal.prepareClusterhead {n : Node} (h : Legal c n) :
    Legal c (Sending.prepareClusterhead n) :=
  ⟨h.mac, h.slotCount, le_max_left _ _, h.gateway⟩

theorem Legal.asClusterhead {n : Node} (h : Legal c n) (hrole : n.state.role ≠ .gateway) :
    Legal c (withRole .clusterhead n) := by
  apply h.congr
  simp [core, withRole, hrole]
  rfl

private theorem Legal.assign {n : Node} (follower : Address) (h : Legal c n) :
    Legal c (Sending.assign follower n) := by
  rw [Sending.assign]
  split_ifs with hfree
  · refine ⟨h.mac, h.slotCount, ?_, h.gateway⟩
    have hlt := UInt8.lt_iff_toNat_lt.mp hfree.2
    rw [h.mac] at hlt
    have hwindow := (vtdmaWindowSize c.mac).toNat_lt
    have hnext : (n.state.slotsAssigned + 1).toNat = n.state.slotsAssigned.toNat + 1 := by
      rw [UInt8.toNat_add, show (1 : UInt8).toNat = 1 from rfl]
      omega
    change (n.state.slotsAssigned + 1).toNat ≤ max 1 (vtdmaWindowSize c.mac).toNat
    omega
  · exact h

private theorem Legal.accept {n : Node} (follower : Address) (remote stamp : UInt32)
    (h : Legal c n) : Legal c (Sending.accept follower remote stamp n).2 := by
  by_cases hi : n.state.initialized = true
  · rw [accept_snd remote stamp hi]
    exact (h.assign follower).congr (send_core ..)
  · rwa [Sending.accept, if_pos (by simpa using hi)]

private theorem Legal.discoveryPass {n : Node} (inp : Input) (l : Discovery.DiscoveryLocals)
    (h : Legal c n) : Legal c (Discovery.discoveryPass inp l n).2.1 := by
  have hmac : (Discovery.discoveryPass inp l n).2.1.mac = n.mac := by
    have hafter : (Discovery.afterRecv inp n).mac = n.mac := by
      rw [Discovery.afterRecv]
      dsimp only
      split_ifs <;> exact (Discovery.recv_link ..).2
    rcases Discovery.discoveryPass_cases inp l n with heq | heq
    · rw [heq, (Discovery.announceHeartbeat_link ..).2]
      exact hafter
    · rw [heq]
      exact hafter
  have hstate := Discovery.discoveryPass_state inp l n
  obtain ⟨neighbors, ring, rounds, hkept⟩ := Discovery.heardState_kept inp n
  have hgateway (haddress : n.state.address = GATEWAY_ADDR) :=
    Discovery.heardState_gateway inp haddress
  rw [hkept] at hstate hgateway
  refine ⟨hmac.trans h.mac, ?_, ?_, ?_⟩
  · rw [hstate]
    exact h.slotCount
  · rw [hstate]
    exact h.assigned
  · rw [hstate]
    intro hrole
    exact ⟨(h.gateway hrole).1, hgateway (h.gateway hrole).1⟩

theorem Legal.startRound {n : Node} (inp : Input) (round : Nat) (earlier : Bool) (h : Legal c n) :
    Legal c (Advertise.startRound inp round earlier n).node := by
  rw [Advertise.startRound, startAnnouncement]
  dsimp only
  split_ifs with hnew hrole
  · exact (h.asClusterhead hrole).prepareClusterhead
  · exact h.prepareClusterhead
  · exact h

theorem Legal.answerFollow {n : Node} (inp : Input) (isClusterhead : Bool) (m : Message)
    (h : Legal c n) : Legal c (Advertise.answerFollow inp isClusterhead m n).1 := by
  rcases answerFollow_cases inp isClusterhead m n with heq | ⟨follower, -, -, heq⟩
  · rwa [heq]
  · rw [heq]
    exact (h.accept m.src (inp.now 0) (inp.now 1)).congr (flush_core ..)

private theorem Legal.join {n : Node} (inp : Input) (l : JoinLocals) (m : Message)
    (durationMs : UInt32) (h : Legal c n) : Legal c (Advertise.join inp l m n durationMs).2.2 := by
  rcases join_cases inp l m n durationMs with heq | ⟨-, heq⟩ |
    ⟨accepted, start, relative, remote, -, -, -, -, -, heq⟩
  · rwa [heq]
  · rwa [heq]
  · have hattach : Legal c (attach l start relative n) := h.congr rfl
    rw [heq]
    rcases promote_cases (inp.rand 0) (attach l start relative n) with hp | ⟨hrole, -, hp⟩
    · rwa [hp]
    · have hnot : (attach l start relative n).state.role ≠ .gateway := by
        intro hgateway
        rw [MultihopState.actsAsClusterhead, hgateway] at hrole
        exact absurd hrole (by simp)
      rw [hp]
      exact (hattach.asClusterhead hnot).prepareClusterhead

/-- Every step of `do_advertise` keeps what `init` has established. -/
theorem Legal.step {p : Proc} (inp : Input) (h : Legal c p.node) :
    Legal c (Advertise.step inp p).1.node := by
  obtain ⟨control, n⟩ := p
  cases control with
  | idle =>
      rw [Advertise.step]
      dsimp only
      split_ifs
      · exact h.congr rfl
      · have hslot : Legal c (activeSlot (inp.now 0) n).2 := h.congr rfl
        exact hslot.congr (resetCluster_core _)
  | discovery l =>
      rw [Advertise.step]
      dsimp only
      split_ifs
      · exact h.startRound inp 0 false
      · exact h.discoveryPass inp l
  | announcement round earlier l =>
      rw [Advertise.step]
      dsimp only
      split_ifs
      · exact h
      · exact h.congr (announcementPass_core inp l n)
  | joining stage round isClusterhead l =>
      cases stage with
      | head =>
          rw [Advertise.step]
          dsimp only
          split_ifs
          · exact h.startRound inp (round + 1) isClusterhead
          · exact h.congr rfl
          · exact h.congr (joinHead_core inp l n)
      | recv => exact h.congr (recv_core ..)
      | drain =>
          have hmsg : Legal c { n with link := (Queue.getmsg n.link).2 } := by
            apply h.congr
            rw [Queue.getmsg]
            split <;> rfl
          change Legal c (joinMessage inp round isClusterhead l n).1.node
          rw [joinMessage]
          dsimp only
          split
          · exact hmsg
          · exact (hmsg.answerFollow inp isClusterhead _).join inp l _ _
  | done => exact h

private theorem Legal.run {p : Proc} (inps : List Input) (h : Legal c p.node) :
    Legal c (Advertise.run inps p).node := by
  induction inps generalizing p with
  | nil => exact h
  | cons inp inps ih => exact ih (h.step inp)

theorem Legal.exec {n : Node} (op : Op) (h : Legal c n) : Legal c (op.exec n) := by
  cases op with
  | setClusterheadProbability p => exact h.congr rfl
  | epochAndOffset slot now => exact h.congr (epochAndOffset_core ..)
  | advertisementSlot now => exact h.congr (epochAndOffset_core ..)
  | clusterheadSlot now =>
      rw [Op.exec, Api.clusterheadSlot]
      split_ifs
      · exact h
      · exact h.congr (epochAndOffset_core ..)
  | mySlotTime now =>
      rw [Op.exec, Api.mySlotTime]
      split_ifs
      · exact h
      · exact h.congr (epochAndOffset_core ..)
  | openCluster stamp => exact h.congr (openCluster_core ..)
  | follow clusterhead stamp => exact h.congr (follow_core ..)
  | accept follower remote stamp => exact h.accept follower remote stamp
  | closeCluster renominate stamp => exact h.congr (closeCluster_core ..)
  | sendAcks ackStart ackEnd stamp => exact h.congr (sendAcks_core ..)
  | sendHeartbeat stamp => exact h.congr (sendHeartbeat_core ..)
  | sendDatagram stamp iter => exact h.congr (sendDatagram_core ..)
  | doAdvertise inps => exact Legal.run (p := ⟨.idle, n⟩) inps h
  | doFollowerSend slotNow flushNow sent => exact h.congr (doFollowerSend_core ..)
  | doFollowerRecv slotNow passes => exact h.congr (doFollowerRecv_core ..)
  | doClusterheadSend inp => exact h.congr (doClusterheadSend_core ..)
  | doClusterheadRecv inp => exact h.congr (doClusterheadRecv_core ..)
  | flush now sent => exact h.congr (flush_core ..)

theorem Legal.runOps {n : Node} (ops : List Op) (h : Legal c n) : Legal c (Api.runOps ops n) := by
  induction ops generalizing n with
  | nil => exact h
  | cons op ops ih => exact ih (h.exec op)

theorem withAddress_gateway (address : Address) (s : MultihopState) :
    (s.withAddress address).address = address ∧
      (address = GATEWAY_ADDR → (s.withAddress address).ring = GATEWAY_RING) ∧
      ((s.withAddress address).role = .gateway ↔ address = GATEWAY_ADDR) := by
  rw [MultihopState.withAddress]
  split_ifs with h
  · exact ⟨rfl, fun _ => rfl, by simp [← h]⟩
  · refine ⟨rfl, fun heq => absurd heq.symm h, ?_⟩
    simp [Ne.symm h]

theorem queueInit_ok {mac : MacParams} {link : LinkParams} {now : UInt32} {s : Queue.State}
    (hok : (Queue.init mac link now s).1 = .ok) :
    1 ≤ mac.superframeSlotCount ∧ (Queue.init mac link now s).2.initialized = true ∧
      (Queue.init mac link now s).2.mac = mac := by
  unfold Queue.init at hok ⊢
  split_ifs at hok ⊢ with hcount hlength
  refine ⟨UInt8.le_iff_toNat_le.mpr ?_, rfl, rfl⟩
  rw [UInt8.lt_iff_toNat_lt] at hcount
  omega

theorem init_ok {p : InitParams} {now : UInt32} {n : Node} (hok : (init p now n).1 = .ok) :
    p.mac.superframeSlotCount.toNat ≤ p.slotCount ∧ 1 ≤ p.mac.superframeSlotCount ∧
      ∃ link : Queue.State, link.initialized = true ∧ link.mac = p.mac ∧
        (init p now n).2 =
          if p.node.address = GATEWAY_ADDR then prepareClusterhead (configured p link n.state)
          else configured p link n.state := by
  unfold init at hok ⊢
  by_cases hfits : p.slotCount < p.mac.superframeSlotCount.toNat
  · rw [if_pos hfits] at hok
    exact absurd hok (by simp)
  rw [if_neg hfits] at hok ⊢
  dsimp only at hok ⊢
  by_cases hrc : (Queue.init p.mac p.link now n.link).1 = .ok
  · rw [if_neg (not_not.mpr hrc)]
    have hlink := queueInit_ok hrc
    exact ⟨Nat.not_lt.mp hfits, hlink.1, _, hlink.2.1, hlink.2.2, rfl⟩
  · rw [if_pos hrc] at hok
    exact absurd hok (by simp)

theorem configured_legal {p : InitParams} {link : Queue.State} (hmac : link.mac = c.mac)
    (hcount : p.slotCount = c.slotCount) : Legal c (configured p link MultihopState.new) := by
  obtain ⟨haddress, hring, hrole⟩ := withAddress_gateway p.node.address MultihopState.new
  have hassigned : (MultihopState.new.withAddress p.node.address).slotsAssigned = 1 := by
    rw [MultihopState.withAddress]
    split_ifs <;> rfl
  refine ⟨hmac, hcount, ?_, ?_⟩
  · change (MultihopState.new.withAddress p.node.address).slotsAssigned.toNat ≤ _
    rw [hassigned]
    exact le_max_left _ _
  · intro hgateway
    have haddr := hrole.mp hgateway
    exact ⟨haddress.trans haddr, hring haddr⟩

theorem init_legal {p : InitParams} {now : UInt32} {n : Node} (hboot : n.state = MultihopState.new)
    (hmac : p.mac = c.mac) (hcount : p.slotCount = c.slotCount) (hok : (init p now n).1 = .ok) :
    Legal c (init p now n).2 := by
  obtain ⟨-, -, link, -, hlink, hn⟩ := init_ok hok
  have hlegal : Legal c (configured p link MultihopState.new) :=
    configured_legal (hlink.trans hmac) hcount
  rw [hn, hboot]
  split_ifs
  · exact hlegal.prepareClusterhead
  · exact hlegal

end LoraMultihop.Multihop.Api
