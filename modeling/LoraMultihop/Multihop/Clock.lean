/- digest: No public function changes the cached window but by refreshing it. -/

import LoraMultihop.Multihop.Api

set_option autoImplicit false
set_option relaxedAutoImplicit false

namespace LoraMultihop.Multihop.Clock

open LoraMultihop.Foundation.ByteMemory (Bytes)
open LoraMultihop.Net.Params
open LoraMultihop.Link
open LoraMultihop.Link.Mac
open LoraMultihop.Multihop.Messages
open LoraMultihop.Multihop.State
open LoraMultihop.Multihop.Sending
open LoraMultihop.Multihop.Slots
open LoraMultihop.Multihop.Discovery (Input)
open LoraMultihop.Multihop.Advertise
open LoraMultihop.Multihop.Api

/-- Between two states of the link layer the cached window was refreshed any number of times, under
one set of parameters. -/
structure Ticks (s s' : Queue.State) : Prop where
  mac : s'.mac = s.mac
  windows : ∀ P : MacState → Prop,
    (∀ w now, P w → P (refreshWindow s.mac w now)) → P s.macState → P s'.macState

namespace Ticks

variable {a b c : Queue.State}

theorem of_eq (hmac : b.mac = a.mac) (hw : b.macState = a.macState) : Ticks a b :=
  ⟨hmac, fun _ _ h => hw ▸ h⟩

private theorem refl (a : Queue.State) : Ticks a a := of_eq rfl rfl

theorem trans (h : Ticks a b) (h' : Ticks b c) : Ticks a c := by
  refine ⟨h'.mac.trans h.mac, ?_⟩
  intro P hP ha
  exact h'.windows P (by rwa [h.mac]) (h.windows P hP ha)

private theorem before (h : Ticks b c) (hmac : b.mac = a.mac) (hw : b.macState = a.macState) :
    Ticks a c :=
  (of_eq hmac hw).trans h

theorem refreshed (now : UInt32) (a : Queue.State) : Ticks a (Queue.refreshed now a) :=
  ⟨rfl, fun _ hP ha => hP _ now ha⟩

end Ticks

section Link

variable {s : Queue.State}

theorem recv_ticks (now : UInt32) (arrival : Queue.Arrival) (s : Queue.State) :
    Ticks s (Queue.recv now arrival s).2 := by
  rw [Queue.recv]
  dsimp only
  split_ifs
  · exact Ticks.refl s
  · exact Ticks.refreshed now s
  · have hrefreshed := Ticks.refreshed now s
    cases arrival <;> exact hrefreshed.trans (Ticks.of_eq rfl rfl)

private theorem flush_ticks (now : UInt32) (sent : Bool) (s : Queue.State) :
    Ticks s (Queue.flush now sent s).2.1 := by
  rw [Queue.flush]
  dsimp only
  split_ifs
  · exact Ticks.refl s
  · exact Ticks.refreshed now s
  · exact (Ticks.refreshed now s).trans (Ticks.of_eq rfl rfl)
  · exact Ticks.refreshed now s

private theorem epochAndOffset_ticks (slot : UInt8) (now : UInt32) (s : Queue.State) :
    Ticks s (Queue.epochAndOffset slot now s).2.2 := by
  rw [Queue.epochAndOffset]
  split_ifs
  · exact Ticks.refl s
  · exact Ticks.refl s
  · exact Ticks.refreshed now s

private theorem sendmsg_ticks (b : Bytes) (s : Queue.State) : Ticks s (Queue.sendmsg b s).2 := by
  rw [Queue.sendmsg]
  split_ifs <;> exact Ticks.of_eq rfl rfl

theorem getmsg_ticks (s : Queue.State) : Ticks s (Queue.getmsg s).2 := by
  rw [Queue.getmsg]
  split <;> exact Ticks.of_eq rfl rfl

end Link

section Node

variable {n : Node}

private theorem extends_ticks {P : Bytes → Prop} {n' : Node} (h : Extends P n n') :
    Ticks n.link n'.link := by
  obtain ⟨msgs, -, -, hlink⟩ := h
  rw [hlink]
  exact Ticks.of_eq rfl rfl

private theorem send_ticks (m : Message) (tail : Bytes) (n : Node) :
    Ticks n.link (send m tail n).2.link :=
  extends_ticks (Extends.send (P := fun _ => True) trivial n)

private theorem openCluster_ticks (stamp : UInt32) (n : Node) :
    Ticks n.link (openCluster stamp n).2.link := by
  rw [openCluster]
  split_ifs
  · exact Ticks.refl _
  · exact send_ticks ..

private theorem follow_ticks (clusterhead : Address) (stamp : UInt32) (n : Node) :
    Ticks n.link (follow clusterhead stamp n).2.link := by
  rw [follow]
  split_ifs
  · exact Ticks.refl _
  · exact send_ticks ..

private theorem sendHeartbeat_ticks (stamp : UInt32) (n : Node) :
    Ticks n.link (sendHeartbeat stamp n).2.link := by
  rw [sendHeartbeat]
  split_ifs
  · exact Ticks.refl _
  · exact send_ticks ..

private theorem sendDatagram_ticks (stamp : UInt32) (iter : DatagramIterator) (n : Node) :
    Ticks n.link (sendDatagram stamp iter n).2.2.link := by
  rw [sendDatagram]
  split_ifs
  · exact Ticks.refl _
  · cases iter.next with
    | none => exact Ticks.refl _
    | some r =>
        dsimp only
        split_ifs
        · exact Ticks.refl _
        · exact send_ticks ..

private theorem accept_ticks (follower : Address) (remote stamp : UInt32) (n : Node) :
    Ticks n.link (accept follower remote stamp n).2.link := by
  by_cases hi : n.state.initialized = true
  · have hassign : Ticks n.link (assign follower n).link := by
      rw [assign]
      split_ifs <;> exact Ticks.refl _
    rw [accept_snd remote stamp hi]
    exact hassign.trans (send_ticks ..)
  · rw [accept, if_pos (by simpa using hi)]
    exact Ticks.refl _

private theorem flushNode_ticks (now : UInt32) (sent : Bool) (n : Node) :
    Ticks n.link (Sending.flush now sent n).2.1.link := by
  rw [Sending.flush]
  split_ifs
  · exact Ticks.refl _
  · exact flush_ticks ..

theorem activeSlot_ticks (now : UInt32) (n : Node) : Ticks n.link (activeSlot now n).2.link :=
  Ticks.refreshed now n.link

private theorem epochAndOffsetNode_ticks (slot : UInt8) (now : UInt32) (n : Node) :
    Ticks n.link (Api.epochAndOffset slot now n).2.2.link := by
  rw [Api.epochAndOffset]
  split_ifs
  · exact Ticks.refl _
  · exact epochAndOffset_ticks ..

end Node

section Slots

private theorem doFollowerSend_ticks (slotNow flushNow : UInt32) (sent : Bool) (n : Node) :
    Ticks n.link (doFollowerSend slotNow flushNow sent n).2.1.link := by
  rw [doFollowerSend]
  dsimp only
  split_ifs
  · exact activeSlot_ticks ..
  · exact (activeSlot_ticks slotNow n).trans (Ticks.before (flush_ticks ..) rfl rfl)
  · exact (activeSlot_ticks slotNow n).trans (Ticks.before (flush_ticks ..) rfl rfl)

theorem takeFrame_ticks (msgs : List Bytes) (n : Node) :
    Ticks n.link (takeFrame msgs n).2.link := by
  have hfold (w : Bool × Node) : Ticks w.2.link (msgs.foldl takeClusterheadMsg w).2.link := by
    induction msgs generalizing w with
    | nil => exact Ticks.refl _
    | cons b msgs ih =>
        have hlink : (takeClusterheadMsg w b).2.link = w.2.link := by
          rw [takeClusterheadMsg]
          dsimp only
          split
          · split_ifs <;> rfl
          · split_ifs <;> rfl
          · rfl
        have hrest := ih (takeClusterheadMsg w b)
        rwa [hlink] at hrest
  exact Ticks.before (hfold (true, { n with link := { n.link with rx := [] } })) rfl rfl

private theorem waitLoop_ticks (chSlot : UInt8) (passes : List WaitPass) (n : Node) :
    Ticks n.link (waitLoop chSlot passes n).2.link := by
  induction passes generalizing n with
  | nil => exact Ticks.refl _
  | cons p passes ih =>
      have hrecv := recv_ticks p.recvNow p.arrival n.link
      have htake (n' : Node) (h : Ticks n.link n'.link) (msgs : List Bytes) :
          Ticks n.link (takeFrame msgs n').2.link := h.trans (takeFrame_ticks msgs n')
      rw [waitLoop]
      dsimp only
      split_ifs
      · exact hrecv
      · exact hrecv
      · exact ((htake _ hrecv _).trans (activeSlot_ticks ..)).trans (ih _)
      · exact (htake _ hrecv _).trans (activeSlot_ticks ..)
      · exact htake _ hrecv _

private theorem doFollowerRecv_ticks (slotNow : UInt32) (passes : List WaitPass) (n : Node) :
    Ticks n.link (doFollowerRecv slotNow passes n).2.link := by
  rw [doFollowerRecv]
  dsimp only
  split_ifs
  · exact Ticks.refl _
  · exact activeSlot_ticks ..
  · exact (activeSlot_ticks slotNow n).trans (Ticks.before (waitLoop_ticks ..) rfl rfl)

private theorem doClusterheadSend_ticks (inp : SendInput) (n : Node) :
    Ticks n.link (doClusterheadSend inp n).2.1.link := by
  rw [doClusterheadSend]
  dsimp only
  split_ifs
  · exact activeSlot_ticks ..
  · have hqueue (n : Node) : Ticks n.link (queueChMessages inp n).link :=
      extends_ticks (Extends.queueChMessages (P := fun _ => True) inp (fun _ _ _ _ _ => trivial)
        fun _ _ => trivial)
    refine (activeSlot_ticks inp.slotNow n).trans (Ticks.trans ?_ (flushNode_ticks ..))
    exact Ticks.before (hqueue (setCdmaCode 0 (activeSlot inp.slotNow n).2)) rfl rfl

private theorem takeDatagrams_ticks (relative : UInt8) (msgs : List Bytes) (n : Node) :
    Ticks n.link (msgs.foldl (takeDatagram relative) n).link := by
  induction msgs generalizing n with
  | nil => exact Ticks.refl _
  | cons b msgs ih =>
      refine Ticks.trans ?_ (ih _)
      rw [takeDatagram]
      split
      · exact sendmsg_ticks ..
      · exact Ticks.refl _

private theorem doClusterheadRecv_ticks (inp : RecvInput) (n : Node) :
    Ticks n.link (doClusterheadRecv inp n).2.link := by
  rw [doClusterheadRecv]
  dsimp only
  cases listensTo (activeSlot inp.slotNow n).1 (activeSlot inp.slotNow n).2 with
  | none => exact activeSlot_ticks ..
  | some relative =>
      have hrecv : Ticks n.link (Queue.recv inp.recvNow inp.arrival
          (setCdmaCode relative (activeSlot inp.slotNow n).2).link).2 :=
        (activeSlot_ticks inp.slotNow n).trans (Ticks.before (recv_ticks ..) rfl rfl)
      dsimp only
      split_ifs
      · exact hrecv
      · exact hrecv
      · exact hrecv.trans (Ticks.before (takeDatagrams_ticks ..) rfl rfl)

end Slots

section Advertise

private theorem afterRecv_ticks (inp : Input) (n : Node) :
    Ticks n.link (Discovery.afterRecv inp n).link := by
  have hrecv : Ticks n.link (Discovery.recv (inp.now 0) inp.arrival n).2.link := recv_ticks ..
  rw [Discovery.afterRecv]
  dsimp only
  split_ifs
  · exact hrecv.trans (Ticks.of_eq rfl rfl)
  · exact hrecv

private theorem announceHeartbeat_ticks (stamp now : UInt32) (sent : Bool) (n : Node) :
    Ticks n.link (Discovery.announceHeartbeat stamp now sent n).1.link := by
  rw [Discovery.announceHeartbeat]
  dsimp only
  split_ifs
  · exact (sendHeartbeat_ticks stamp n).trans (flushNode_ticks ..)
  · exact sendHeartbeat_ticks stamp n

private theorem discoveryPass_ticks (inp : Input) (l : Discovery.DiscoveryLocals) (n : Node) :
    Ticks n.link (Discovery.discoveryPass inp l n).2.1.link := by
  have hafter := afterRecv_ticks inp n
  rcases Discovery.discoveryPass_cases inp l n with heq | heq
  · rw [heq]
    apply Ticks.trans _ (announceHeartbeat_ticks ..)
    exact hafter
  · rw [heq]
    exact hafter

private theorem announcementPass_ticks (inp : Input) (l : AnnounceLocals) (n : Node) :
    Ticks n.link (announcementPass inp l n).2.1.link := by
  have hannounce (n : Node) : Ticks n.link (announceCluster inp l n).2.1.link := by
    rw [announceCluster]
    dsimp only
    split_ifs
    · exact (openCluster_ticks ..).trans (flushNode_ticks ..)
    · exact openCluster_ticks ..
    · exact Ticks.refl _
  have hrecv : Ticks n.link (Discovery.recv (inp.now 0) inp.arrival n).2.link := recv_ticks ..
  have hdrained (n : Node) : Ticks n.link (Discovery.drained n).link := Ticks.of_eq rfl rfl
  rw [announcementPass_eq]
  exact (hrecv.trans (hannounce _)).trans (hdrained _)

private theorem joinHead_ticks (inp : Input) (l : JoinLocals) (n : Node) :
    Ticks n.link (joinHead inp l n).2.1.link := by
  rw [joinHead]
  dsimp only
  split_ifs
  · exact (follow_ticks ..).trans (flushNode_ticks ..)
  · exact Ticks.refl _
  · exact Ticks.refl _

private theorem startRound_ticks (inp : Input) (round : Nat) (earlier : Bool) (n : Node) :
    Ticks n.link (startRound inp round earlier n).node.link := by
  rw [startRound, startAnnouncement]
  dsimp only
  split_ifs <;> exact Ticks.of_eq rfl rfl

theorem answerFollow_ticks (inp : Input) (isClusterhead : Bool) (m : Message) (n : Node) :
    Ticks n.link (answerFollow inp isClusterhead m n).1.link := by
  rcases answerFollow_cases inp isClusterhead m n with heq | ⟨follower, -, -, heq⟩
  · rw [heq]
    exact Ticks.refl _
  · rw [heq]
    exact (accept_ticks ..).trans (flushNode_ticks ..)

private theorem joinMessage_ticks (inp : Input) (round : Nat) (isClusterhead : Bool)
    (l : JoinLocals)
    (n : Node) : Ticks n.link (joinMessage inp round isClusterhead l n).1.node.link := by
  have hjoin (m : Message) (n : Node) (durationMs : UInt32) :
      Ticks n.link (join inp l m n durationMs).2.2.link := by
    rw [join_link]
    exact Ticks.refl _
  have hmsg := getmsg_ticks n.link
  rw [joinMessage]
  dsimp only
  cases (Queue.getmsg n.link).1.bind decodeMsg with
  | none => exact hmsg
  | some r =>
      have hfirst :=
        answerFollow_ticks inp isClusterhead r.1 { n with link := (Queue.getmsg n.link).2 }
      exact (hmsg.trans hfirst).trans (hjoin r.1 _ _)

/-- Every step of `do_advertise` leaves the window as it is or refreshes it. -/
theorem step_ticks (inp : Input) (p : Proc) : Ticks p.node.link (step inp p).1.node.link := by
  obtain ⟨control, n⟩ := p
  cases control with
  | idle =>
      rw [step]
      dsimp only
      split_ifs
      · exact activeSlot_ticks ..
      · exact (activeSlot_ticks (inp.now 0) n).trans (Ticks.of_eq rfl rfl)
  | discovery l =>
      rw [step]
      dsimp only
      split_ifs
      · exact startRound_ticks ..
      · exact discoveryPass_ticks inp l n
  | announcement round earlier l =>
      rw [step]
      dsimp only
      split_ifs
      · exact Ticks.refl _
      · exact announcementPass_ticks inp l n
  | joining stage round isClusterhead l =>
      cases stage with
      | head =>
          rw [step]
          dsimp only
          split_ifs
          · exact startRound_ticks ..
          · exact Ticks.of_eq rfl rfl
          · exact joinHead_ticks inp l n
      | recv => exact recv_ticks ..
      | drain => exact joinMessage_ticks inp round isClusterhead l n
  | done => exact Ticks.refl _

private theorem run_ticks (inps : List Input) (p : Proc) :
    Ticks p.node.link (Advertise.run inps p).node.link := by
  induction inps generalizing p with
  | nil => exact Ticks.refl _
  | cons inp inps ih => exact (step_ticks inp p).trans (ih _)

end Advertise

private theorem exec_ticks (op : Op) (n : Node) : Ticks n.link (op.exec n).link := by
  cases op with
  | setClusterheadProbability p => exact Ticks.refl _
  | epochAndOffset slot now => exact epochAndOffsetNode_ticks ..
  | advertisementSlot now => exact epochAndOffsetNode_ticks ..
  | clusterheadSlot now =>
      rw [Op.exec, Api.clusterheadSlot]
      split_ifs
      · exact Ticks.refl _
      · exact epochAndOffsetNode_ticks ..
  | mySlotTime now =>
      rw [Op.exec, Api.mySlotTime]
      split_ifs
      · exact Ticks.refl _
      · exact epochAndOffsetNode_ticks ..
  | openCluster stamp => exact openCluster_ticks ..
  | follow clusterhead stamp => exact follow_ticks ..
  | accept follower remote stamp => exact accept_ticks ..
  | closeCluster renominate stamp =>
      exact extends_ticks (Extends.closeCluster (P := fun _ => True) renominate stamp trivial)
  | sendAcks ackStart ackEnd stamp =>
      exact extends_ticks (Extends.sendAcks (P := fun _ => True) ackStart ackEnd stamp
        fun _ _ => trivial)
  | sendHeartbeat stamp => exact sendHeartbeat_ticks ..
  | sendDatagram stamp iter => exact sendDatagram_ticks ..
  | doAdvertise inps => exact run_ticks inps ⟨.idle, n⟩
  | doFollowerSend slotNow flushNow sent => exact doFollowerSend_ticks ..
  | doFollowerRecv slotNow passes => exact doFollowerRecv_ticks ..
  | doClusterheadSend inp => exact doClusterheadSend_ticks ..
  | doClusterheadRecv inp => exact doClusterheadRecv_ticks ..
  | flush now sent => exact flushNode_ticks ..

theorem runOps_ticks (ops : List Op) (n : Node) : Ticks n.link (Api.runOps ops n).link := by
  induction ops generalizing n with
  | nil => exact Ticks.refl _
  | cons op ops ih => exact (exec_ticks op n).trans (ih _)

end LoraMultihop.Multihop.Clock
