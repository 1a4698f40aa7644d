/- digest: Where the datagrams a relay queues leave the radio, over a whole superframe. -/

import LoraMultihop.Multihop.Slots

set_option autoImplicit false
set_option relaxedAutoImplicit false

namespace LoraMultihop.Multihop.Relay

open LoraMultihop.Foundation.ByteMemory (Bytes)
open LoraMultihop.Net.Params
open LoraMultihop.Link
open LoraMultihop.Link.Mac
open LoraMultihop.Link.Layer (hashCdmaCode)
open LoraMultihop.Multihop.Messages
open LoraMultihop.Multihop.State
open LoraMultihop.Multihop.Sending
open LoraMultihop.Multihop.Slots

def isDatagram (b : Bytes) : Bool :=
  match decodeMsg b with
  | some (⟨_, _, .datagram _ _ _⟩, _) => true
  | _ => false

theorem isDatagram_toBytes {m : Message} (tail : Bytes) (h : m.body.type ≠ .datagram) :
    isDatagram (m.toBytes ++ tail) = false := by
  unfold isDatagram
  split
  · rename_i heq
    have hm := congrArg (fun r => r.1.body.type) (eq_of_decodeMsg heq)
    exact absurd hm.symm h
  · rfl

/-- `n'` is `n` with some messages other than datagrams added to its queue. -/
def Adds (n n' : Node) : Prop :=
  ∃ msgs : List Bytes, (∀ b ∈ msgs, isDatagram b = false) ∧ n'.state = n.state ∧
    n'.link = { n.link with tx := n.link.tx ++ msgs }

/-- The clock readings of the `epoch_and_offset` calls between two steps of the main loop. -/
def poll (readings : List UInt32) (n : Node) : Node :=
  readings.foldl (fun n now => (activeSlot now n).2) n

/-- The inputs of one superframe of a relay after its advertising slot. -/
structure Superframe where
  recvs : List (List UInt32 × RecvInput)
  sendPolls : List UInt32
  send : SendInput
  followPolls : List UInt32
  datagram : DatagramIterator
  stamp : UInt32
  slotNow : UInt32
  flushNow : UInt32
  sent : Bool

inductive Operation
  | clusterheadSend | followerSend
  deriving DecidableEq

/-- A frame on the air, the operation that flushed it and the slot that operation found. -/
structure Transmission where
  operation : Operation
  slot : Int
  frame : Queue.Frame
  deriving DecidableEq

def beforeSend (inp : Superframe) (n : Node) : Node :=
  poll inp.sendPolls (inp.recvs.foldl (fun n r => (doClusterheadRecv r.2 (poll r.1 n)).2) n)

def beforeFollow (inp : Superframe) (n : Node) : Node :=
  let n := (doClusterheadSend inp.send (beforeSend inp n)).2.1
  (sendDatagram inp.stamp inp.datagram (poll inp.followPolls n)).2.2

/-- The frames of the superframe, in the order of the main loop. -/
def transmissions (inp : Superframe) (n : Node) : List Transmission :=
  let n₁ := beforeSend inp n
  let n₂ := beforeFollow inp n
  ((doClusterheadSend inp.send n₁).2.2.map fun f =>
      ⟨.clusterheadSend, (activeSlot inp.send.slotNow n₁).1, f⟩) ++
    (doFollowerSend inp.slotNow inp.flushNow inp.sent n₂).2.2.map fun f =>
      ⟨.followerSend, (activeSlot inp.slotNow n₂).1, f⟩

/-- Datagrams leave only with `do_follower_send`, in the upstream slot and on the upstream code,
and `do_clusterhead_send` leaves the ones queued where they are. -/
def RelaysUpstream (inp : Superframe) (n : Node) : Prop :=
  (∀ t ∈ transmissions inp n, (∃ b ∈ t.frame.msgs, isDatagram b = true) →
    t.operation = .followerSend ∧ t.slot = (mySlot n.state).toNat ∧
      t.frame.code = hashCdmaCode n.state.upstreamRelativeSlot) ∧
  (doClusterheadSend inp.send (beforeSend inp n)).2.1.link.tx.filter isDatagram =
    (beforeSend inp n).link.tx.filter isDatagram

/-- When `do_clusterhead_send` gets a frame out: in its slot, inside the window, and with a radio
that sends. -/
def SendsAcks (inp : SendInput) (n : Node) : Prop :=
  (activeSlot inp.slotNow n).1 = (sendSlot n).toNat ∧
    GoesOut inp.flushNow inp.sent (activeSlot inp.slotNow n).2

/-- The parts of a node that the slots after the advertising slot do not change. -/
def upstream (n : Node) : UInt8 × UInt8 := (n.state.upstreamStartSlot, n.state.upstreamRelativeSlot)

theorem poll_state (readings : List UInt32) (n : Node) :
    (poll readings n).state = n.state ∧ (poll readings n).link.tx = n.link.tx := by
  induction readings generalizing n with
  | nil => exact ⟨rfl, rfl⟩
  | cons now readings ih => exact ih (activeSlot now n).2

private theorem takeDatagram_upstream (relative : UInt8) (msgs : List Bytes) (n : Node) :
    upstream (msgs.foldl (takeDatagram relative) n) = upstream n := by
  induction msgs generalizing n with
  | nil => rfl
  | cons b msgs ih =>
      rw [List.foldl_cons, ih, takeDatagram]
      split <;> rfl

private theorem doClusterheadRecv_upstream (inp : RecvInput) (n : Node) :
    upstream (doClusterheadRecv inp n).2 = upstream n := by
  unfold doClusterheadRecv
  dsimp only
  split
  · rfl
  · split_ifs
    · rfl
    · rfl
    · rw [takeDatagram_upstream]
      rfl

private theorem beforeSend_upstream (inp : Superframe) (n : Node) :
    upstream (beforeSend inp n) = upstream n := by
  rw [beforeSend, upstream, (poll_state _ _).1]
  change upstream _ = upstream n
  generalize inp.recvs = recvs
  induction recvs generalizing n with
  | nil => rfl
  | cons r recvs ih =>
      rw [List.foldl_cons, ih, doClusterheadRecv_upstream, upstream, (poll_state _ _).1]
      rfl

private theorem Adds.queueChMessages (inp : SendInput) (n : Node) :
    Adds n (Slots.queueChMessages inp n) := by
  apply Extends.queueChMessages inp
  · intro stamp start count _ _
    exact isDatagram_toBytes _ (by simp [Body.type])
  · intro stamp renominate
    have hclose := isDatagram_toBytes
      (m := ⟨stamp, n.state.address,
        .closeCluster (if renominate then n.state.address else UNKNOWN_ADDR) n.state.neighbors⟩)
      [] (by simp [Body.type])
    rwa [List.append_nil] at hclose

private theorem emitChMessages_cases {P : Bytes → Prop} {inp : SendInput} {n : Node}
    (h : Extends P (setCdmaCode 0 n) (Slots.queueChMessages inp (setCdmaCode 0 n))) :
    ∃ msgs : List Bytes, (∀ b ∈ msgs, P b) ∧
      (Slots.queueChMessages inp (setCdmaCode 0 n)).link.tx = n.link.tx ++ msgs ∧
      let r := emitChMessages inp n
      r.2.1.state = n.state ∧
        (GoesOut inp.flushNow inp.sent n ∧ r.1 = .ok ∧ r.2.1.link.tx = [] ∧
            r.2.2 = [⟨hashCdmaCode 0, n.link.tx ++ msgs⟩] ∨
          ¬ GoesOut inp.flushNow inp.sent n ∧ r.1 ≠ .ok ∧ r.2.1.link.tx = n.link.tx ++ msgs ∧
            r.2.2 = []) := by
  obtain ⟨msgs, hmsgs, hstate, hlink⟩ := h
  refine ⟨msgs, hmsgs, by rw [hlink]; rfl, ?_⟩
  dsimp only [emitChMessages]
  generalize Slots.queueChMessages inp (setCdmaCode 0 n) = n' at hstate hlink ⊢
  have hgoes : GoesOut inp.flushNow inp.sent n' ↔ GoesOut inp.flushNow inp.sent n := by
    rw [GoesOut, GoesOut, hstate, hlink]
    rfl
  by_cases hg : GoesOut inp.flushNow inp.sent n'
  · rw [flush_out hg, hlink]
    exact ⟨hstate, Or.inl ⟨hgoes.mp hg, rfl, rfl, rfl⟩⟩
  · obtain ⟨hrc, hframes, w, hkept⟩ := flush_kept hg
    rw [hkept, hframes, hlink]
    exact ⟨hstate, Or.inr ⟨fun h => hg (hgoes.mpr h), hrc, rfl, rfl⟩⟩

def beforeEmit (inp : SendInput) (n : Node) : Node := (activeSlot inp.slotNow n).2

/-- What `do_clusterhead_send` puts on the air and leaves in the queue. -/
theorem doClusterheadSend_cases {P : Bytes → Prop} {inp : SendInput} {n : Node}
    (h : Extends P (setCdmaCode 0 (beforeEmit inp n))
      (Slots.queueChMessages inp (setCdmaCode 0 (beforeEmit inp n)))) :
    let r := doClusterheadSend inp n
    r.2.1.state = n.state ∧ ∃ msgs : List Bytes, (∀ b ∈ msgs, P b) ∧
      (SendsAcks inp n ∧ r.1 = .ok ∧ r.2.1.link.tx = [] ∧
          r.2.2 = [⟨hashCdmaCode 0, n.link.tx ++ msgs⟩] ∧
          (Slots.queueChMessages inp (setCdmaCode 0 (beforeEmit inp n))).link.tx =
            n.link.tx ++ msgs ∨
        ¬ SendsAcks inp n ∧ r.1 ≠ .ok ∧ r.2.1.link.tx = n.link.tx ++ msgs ∧ r.2.2 = []) := by
  intro r
  unfold r
  rw [doClusterheadSend]
  dsimp only
  have hsend : sendSlot (activeSlot inp.slotNow n).2 = sendSlot n := rfl
  split_ifs with hslot
  · exact ⟨rfl, [], by simp,
      Or.inr ⟨fun h => hslot h.1, by simp, by simp [activeSlot, Queue.activeSlot], rfl⟩⟩
  · rw [hsend, not_not] at hslot
    obtain ⟨msgs, hmsgs, hqueued, hstate, hcase⟩ := emitChMessages_cases h
    refine ⟨hstate, msgs, hmsgs, ?_⟩
    rcases hcase with ⟨hg, hrc, htx, hframes⟩ | ⟨hno, hrc, htx, hframes⟩
    · exact Or.inl ⟨⟨hslot, hg⟩, hrc, htx, hframes, hqueued⟩
    · exact Or.inr ⟨fun h => hno h.2, hrc, htx, hframes⟩

theorem doClusterheadSend_adds (inp : SendInput) (n : Node) :
    let r := doClusterheadSend inp n
    r.2.1.state = n.state ∧ ∃ msgs : List Bytes, (∀ b ∈ msgs, isDatagram b = false) ∧
      (SendsAcks inp n ∧ r.2.1.link.tx = [] ∧ r.2.2 = [⟨hashCdmaCode 0, n.link.tx ++ msgs⟩] ∨
        ¬ SendsAcks inp n ∧ r.2.1.link.tx = n.link.tx ++ msgs ∧ r.2.2 = []) := by
  obtain ⟨hstate, msgs, hmsgs, hcase⟩ :=
    doClusterheadSend_cases (Adds.queueChMessages inp (setCdmaCode 0 (beforeEmit inp n)))
  refine ⟨hstate, msgs, hmsgs, ?_⟩
  rcases hcase with ⟨hsends, -, htx, hframes, -⟩ | ⟨hno, -, htx, hframes⟩
  · exact Or.inl ⟨hsends, htx, hframes⟩
  · exact Or.inr ⟨hno, htx, hframes⟩

private theorem filter_append_none {tx msgs : List Bytes} (h : ∀ b ∈ msgs, isDatagram b = false) :
    (tx ++ msgs).filter isDatagram = tx.filter isDatagram := by
  have hnone : msgs.filter isDatagram = [] := List.filter_eq_nil_iff.mpr (by simpa using h)
  rw [List.filter_append, hnone, List.append_nil]

private theorem sendDatagram_upstream (stamp : UInt32) (iter : DatagramIterator) (n : Node) :
    upstream (sendDatagram stamp iter n).2.2 = upstream n := by
  unfold sendDatagram
  split
  · rfl
  · split
    · rfl
    · dsimp only
      split_ifs
      · rfl
      · rcases send_cases _ _ n with ⟨-, -, hn⟩ | ⟨-, -, hn⟩
        · rw [hn]
          rfl
        · rw [hn]

private theorem beforeFollow_upstream (inp : Superframe) (n : Node) :
    upstream (beforeFollow inp n) = upstream n := by
  rw [beforeFollow, sendDatagram_upstream, upstream, (poll_state _ _).1,
    (doClusterheadSend_adds _ _).1]
  exact beforeSend_upstream inp n

private theorem follower_transmission {inp : Superframe} {n : Node} {t : Transmission}
    (ht : t ∈ (doFollowerSend inp.slotNow inp.flushNow inp.sent (beforeFollow inp n)).2.2.map
      fun f => (⟨.followerSend, (activeSlot inp.slotNow (beforeFollow inp n)).1, f⟩ :
        Transmission)) :
    t.operation = .followerSend ∧ t.slot = (mySlot n.state).toNat ∧
      t.frame.code = hashCdmaCode n.state.upstreamRelativeSlot := by
  obtain ⟨f, hf, rfl⟩ := List.mem_map.mp ht
  obtain ⟨hslot, hcode⟩ := doFollowerSend_frames hf
  have hup := beforeFollow_upstream inp n
  simp only [upstream, Prod.mk.injEq] at hup
  refine ⟨rfl, ?_, ?_⟩
  · rw [mySlot, hup.1, hup.2] at hslot
    exact hslot
  · rw [hup.2] at hcode
    exact hcode

/-- A relay keeps its datagrams for the upstream slot exactly when `do_clusterhead_send` gets no
frame out or finds no datagram in the queue. -/
theorem relaysUpstream_iff (inp : Superframe) (n : Node) :
    RelaysUpstream inp n ↔
      ¬ (SendsAcks inp.send (beforeSend inp n) ∧
        ∃ b ∈ (beforeSend inp n).link.tx, isDatagram b = true) := by
  obtain ⟨-, msgs, hmsgs, hcase⟩ := doClusterheadSend_adds inp.send (beforeSend inp n)
  constructor
  · rintro ⟨-, hkept⟩ ⟨hsends, b, hb, hd⟩
    rcases hcase with ⟨-, htx, -⟩ | ⟨hno, -, -⟩
    · have hmem := List.mem_filter.mpr ⟨hb, hd⟩
      rw [← hkept, htx] at hmem
      exact absurd hmem List.not_mem_nil
    · exact hno hsends
  · intro hcond
    rcases hcase with ⟨hsends, htx, hframes⟩ | ⟨-, htx, hframes⟩
    · have hnone : ∀ b ∈ (beforeSend inp n).link.tx, isDatagram b = false := fun b hb =>
        Bool.eq_false_iff.mpr fun hd => hcond ⟨hsends, b, hb, hd⟩
      constructor
      · intro t ht hdata
        cases List.mem_append.mp ht with
        | inl ht =>
            rw [hframes, List.map_singleton, List.mem_singleton] at ht
            subst ht
            obtain ⟨b, hb, hd⟩ := hdata
            cases List.mem_append.mp hb with
            | inl hb =>
                exact absurd hd (by simp [hnone b hb])
            | inr hb =>
                exact absurd hd (by simp [hmsgs b hb])
        | inr ht =>
            exact follower_transmission ht
      · rw [htx, List.filter_nil, List.filter_eq_nil_iff.mpr (by simpa using hnone)]
    · constructor
      · intro t ht _
        cases List.mem_append.mp ht with
        | inl ht =>
            rw [hframes, List.map_nil] at ht
            exact absurd ht List.not_mem_nil
        | inr ht =>
            exact follower_transmission ht
      · rw [htx, filter_append_none hmsgs]

/-- A ring 1 relay of the node program, attached to the gateway and with one follower. -/
def forwardingRelay : Node where
  state :=
    { MultihopState.new with
      address := 5
      ring := 1
      role := .clusterhead
      slotAssignments := fun i => if i = 1 then 9 else if i = 21 then 5 else 0
      slotCount := 22
      slotsAssigned := 2
      clusterheadRing := 0
      clusterheadAddr := 0
      upstreamStartSlot := 15
      upstreamRelativeSlot := 1
      upstreamAckSlot := 21
      downstreamStartSlot := 8 }
  link :=
    { initialized := true
      mac := setupMac
      macState := ⟨71, 137⟩
      msgMaxBytes := setupLink.msgMaxBytes
      txSz := setupLink.txSz
      code := 6
      tx := []
      rx := [] }

/-- One datagram of the follower in its slot 9, the acks in slot 14, nothing of the relay's own. -/
def forwardingRun : Superframe where
  recvs := [([98], ⟨98, 98, .accepted [(⟨98, 9, .datagram 1 1 0⟩ : Message).toBytes ++ [42]]⟩)]
  sendPolls := [113]
  send := ⟨113, fun _ => 113, 0, 113, 113, true⟩
  followPolls := [122]
  datagram := DatagramIterator.create [] 200
  stamp := 122
  slotNow := 122
  flushNow := 122
  sent := true

/-- The forwarded datagram goes out with the acks, on the code of slot 0. -/
theorem forwarded_datagram_leaves_with_acks : ¬ RelaysUpstream forwardingRun forwardingRelay := by
  rintro ⟨-, hkept⟩
  exact absurd hkept (by decide +kernel)

end LoraMultihop.Multihop.Relay
