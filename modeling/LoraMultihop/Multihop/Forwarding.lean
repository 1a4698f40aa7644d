/- digest: Which of the datagrams a clusterhead acknowledges it has queued. -/

import LoraMultihop.Multihop.Relay

set_option autoImplicit false
set_option relaxedAutoImplicit false

namespace LoraMultihop.Multihop.Forwarding

open LoraMultihop.Foundation.ByteMemory (Bytes)
open LoraMultihop.Net.Params
open LoraMultihop.Link
open LoraMultihop.Multihop.Messages
open LoraMultihop.Multihop.State
open LoraMultihop.Multihop.Sending
open LoraMultihop.Multihop.Slots
open LoraMultihop.Multihop.Relay

def taken (relative : UInt8) : List Bytes → Node → List (Node × Bytes)
  | [], _ => []
  | b :: msgs, n => (n, b) :: taken relative msgs (takeDatagram relative n b)

def heard (relative : UInt8) (inp : RecvInput) (n : Node) : List (Node × Bytes) :=
  let n := setCdmaCode relative (activeSlot inp.slotNow n).2
  let (rc, link) := Queue.recv inp.recvNow inp.arrival n.link
  if rc ≠ .ok then []
  else taken relative link.rx { n with link := { link with rx := [] } }

/-- The node records the sequence number of the message for slot `relative`. -/
def Records (relative : UInt8) (n : Node) (b : Bytes) : Prop :=
  ∃ m tail, decodeMsg b = some (m, tail) ∧ m.body.type = .datagram ∧
    (takeDatagram relative n b).state.acks relative.toNat = m.sequence

/-- Every datagram whose sequence number is recorded has been appended to the queue. -/
def AcksOnlyQueued (inp : RecvInput) (n : Node) : Prop :=
  ∀ relative, listensTo (activeSlot inp.slotNow n).1 n = some relative →
    ∀ t ∈ heard relative inp n, Records relative t.1 t.2 →
      (takeDatagram relative t.1 t.2).link.tx = t.1.link.tx ++ [t.2]

/-- The room that the datagrams among the messages take in the queue. -/
def datagramRoom (msgs : List Bytes) : Nat :=
  ((msgs.filter isDatagram).map fun b => b.length + 1).sum

/-- All the datagrams among the messages fit into the queue together. -/
def DatagramsFit (msgs : List Bytes) (n : Node) : Prop :=
  datagramRoom msgs ≤ Queue.txBytesAvailable n.link ∧
    ∀ b ∈ msgs, isDatagram b = true → b.length ≤ n.link.msgMaxBytes

def frameOf : Queue.Arrival → List Bytes
  | .accepted msgs => msgs
  | _ => []

/-- A call that listens to a slot and receives a frame finds room for all its datagrams. -/
def FrameFits (inp : RecvInput) (n : Node) : Prop :=
  ∀ relative, listensTo (activeSlot inp.slotNow n).1 n = some relative →
    (Queue.recv inp.recvNow inp.arrival
      (setCdmaCode relative (activeSlot inp.slotNow n).2).link).1 = .ok →
      DatagramsFit (frameOf inp.arrival) n

private theorem takeDatagram_other {relative : UInt8} {n : Node} {b : Bytes}
    (h : isDatagram b = false) : takeDatagram relative n b = n := by
  rw [takeDatagram]
  split
  · next hdecode =>
    rw [isDatagram, hdecode] at h
    exact absurd h (by simp)
  · rfl

private theorem Records.isDatagram {relative : UInt8} {n : Node} {b : Bytes}
    (h : Records relative n b) : Relay.isDatagram b = true := by
  obtain ⟨⟨sequence, src, body⟩, tail, hdecode, htype, -⟩ := h
  cases body with
  | datagram packetBytes count part => rw [Relay.isDatagram, hdecode]
  | _ => exact absurd htype (by simp [Body.type])

private theorem datagramRoom_cons {b : Bytes} (msgs : List Bytes) (h : isDatagram b = true) :
    datagramRoom (b :: msgs) = b.length + 1 + datagramRoom msgs := by
  rw [datagramRoom, List.filter_cons_of_pos h, List.map_cons, List.sum_cons, datagramRoom]

private theorem takeDatagram_datagram {relative : UInt8} {n : Node} {b : Bytes}
    (h : isDatagram b = true) (hlen : b.length ≤ 255) :
    Records relative n b ∧
      (Room b.length n ∧ (takeDatagram relative n b).link = (n.push b).link ∨
        ¬ Room b.length n ∧ (takeDatagram relative n b).link = n.link) := by
  have hwhole : b.take (UInt8.ofNat b.length).toNat = b := by
    rw [UInt8.toNat_ofNat_of_lt' (by simp only [UInt8.size]; omega), List.take_length]
  have htake : ∃ sequence src packetBytes count part tail,
      decodeMsg b = some (⟨sequence, src, .datagram packetBytes count part⟩, tail) := by
    rw [isDatagram] at h
    split at h
    · next hdecode => exact ⟨_, _, _, _, _, _, hdecode⟩
    · exact absurd h (by simp)
  obtain ⟨sequence, src, packetBytes, count, part, tail, hdecode⟩ := htake
  refine ⟨⟨_, _, hdecode, rfl, ?_⟩, ?_⟩
  · rw [takeDatagram, hdecode]
    exact if_pos rfl
  · rw [takeDatagram, hdecode]
    dsimp only
    rw [hwhole, Room, Queue.sendmsg]
    split_ifs with hi ha hm
    · exact Or.inr ⟨by simp [hi], rfl⟩
    · exact Or.inr ⟨by omega, rfl⟩
    · exact Or.inr ⟨by omega, rfl⟩
    · exact Or.inl ⟨⟨by simpa using hi, by omega, by omega⟩, rfl⟩

private theorem taken_queued_iff (relative : UInt8) {msgs : List Bytes} {n : Node}
    (hlink : n.link.initialized = true) (hlen : ∀ b ∈ msgs, b.length ≤ 255) :
    (∀ t ∈ taken relative msgs n, Records relative t.1 t.2 →
        (takeDatagram relative t.1 t.2).link.tx = t.1.link.tx ++ [t.2]) ↔
      DatagramsFit msgs n := by
  induction msgs generalizing n with
  | nil => simp [taken, DatagramsFit, datagramRoom]
  | cons b msgs ih =>
      have hrest := fun c hc => hlen c (List.mem_cons_of_mem b hc)
      rw [taken, List.forall_mem_cons]
      cases hb : isDatagram b with
      | false =>
          have hrecords : ¬ Records relative n b := fun h => by
            rw [h.isDatagram] at hb
            exact absurd hb (by simp)
          rw [takeDatagram_other hb, ih hlink hrest, DatagramsFit, DatagramsFit, datagramRoom,
            datagramRoom, List.filter_cons_of_neg (by simp [hb])]
          simp [hrecords, hb]
      | true =>
          obtain ⟨hrecords, hroom⟩ := @takeDatagram_datagram relative n b hb
            (hlen b List.mem_cons_self)
          rw [DatagramsFit, datagramRoom_cons msgs hb, List.forall_mem_cons]
          rcases hroom with ⟨⟨-, havail, hmax⟩, hpush⟩ | ⟨hno, hsame⟩
          · rw [ih (by rw [hpush]; exact hlink) hrest, DatagramsFit, hpush]
            rw [push_available]
            constructor
            · rintro ⟨-, hfit, hall⟩
              exact ⟨by omega, fun _ => hmax, hall⟩
            · rintro ⟨hfit, -, hall⟩
              exact ⟨fun _ => rfl, by omega, hall⟩
          · constructor
            · rintro ⟨hqueued, -⟩
              have htx := hqueued hrecords
              rw [hsame] at htx
              exact absurd htx (by simp)
            · rintro ⟨hfit, hmax, -⟩
              exact absurd ⟨hlink, by omega, hmax hb⟩ hno

private theorem recv_ok {now : UInt32} {arrival : Queue.Arrival} {s : Queue.State}
    (h : (Queue.recv now arrival s).1 = .ok) :
    s.initialized = true ∧ ∃ w, (Queue.recv now arrival s).2 =
      { s with macState := w, rx := frameOf arrival } := by
  rcases Queue.recv_cases now arrival s with ⟨hno, -⟩ | hok
  · exact absurd h hno
  · exact hok

/-- A clusterhead acknowledges only what it has queued exactly when the frames it receives find room
for all their datagrams: the ack is written whether the link layer takes the datagram or not. -/
theorem acks_only_queued_iff {inp : RecvInput} (n : Node)
    (hlen : ∀ b ∈ frameOf inp.arrival, b.length ≤ 255) :
    AcksOnlyQueued inp n ↔ FrameFits inp n := by
  refine forall_congr' fun relative => forall_congr' fun _ => ?_
  rw [heard]
  dsimp only
  by_cases hrc : (Queue.recv inp.recvNow inp.arrival
      (setCdmaCode relative (activeSlot inp.slotNow n).2).link).1 = .ok
  · obtain ⟨hlink, w, hrecv⟩ := recv_ok hrc
    rw [if_neg (not_not.mpr hrc), hrecv]
    refine (taken_queued_iff relative ?_ hlen).trans ?_
    · exact hlink
    · constructor
      · intro h _
        exact h
      · intro h
        exact h hrc
  · rw [if_pos hrc]
    simp [hrc]

/-- The relay with one datagram to forward, and a frame of its follower with three more. -/
def busyRelay : Node :=
  { forwardingRelay with
    link :=
      { forwardingRelay.link with
        tx := [Message.toBytes ⟨90, 9, .datagram 100 1 0⟩ ++ List.replicate 100 42] } }

def datagramFrame (sequences : List UInt32) : RecvInput :=
  ⟨98, 98, .accepted (sequences.map fun sequence =>
    Message.toBytes ⟨sequence, 9, .datagram 50 1 0⟩ ++ List.replicate 50 42)⟩

theorem two_datagrams_are_queued : AcksOnlyQueued (datagramFrame [96, 97]) busyRelay := by
  apply (acks_only_queued_iff busyRelay (by decide +kernel)).mpr
  intro relative _ _
  exact ⟨by decide +kernel, by decide +kernel⟩

/-- Its ack is the one of the datagram that found no room. -/
theorem refused_datagram_is_acknowledged :
    (doClusterheadRecv (datagramFrame [96, 97, 98]) busyRelay).1 = .ok ∧
      (doClusterheadRecv (datagramFrame [96, 97, 98]) busyRelay).2.state.acks 1 = 98 ∧
      (doClusterheadRecv (datagramFrame [96, 97, 98]) busyRelay).2.link.tx.length = 3 ∧
      ¬ AcksOnlyQueued (datagramFrame [96, 97, 98]) busyRelay := by
  refine ⟨by decide +kernel, by decide +kernel, by decide +kernel, ?_⟩
  intro hqueued
  have hlistens : listensTo (activeSlot 98 busyRelay).1 busyRelay = some 1 := by decide +kernel
  have hrefused : ∃ t ∈ heard 1 (datagramFrame [96, 97, 98]) busyRelay,
      t.1.link.tx.length = 3 ∧ isDatagram t.2 = true ∧ t.2.length ≤ 255 ∧
        (takeDatagram 1 t.1 t.2).link.tx.length = 3 := by decide +kernel
  obtain ⟨t, ht, hbefore, hdatagram, hlen, hafter⟩ := hrefused
  have htx := hqueued 1 hlistens t ht (takeDatagram_datagram hdatagram hlen).1
  rw [htx, List.length_append, hbefore] at hafter
  simp at hafter

end LoraMultihop.Multihop.Forwarding
