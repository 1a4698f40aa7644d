/- digest: One node of the multihop layer and the functions that queue its messages. -/

import LoraMultihop.Link.Queue
import LoraMultihop.Multihop.State

set_option autoImplicit false
set_option relaxedAutoImplicit false

namespace LoraMultihop.Multihop.Sending

open LoraMultihop.Foundation.ByteMemory
open LoraMultihop.Net.Params
open LoraMultihop.Link
open LoraMultihop.Multihop.Messages
open LoraMultihop.Multihop.State

inductive RC
  | ok | notInit | noData | linkFull | linkError | closed | empty | notInWindow | notMyTurn
  | invalidSlot | noClusterhead | slotsFull | acksArrayLen
  deriving DecidableEq

/-- The static variables of the layer over those of the link layer. -/
structure Node where
  state : MultihopState
  link : Queue.State

/-- `MAC` points to the parameters of the caller of `init`, of which `link::init` has a copy: the
two are taken to be the same, as they are while the caller's stay as they were. -/
def Node.mac (n : Node) : MacParams := n.link.mac

def ADVERTISEMENT_SLOT : UInt8 := 0
def ADV_SLOTS : UInt8 := 1
def NUM_ADV_ROUNDS : Nat := 3
def MAX_TIME_SYNC_DRIFT_S : UInt32 := 60

/-- The division is on `int`. -/
def vtdmaWindowSize (mac : MacParams) : UInt8 :=
  UInt8.ofInt (((mac.superframeSlotCount.toNat : Int) - ADV_SLOTS.toNat).tdiv
    mac.reuseDistance.toNat)

def send (m : Message) (tail : Bytes) (n : Node) : RC × Node :=
  let (rc, link) := Queue.sendmsg (m.toBytes ++ tail) n.link
  (match rc with
    | .ok => .ok
    | .bufSize => .linkFull
    | _ => .linkError, { n with link := link })

def CREDIT_SCALE : UInt16 := 32

def basePForRing (ring : Ring) : UInt8 :=
  if UNKNOWN_RING = ring then 16
  else if GATEWAY_RING = ring then 255
  else if 4 ≤ ring then 64
  else 255 - (ring - 1) * 60

/-- The volunteer draw, on the value of `rand()`. -/
def announceClusterhead (rand : UInt32) (s : MultihopState) : Bool :=
  if s.clusterheadP = 0 then false
  else
    let effectiveP : UInt16 := (basePForRing s.ring).toUInt16 + s.chCredit.toUInt16 * CREDIT_SCALE
    let effectiveP : UInt16 := if 255 < effectiveP then 255 else effectiveP
    decide (rand.toUInt8 ≤ effectiveP.toUInt8)

def randDelayMs (rand low high : UInt32) : UInt32 := rand % (high - low + 1) + low

def prepareClusterhead (n : Node) : Node :=
  let s := n.state
  let stop : UInt8 := UInt8.ofNat s.slotCount - 1
  let vtdmaWindow := vtdmaWindowSize n.mac
  let invertedIndex : UInt8 := n.mac.reuseDistance - 1 - s.ring % n.mac.reuseDistance
  { n with
    state :=
      { s with
        acks := fun i => if i < s.slotCount then 0 else s.acks i
        slotAssignments := fun i =>
          if i = stop.toNat then s.address
          else if i < s.slotCount then 0 else s.slotAssignments i
        slotsAssigned := 1
        downstreamStartSlot := ADV_SLOTS + invertedIndex * vtdmaWindow } }

def openCluster (stamp : UInt32) (n : Node) : RC × Node :=
  if n.state.initialized = false then (.notInit, n)
  else
    send ⟨stamp, n.state.address, .openCluster n.state.ring n.state.address n.state.neighbors⟩ [] n

def follow (clusterhead : Address) (stamp : UInt32) (n : Node) : RC × Node :=
  if n.state.initialized = false then (.notInit, n)
  else send ⟨stamp, n.state.address, .follow clusterhead n.state.address⟩ [] n

/-- The slot already held by `follower`, if there is one below `slots_assigned`. -/
def assignedSlot (follower : Address) (s : MultihopState) : Option Nat :=
  (List.range s.slotsAssigned.toNat).find? fun i => decide (s.slotAssignments i = follower)

/-- `remote` and `stamp` are the two clock readings of the call. -/
def accept (follower : Address) (remote stamp : UInt32) (n : Node) : RC × Node :=
  if n.state.initialized = false then (.notInit, n)
  else
    let s := n.state
    match assignedSlot follower s with
    | some i =>
        send ⟨stamp, s.address,
          .accept 1 follower s.downstreamStartSlot (UInt8.ofNat i) remote⟩ [] n
    | none =>
        if vtdmaWindowSize n.mac ≤ s.slotsAssigned then
          (.slotsFull, (send ⟨stamp, s.address, .accept 0 follower 0 0 remote⟩ [] n).2)
        else
          let relativeSlot := s.slotsAssigned
          let n :=
            { n with
              state :=
                { s with
                  slotAssignments := fun i =>
                    if i = relativeSlot.toNat then follower else s.slotAssignments i
                  slotsAssigned := relativeSlot + 1 } }
          send ⟨stamp, s.address,
            .accept 1 follower s.downstreamStartSlot relativeSlot remote⟩ [] n

def closeCluster (renominate : Bool) (stamp : UInt32) (n : Node) : RC × Node :=
  if n.state.initialized = false then (.notInit, n)
  else
    send ⟨stamp, n.state.address,
      .closeCluster (if renominate then n.state.address else UNKNOWN_ADDR) n.state.neighbors⟩ [] n

def sendHeartbeat (stamp : UInt32) (n : Node) : RC × Node :=
  if n.state.initialized = false then (.notInit, n)
  else send ⟨stamp, n.state.address, .heartbeat n.state.ring⟩ [] n

def ACK_SZ : Nat := 4

def ackBytes (acks : Nat → UInt32) (start count : Nat) : Bytes :=
  (List.range count).flatMap fun i => leBytes ACK_SZ (acks (start + i)).toNat

/-- The second component is `*ack_end` after the call. -/
def sendAcks (ackStart ackEnd : UInt8) (stamp : UInt32) (n : Node) : RC × UInt8 × Node :=
  if n.state.initialized = false then (.notInit, ackEnd, n)
  else
    let avail := Queue.txBytesAvailable n.link
    let msgSz := HEADER_SZ + SEND_ACKS_SZ
    if avail ≤ msgSz then (.linkFull, ackStart, n)
    else
      let numAcks := min ((avail - msgSz) / ACK_SZ) (255 - ackStart.toNat)
      let numAcks :=
        if n.state.slotCount < ackStart.toNat + numAcks then n.state.slotCount - ackStart.toNat
        else numAcks
      let ackEnd := UInt8.ofNat (ackStart.toNat + numAcks)
      let (rc, n) :=
        send ⟨stamp, n.state.address, .sendAcks ackStart ackEnd⟩
          (ackBytes n.state.acks ackStart.toNat numAcks) n
      (rc, ackEnd, n)

/-- The number of acks `sendAcks` takes from `ackStart` on, once there is room for its header. -/
def ackCount (ackStart : UInt8) (n : Node) : Nat :=
  let avail := Queue.txBytesAvailable n.link
  let numAcks := min ((avail - (HEADER_SZ + SEND_ACKS_SZ)) / ACK_SZ) (255 - ackStart.toNat)
  if n.state.slotCount < ackStart.toNat + numAcks then n.state.slotCount - ackStart.toNat
  else numAcks

theorem sendAcks_eq (ackStart ackEnd : UInt8) (stamp : UInt32) {n : Node}
    (hi : n.state.initialized = true)
    (havail : HEADER_SZ + SEND_ACKS_SZ < Queue.txBytesAvailable n.link) :
    let stop := UInt8.ofNat (ackStart.toNat + ackCount ackStart n)
    let r := send ⟨stamp, n.state.address, .sendAcks ackStart stop⟩
      (ackBytes n.state.acks ackStart.toNat (ackCount ackStart n)) n
    sendAcks ackStart ackEnd stamp n = (r.1, stop, r.2) := by
  intro stop r
  rw [sendAcks, if_neg (by simp [hi])]
  exact if_neg (Nat.not_le.mpr havail)

theorem ackCount_le (ackStart : UInt8) (n : Node) : ackStart.toNat + ackCount ackStart n ≤ 255 := by
  have hlt := ackStart.toNat_lt
  unfold ackCount
  dsimp only
  split_ifs <;> omega

/-- The acks sent lie inside the array. -/
theorem ackCount_slotCount {ackStart : UInt8} {n : Node} (h : 0 < ackCount ackStart n) :
    ackStart.toNat + ackCount ackStart n ≤ n.state.slotCount := by
  unfold ackCount at h ⊢
  dsimp only at h ⊢
  split_ifs at h ⊢ <;> omega

@[simp] theorem ackBytes_length (acks : Nat → UInt32) (start count : Nat) :
    (ackBytes acks start count).length = count * ACK_SZ := by
  rw [ackBytes, List.length_flatMap]
  simp [ACK_SZ]

/-- The end of a range of acks does not wrap. -/
theorem ackEnd_toNat {start : UInt8} {count : Nat} (h : start.toNat + count ≤ 255) :
    (UInt8.ofNat (start.toNat + count)).toNat = start.toNat + count := by
  apply UInt8.toNat_ofNat_of_lt'
  simp only [UInt8.size]
  omega

/-- The bytes of at least one ack are the ones their range announces. -/
theorem acks_fit (acks : Nat → UInt32) {start : UInt8} {count : Nat} (hpos : 0 < count)
    (hcount : start.toNat + count ≤ 255) :
    Body.Fits (.sendAcks start (UInt8.ofNat (start.toNat + count)))
      (ackBytes acks start.toNat count) := by
  have hstop := ackEnd_toNat hcount
  have hlt : start < UInt8.ofNat (start.toNat + count) := by
    rw [UInt8.lt_iff_toNat_lt, hstop]
    omega
  refine ⟨hlt, ?_⟩
  rw [ackBytes_length, UInt8.toNat_sub_of_le _ _ (UInt8.le_of_lt hlt), hstop,
    Nat.add_sub_cancel_left]
  rfl

def sendDatagram (stamp : UInt32) (iter : DatagramIterator) (n : Node) :
    RC × DatagramIterator × Node :=
  if n.state.initialized = false then (.notInit, iter, n)
  else
    match iter.next with
    | none => (.noData, iter, n)
    | some (datagram, fragment, iter) =>
        if Queue.txBytesAvailable n.link < iter.lastMsgSz.toNat then (.linkFull, iter.rewind, n)
        else
          let (rc, n) := send ⟨stamp, n.state.address, datagram⟩ fragment n
          (rc, iter, n)

def flush (now : UInt32) (sent : Bool) (n : Node) : RC × Node × List Queue.Frame :=
  if n.state.initialized = false then (.notInit, n, [])
  else
    let (rc, link, frames) := Queue.flush now sent n.link
    (match rc with
      | .ok => .ok
      | .notInWindow => .notInWindow
      | _ => .linkError, { n with link := link }, frames)

def Node.push (b : Bytes) (n : Node) : Node :=
  { n with link := { n.link with tx := n.link.tx ++ [b] } }

@[simp] theorem push_state (b : Bytes) (n : Node) : (n.push b).state = n.state := rfl

@[simp] theorem push_tx (b : Bytes) (n : Node) : (n.push b).link.tx = n.link.tx ++ [b] := rfl

@[simp] theorem push_rx (b : Bytes) (n : Node) : (n.push b).link.rx = n.link.rx := rfl

@[simp] theorem push_mac (b : Bytes) (n : Node) : (n.push b).mac = n.mac := rfl

theorem push_available (b : Bytes) (n : Node) :
    Queue.txBytesAvailable (n.push b).link = Queue.txBytesAvailable n.link - (b.length + 1) :=
  Queue.txBytesAvailable_append b n.link

/-- The link layer takes `len` more bytes as one message. -/
def Room (len : Nat) (n : Node) : Prop :=
  n.link.initialized = true ∧ len + 1 ≤ Queue.txBytesAvailable n.link ∧ len ≤ n.link.msgMaxBytes

/-- A message is queued whole or not at all. -/
theorem send_cases (m : Message) (tail : Bytes) (n : Node) :
    (send m tail n).1 = .ok ∧ Room (m.toBytes ++ tail).length n ∧
        (send m tail n).2 = n.push (m.toBytes ++ tail) ∨
      (send m tail n).1 ≠ .ok ∧ ¬ Room (m.toBytes ++ tail).length n ∧ (send m tail n).2 = n := by
  unfold Room
  rw [send, Queue.sendmsg]
  split_ifs with hi ha hm
  · exact Or.inr ⟨by simp, by simp [hi], rfl⟩
  · exact Or.inr ⟨by simp, by omega, rfl⟩
  · exact Or.inr ⟨by simp, by omega, rfl⟩
  · exact Or.inl ⟨rfl, ⟨by simpa using hi, by omega, by omega⟩, rfl⟩

/-- When a frame goes out in a `flush` at `now`. -/
def GoesOut (now : UInt32) (sent : Bool) (n : Node) : Prop :=
  n.state.initialized = true ∧ Queue.GoesOut now sent n.link

theorem goesOut_push {now : UInt32} {sent : Bool} {b : Bytes} {n : Node} :
    GoesOut now sent (n.push b) ↔ GoesOut now sent n :=
  Iff.rfl

theorem flush_out {now : UInt32} {sent : Bool} {n : Node} (h : GoesOut now sent n) :
    flush now sent n =
      (.ok, { n with link := { Queue.refreshed now n.link with tx := [] } },
        [⟨n.link.code, n.link.tx⟩]) := by
  rw [flush, if_neg (by simp [h.1]), Queue.flush_out h.2]

theorem flush_kept {now : UInt32} {sent : Bool} {n : Node} (h : ¬ GoesOut now sent n) :
    (flush now sent n).1 ≠ .ok ∧ (flush now sent n).2.2 = [] ∧
      ∃ w, (flush now sent n).2.1 = { n with link := { n.link with macState := w } } := by
  rw [flush]
  split_ifs with hi
  · exact ⟨by simp, rfl, n.link.macState, rfl⟩
  · obtain ⟨hrc, hframes, w, hw⟩ :=
      Queue.flush_kept (fun hg => h ⟨by simpa using hi, hg⟩)
    refine ⟨?_, hframes, w, by dsimp only; rw [hw]⟩
    dsimp only
    split
    · rename_i hok
      exact absurd hok hrc
    · simp
    · simp

theorem assignedSlot_some {follower : Address} {s : MultihopState} {i : Nat}
    (h : assignedSlot follower s = some i) :
    i < s.slotsAssigned.toNat ∧ s.slotAssignments i = follower := by
  have hmem := List.mem_of_find?_eq_some h
  have hp := List.find?_some h
  exact ⟨List.mem_range.mp hmem, by simpa using hp⟩

theorem assignedSlot_none {follower : Address} {s : MultihopState}
    (h : assignedSlot follower s = none) {i : Nat} (hi : i < s.slotsAssigned.toNat) :
    s.slotAssignments i ≠ follower := by
  have hnone := List.find?_eq_none.mp h i (List.mem_range.mpr hi)
  simpa using hnone

/-- The slot `accept` grants: the one the follower holds, else the next one in the window. -/
def slotFor (follower : Address) (n : Node) : Option UInt8 :=
  match assignedSlot follower n.state with
  | some i => some (UInt8.ofNat i)
  | none =>
      if vtdmaWindowSize n.mac ≤ n.state.slotsAssigned then none else some n.state.slotsAssigned

/-- The table after `accept`, before its message is queued. -/
def assign (follower : Address) (n : Node) : Node :=
  if assignedSlot follower n.state = none ∧ n.state.slotsAssigned < vtdmaWindowSize n.mac then
    { n with
      state :=
        { n.state with
          slotAssignments := fun i =>
            if i = n.state.slotsAssigned.toNat then follower else n.state.slotAssignments i
          slotsAssigned := n.state.slotsAssigned + 1 } }
  else n

def acceptMessage (follower : Address) (remote stamp : UInt32) (n : Node) : Message :=
  match slotFor follower n with
  | some rel =>
      ⟨stamp, n.state.address, .accept 1 follower n.state.downstreamStartSlot rel remote⟩
  | none => ⟨stamp, n.state.address, .accept 0 follower 0 0 remote⟩

theorem accept_snd {follower : Address} {n : Node} (remote stamp : UInt32)
    (hi : n.state.initialized = true) :
    (accept follower remote stamp n).2 =
      (send (acceptMessage follower remote stamp n) [] (assign follower n)).2 := by
  rw [accept, if_neg (by simp [hi]), acceptMessage, slotFor, assign]
  dsimp only
  cases ha : assignedSlot follower n.state with
  | some i =>
      have hno : ¬((some i : Option Nat) = none ∧
          n.state.slotsAssigned < vtdmaWindowSize n.mac) := fun h => by simp at h
      rw [if_neg hno]
  | none =>
      dsimp only
      by_cases hw : vtdmaWindowSize n.mac ≤ n.state.slotsAssigned
      · rw [if_pos hw, if_pos hw, if_neg (fun h => UInt8.not_le.mpr h.2 hw)]
      · rw [if_neg hw, if_neg hw, if_pos ⟨rfl, UInt8.not_le.mp hw⟩]

theorem accept_cases (follower : Address) (remote stamp : UInt32) {n : Node}
    (hi : n.state.initialized = true) :
    (accept follower remote stamp n).2 =
        (assign follower n).push (acceptMessage follower remote stamp n).toBytes ∧ Room 14 n ∨
      (accept follower remote stamp n).2 = assign follower n ∧ ¬ Room 14 n := by
  have hlen : ((acceptMessage follower remote stamp n).toBytes ++ []).length = 14 := by
    rw [acceptMessage]
    split <;> rfl
  have hroom : Room 14 (assign follower n) ↔ Room 14 n := by
    rw [assign]
    split <;> rfl
  rw [accept_snd remote stamp hi]
  have hcases := send_cases (acceptMessage follower remote stamp n) [] (assign follower n)
  rw [hlen, hroom, List.append_nil] at hcases
  rcases hcases with ⟨-, hr, hn⟩ | ⟨-, hr, hn⟩
  · exact Or.inl ⟨hn, hr⟩
  · exact Or.inr ⟨hn, hr⟩

@[simp] theorem send_state (m : Message) (tail : Bytes) (n : Node) :
    (send m tail n).2.state = n.state := rfl

@[simp] theorem send_rx (m : Message) (tail : Bytes) (n : Node) :
    (send m tail n).2.link.rx = n.link.rx := by
  rcases send_cases m tail n with ⟨-, -, hn⟩ | ⟨-, -, hn⟩ <;> simp [hn]

@[simp] theorem send_mac (m : Message) (tail : Bytes) (n : Node) :
    (send m tail n).2.mac = n.mac := by
  rcases send_cases m tail n with ⟨-, -, hn⟩ | ⟨-, -, hn⟩ <;> simp [hn]

@[simp] theorem flush_state (now : UInt32) (sent : Bool) (n : Node) :
    (flush now sent n).2.1.state = n.state := by
  rw [flush]
  split <;> rfl

@[simp] theorem flush_rx (now : UInt32) (sent : Bool) (n : Node) :
    (flush now sent n).2.1.link.rx = n.link.rx := by
  by_cases h : GoesOut now sent n
  · rw [flush_out h]
    rfl
  · obtain ⟨-, -, w, hw⟩ := flush_kept h
    rw [hw]

@[simp] theorem flush_mac (now : UInt32) (sent : Bool) (n : Node) :
    (flush now sent n).2.1.mac = n.mac := by
  by_cases h : GoesOut now sent n
  · rw [flush_out h]
    rfl
  · obtain ⟨-, -, w, hw⟩ := flush_kept h
    rw [hw]
    rfl

/-- Every message in the transmit queue satisfies `P`. -/
def Carries (P : Bytes → Prop) (n : Node) : Prop := ∀ b ∈ n.link.tx, P b

section Carrying

variable {P : Bytes → Prop} {n : Node}

theorem Carries.push (h : Carries P n) {b : Bytes} (hb : P b) : Carries P (n.push b) := by
  intro c hc
  cases List.mem_append.mp hc with
  | inl hc =>
      exact h c hc
  | inr hc =>
      rwa [List.mem_singleton.mp hc]

theorem Carries.send (h : Carries P n) {m : Message} {tail : Bytes}
    (hm : P (m.toBytes ++ tail)) : Carries P (Sending.send m tail n).2 := by
  rcases send_cases m tail n with ⟨-, -, hn⟩ | ⟨-, -, hn⟩
  · rw [hn]
    exact h.push hm
  · rwa [hn]

/-- A flush sends queued messages only. -/
theorem Carries.flush (h : Carries P n) (now : UInt32) (sent : Bool) :
    Carries P (Sending.flush now sent n).2.1 ∧
      ∀ f ∈ (Sending.flush now sent n).2.2, ∀ b ∈ f.msgs, P b := by
  by_cases hg : GoesOut now sent n
  · rw [flush_out hg]
    refine ⟨fun b hb => absurd hb List.not_mem_nil, ?_⟩
    intro f hf
    rw [List.mem_singleton.mp hf]
    exact h
  · obtain ⟨-, hframes, w, hw⟩ := flush_kept hg
    rw [hframes, hw]
    exact ⟨h, fun f hf => absurd hf List.not_mem_nil⟩

end Carrying

end LoraMultihop.Multihop.Sending
