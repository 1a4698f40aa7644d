/- digest: The decoder of the trace tool, and that it reads frames as the nodes do. -/

import LoraMultihop.Foundation.Fields
import LoraMultihop.Link.Draining
import LoraMultihop.Multihop.Codec
import LoraMultihop.Multihop.Slots

set_option autoImplicit false
set_option relaxedAutoImplicit false

namespace LoraMultihop.Trace.Decode

open LoraMultihop.Foundation.ByteMemory
open LoraMultihop.Foundation.Fields
open LoraMultihop.Link
open LoraMultihop.Link.Receive (Holds written receiveFrame_accepted)
open LoraMultihop.Link.Transport (listener remaining drain_of_ok getmsg_remaining)
open LoraMultihop.Link.Draining (Standing recv_received recv_standing drain_stopped)
open LoraMultihop.Multihop.Messages
open LoraMultihop.Multihop.Codec (decodeMsg_eq_some_iff)
open LoraMultihop.Multihop.Slots (ackAt)

/-- The values of a decoded body. -/
inductive Value
  | int (n : Nat)
  | bool (b : Bool)
  | ints (ns : List Nat)
  | str (s : String)
  deriving DecidableEq

/-- A dictionary, its keys in the order they were set. -/
abbrev Dict := List (String × Value)

structure FrameHeader where
  checksum : Nat
  payloadBytes : Nat
  senderTime : Nat
  senderAddress : Nat
  messageCount : Nat
  deriving DecidableEq

structure Report where
  type : String
  sequence : Nat
  src : Nat
  body : Dict
  deriving DecidableEq

def decodeFrameHeader (data : Bytes) : Option FrameHeader :=
  if data.length < 12 then none
  else
    some
      { checksum := field data 0 2
        payloadBytes := field data 2 2
        senderTime := field data 4 4
        senderAddress := field data 8 1
        messageCount := field data 9 1 }

/-- `MSG_TYPES`, with the text for a type that it lacks. -/
def typeName : Nat → String
  | 0 => "OpenCluster"
  | 1 => "Follow"
  | 2 => "Accept"
  | 3 => "CloseCluster"
  | 4 => "SendAcks"
  | 5 => "Datagram"
  | 6 => "Heartbeat"
  | 7 => "Unknown"
  | msgType => "Unknown(" ++ toString msgType ++ ")"

/-- A packet as ASCII text, every other byte replaced. -/
def ascii (packet : Bytes) : String :=
  String.ofList (packet.map fun b => if b < 128 then Char.ofNat b.toNat else Char.ofNat 0xFFFD)

def byteList (data : Bytes) (start stop : Nat) : List Nat :=
  ((data.drop start).take (stop - start)).map UInt8.toNat

def ackList (bodyData : Bytes) (start stop : Nat) : List Nat :=
  (List.range (stop - start)).filterMap fun i =>
    let off := 2 + i * 4
    if off + 4 ≤ bodyData.length then some (field bodyData off 4) else none

def bodyFields (msgType : Nat) (bodyData : Bytes) : Dict :=
  match msgType with
  | 6 => if 1 ≤ bodyData.length then [("ring", .int (field bodyData 0 1))] else []
  | 0 =>
      if 11 ≤ bodyData.length then
        [("ring", .int (field bodyData 0 1)), ("node", .int (field bodyData 1 1)),
          ("ring_start", .int (field bodyData 2 1)), ("counts", .ints (byteList bodyData 3 11))]
      else []
  | 1 =>
      if 2 ≤ bodyData.length then
        [("clusterhead", .int (field bodyData 0 1)), ("follower", .int (field bodyData 1 1))]
      else []
  | 2 =>
      if 8 ≤ bodyData.length then
        [("accepted", .bool (decide (field bodyData 0 1 ≠ 0))),
          ("follower", .int (field bodyData 1 1)), ("start_slot", .int (field bodyData 2 1)),
          ("relative_slot", .int (field bodyData 3 1)),
          ("remote_time_s", .int (field bodyData 4 4))]
      else []
  | 3 =>
      if 10 ≤ bodyData.length then
        [("nomination", .int (field bodyData 0 1)), ("ring_start", .int (field bodyData 1 1)),
          ("counts", .ints (byteList bodyData 2 10))]
      else []
  | 4 =>
      if 2 ≤ bodyData.length then
        let start := field bodyData 0 1
        let stop := field bodyData 1 1
        [("start", .int start), ("end", .int stop), ("acks", .ints (ackList bodyData start stop))]
      else []
  | 5 =>
      if 4 ≤ bodyData.length then
        let packetBytes := field bodyData 0 2
        [("packet_bytes", .int packetBytes), ("count", .int (field bodyData 2 1)),
          ("part", .int (field bodyData 3 1)),
          ("payload", .str (ascii ((bodyData.drop 4).take packetBytes)))]
      else []
  | _ => []

def decodeProtocolMessage (data : Bytes) : Option Report :=
  if data.length < 6 then none
  else
    let msgType := field data 5 1
    some
      { type := typeName msgType
        sequence := field data 0 4
        src := field data 4 1
        body := bodyFields msgType (data.drop 6) }

/-- The loop of `decode_messages` over the rounds left, with the raw bytes of each message. -/
def splitFrom (data : Bytes) : Nat → Nat → List Bytes
  | 0, _ => []
  | rounds + 1, offset =>
      if data.length ≤ offset then []
      else
        let msgLen := field data offset 1
        let offset := offset + 1
        if data.length < offset + msgLen then []
        else (data.drop offset).take msgLen :: splitFrom data rounds (offset + msgLen)

def split (data : Bytes) (hdr : FrameHeader) : List Bytes := splitFrom data hdr.messageCount 0

def decodeMessages (data : Bytes) (hdr : FrameHeader) : List Report :=
  (split data hdr).filterMap decodeProtocolMessage

/-- The name the trace gives a type of message. -/
def messageTypeName : MessageType → String
  | .openCluster => "OpenCluster"
  | .follow => "Follow"
  | .accept => "Accept"
  | .closeCluster => "CloseCluster"
  | .sendAcks => "SendAcks"
  | .datagram => "Datagram"
  | .heartbeat => "Heartbeat"
  | .unknown => "Unknown"

def ringFields (neighbors : RingList) : Dict :=
  [("ring_start", .int neighbors.ringStart.toNat),
    ("counts", .ints (List.ofFn fun i => (neighbors.counts i).toNat))]

/-- The fields that a node reads in a body and its tail, under the names of the trace. -/
def readFields : Body → Bytes → Dict
  | .openCluster ring node neighbors, _ =>
      [("ring", .int ring.toNat), ("node", .int node.toNat)] ++ ringFields neighbors
  | .follow clusterhead follower, _ =>
      [("clusterhead", .int clusterhead.toNat), ("follower", .int follower.toNat)]
  | .accept accepted follower startSlot relativeSlot remoteTimeS, _ =>
      [("accepted", .bool (decide (accepted ≠ 0))), ("follower", .int follower.toNat),
        ("start_slot", .int startSlot.toNat), ("relative_slot", .int relativeSlot.toNat),
        ("remote_time_s", .int remoteTimeS.toNat)]
  | .closeCluster nomination neighbors, _ =>
      [("nomination", .int nomination.toNat)] ++ ringFields neighbors
  | .sendAcks start stop, acks =>
      [("start", .int start.toNat), ("end", .int stop.toNat),
        ("acks", .ints ((List.range (stop - start).toNat).map fun i => (ackAt acks i).toNat))]
  | .datagram packetBytes count part, packet =>
      [("packet_bytes", .int packetBytes.toNat), ("count", .int count.toNat),
        ("part", .int part.toNat), ("payload", .str (ascii packet))]
  | .heartbeat ring, _ => [("ring", .int ring.toNat)]

/-- What a node reads in a message, as a report of the trace. -/
def reportOf (m : Message) (tail : Bytes) : Report where
  type := messageTypeName m.body.type
  sequence := m.sequence.toNat
  src := m.src.toNat
  body := readFields m.body tail

/-- The header that a node reads, as one of the trace. -/
def headerOf (hdr : Layer.FrameHeader) : FrameHeader where
  checksum := hdr.checksum.toNat
  payloadBytes := hdr.payloadBytes.toNat
  senderTime := hdr.senderTime.toNat
  senderAddress := hdr.senderAddress.toNat
  messageCount := hdr.messageCount.toNat

section Fields

private theorem ackList_eq {start stop : UInt8} {acks : Bytes} (hle : start < stop)
    (hlen : acks.length = (stop - start).toNat * 4) :
    ackList (start :: stop :: acks) start.toNat stop.toNat =
      (List.range (stop - start).toNat).map fun i => (ackAt acks i).toNat := by
  have hcount : (stop - start).toNat = stop.toNat - start.toNat :=
    UInt8.toNat_sub_of_le _ _ (UInt8.le_of_lt hle)
  rw [ackList, ← hcount, ← List.filterMap_eq_map]
  apply List.filterMap_congr
  intro i hi
  have hlt := List.mem_range.mp hi
  have hroom : 2 + i * 4 + 4 ≤ (start :: stop :: acks).length := by
    simp only [List.length_cons]
    omega
  have hack : field acks (i * 4) 4 < 2 ^ 32 := field_lt acks (i * 4) 4
  dsimp only
  rw [if_pos hroom, Function.comp_apply, ackAt, Nat.add_comm 2, field_cons, field_cons]
  exact congrArg some (UInt32.toNat_ofNat_of_lt' hack).symm

end Fields

private theorem bodyFields_eq {body : Body} {tail : Bytes} (h : body.Fits tail) :
    bodyFields body.type.toByte.toNat (body.toBytes ++ tail) = readFields body tail := by
  cases body with
  | openCluster ring node neighbors =>
      obtain rfl : tail = [] := h
      rfl
  | follow clusterhead follower =>
      obtain rfl : tail = [] := h
      rfl
  | accept accepted follower startSlot relativeSlot remoteTimeS =>
      obtain rfl : tail = [] := h
      have htime : field (leBytes 4 remoteTimeS.toNat ++ []) 0 4 = remoteTimeS.toNat :=
        field_leBytes remoteTimeS.toNat_lt []
      have hzero : accepted.toNat = (0 : UInt8).toNat ↔ accepted = 0 := UInt8.toNat_inj
      have haccepted : decide (accepted.toNat ≠ 0) = decide (accepted ≠ 0) :=
        decide_eq_decide.mpr (not_congr hzero)
      have hfields : bodyFields 2 (Body.toBytes
            (.accept accepted follower startSlot relativeSlot remoteTimeS) ++ []) =
          [("accepted", .bool (decide (accepted.toNat ≠ 0))), ("follower", .int follower.toNat),
            ("start_slot", .int startSlot.toNat), ("relative_slot", .int relativeSlot.toNat),
            ("remote_time_s", .int (field (leBytes 4 remoteTimeS.toNat ++ []) 0 4))] := rfl
      rw [htime, haccepted] at hfields
      exact hfields
  | closeCluster nomination neighbors =>
      obtain rfl : tail = [] := h
      rfl
  | sendAcks start stop =>
      obtain ⟨hle, hlen⟩ := h
      have hfields : bodyFields 4 (Body.toBytes (.sendAcks start stop) ++ tail) =
          [("start", .int start.toNat), ("end", .int stop.toNat),
            ("acks", .ints (ackList (start :: stop :: tail) start.toNat stop.toNat))] := rfl
      rw [ackList_eq hle hlen] at hfields
      exact hfields
  | datagram packetBytes count part =>
      have hlen : tail.length = packetBytes.toNat := h
      have hbytes : field (leBytes 2 packetBytes.toNat ++ count :: part :: tail) 0 2 =
          packetBytes.toNat := field_leBytes packetBytes.toNat_lt _
      have hfields : bodyFields 5 (Body.toBytes (.datagram packetBytes count part) ++ tail) =
          [("packet_bytes",
              .int (field (leBytes 2 packetBytes.toNat ++ count :: part :: tail) 0 2)),
            ("count", .int count.toNat), ("part", .int part.toNat),
            ("payload", .str (ascii (tail.take
              (field (leBytes 2 packetBytes.toNat ++ count :: part :: tail) 0 2))))] := rfl
      rw [hbytes, List.take_of_length_le (Nat.le_of_eq hlen)] at hfields
      exact hfields
  | heartbeat ring =>
      obtain rfl : tail = [] := h
      rfl

private theorem typeName_eq (body : Body) :
    typeName body.type.toByte.toNat = messageTypeName body.type := by
  cases body <;> rfl

private theorem decodeProtocolMessage_eq {b : Bytes} {m : Message} {tail : Bytes}
    (h : decodeMsg b = some (m, tail)) : decodeProtocolMessage b = some (reportOf m tail) := by
  obtain ⟨rfl, hfits⟩ := decodeMsg_eq_some_iff.mp h
  have hsequence : field (leBytes 4 m.sequence.toNat ++
      (m.src :: m.body.type.toByte :: (m.body.toBytes ++ tail))) 0 4 = m.sequence.toNat :=
    field_leBytes m.sequence.toNat_lt _
  have hreport : decodeProtocolMessage (leBytes 4 m.sequence.toNat ++
        (m.src :: m.body.type.toByte :: (m.body.toBytes ++ tail))) =
      some
        { type := typeName m.body.type.toByte.toNat
          sequence := field (leBytes 4 m.sequence.toNat ++
            (m.src :: m.body.type.toByte :: (m.body.toBytes ++ tail))) 0 4
          src := m.src.toNat
          body := bodyFields m.body.type.toByte.toNat (m.body.toBytes ++ tail) } := rfl
  rw [hsequence, typeName_eq, bodyFields_eq hfits] at hreport
  rw [Message.toBytes, List.append_assoc, List.append_assoc]
  exact hreport

private theorem drain_eq_split {s : Layer.State} {pos offset : Nat} {data rest : Bytes}
    (h : Standing s pos rest) (hdata : data.drop offset = rest) (hle : offset ≤ data.length) :
    (Transport.drain s).1 = splitFrom data (remaining s) offset := by
  induction hr : remaining s generalizing s pos offset rest with
  | zero =>
      rw [(drain_stopped (Or.inl (h.done hr).1)).1, splitFrom]
  | succ n ih =>
      have hpos : 0 < remaining s := by omega
      have hlength : data.length - offset = rest.length := by rw [← hdata, List.length_drop]
      rw [splitFrom]
      cases rest with
      | nil =>
          rw [List.length_nil] at hlength
          rw [(drain_stopped (Or.inr (h.ended hpos))).1, if_pos (by omega)]
      | cons c rest =>
          rw [List.length_cons] at hlength
          have hlen : field data offset 1 = c.toNat := by
            rw [field, hdata]
            exact field_byte c rest
          have htail : data.drop (offset + 1) = rest := by
            rw [← List.drop_drop, hdata]
            rfl
          rw [if_neg (by omega)]
          dsimp only
          rw [hlen]
          by_cases hfits : c.toNat ≤ rest.length
          · obtain ⟨hok, hmsg, -, hnext⟩ := h.next hpos hfits
            have hrem := getmsg_remaining hok
            have hdrop : data.drop (offset + 1 + c.toNat) = rest.drop c.toNat := by
              rw [← List.drop_drop, htail]
            rw [if_neg (by omega), drain_of_ok hok, hmsg, htail,
              ih hnext hdrop (by omega) (by omega)]
          · rw [(drain_stopped (Or.inr (h.overruns hpos (Nat.lt_of_not_le hfits)))).1,
              if_pos (by omega)]

private theorem decodeFrameHeader_eq {m : Memory} {frame : Bytes} (h : Holds m frame)
    (hlen : Layer.FRAME_HEADER_SZ < frame.length) :
    decodeFrameHeader frame = some (headerOf (Layer.FrameHeader.ofMemory m)) := by
  unfold Layer.FRAME_HEADER_SZ at hlen
  have hfield (off len : Nat) (hle : off + len ≤ 12) :
      field frame off len = leNat (read m off len) := by
    rw [field, h.block (by omega)]
  have hbyte (off : Nat) (hle : off + 1 ≤ 12) : field frame off 1 = (m off).toNat := by
    rw [hfield off 1 hle, read_cons, read_zero]
    simp [leNat]
  have hchecksum : field frame 0 2 < 2 ^ 16 := field_lt frame 0 2
  have hpayload : field frame 2 2 < 2 ^ 16 := field_lt frame 2 2
  have htime : field frame 4 4 < 2 ^ 32 := field_lt frame 4 4
  rw [decodeFrameHeader, if_neg (by omega), headerOf, Layer.FrameHeader.ofMemory]
  dsimp only
  rw [← hfield 0 2 (by omega), ← hfield 2 2 (by omega), ← hfield 4 4 (by omega),
    ← hbyte 8 (by omega), ← hbyte 9 (by omega), UInt16.toNat_ofNat_of_lt' hchecksum,
    UInt16.toNat_ofNat_of_lt' hpayload, UInt32.toNat_ofNat_of_lt' htime]

/-- Of every frame that `recv` accepts the tool reads the header as the node does, splits off the
messages that the node's calls of `getmsg` return, and reports of each message what the node reads
in it. -/
theorem trace_reads_frames {s : Layer.State} {now timeoutMs : UInt32} {packet : Bytes}
    (h : (Layer.recv now timeoutMs (.received packet) s).1 = .ok) :
    let s' := (Layer.recv now timeoutMs (.received packet) s).2.1
    let frame := written packet s
    let hdr := headerOf (Layer.FrameHeader.ofMemory s'.link.rxBuf)
    decodeFrameHeader frame = some hdr ∧
      split (frame.drop 12) hdr = (Transport.drain s').1 ∧
      decodeMessages (frame.drop 12) hdr =
        (Transport.drain s').1.filterMap decodeProtocolMessage ∧
      ∀ b ∈ (Transport.drain s').1, ∀ m tail, decodeMsg b = some (m, tail) →
        decodeProtocolMessage b = some (reportOf m tail) := by
  intro s' frame hdr
  obtain ⟨hstanding, -, -, hremaining⟩ := recv_standing h
  have hheader : decodeFrameHeader frame = some hdr := by
    have heq := recv_received h
    have hs' : s' = (Layer.receiveFrame timeoutMs (.received packet) (Layer.refreshed now s)).2.1 :=
      congrArg (fun r => r.2.1) heq
    rw [heq] at h
    obtain ⟨⟨hlen, -⟩, hheld, -⟩ := receiveFrame_accepted h
    rw [← hs'] at hheld
    exact decodeFrameHeader_eq hheld hlen
  have hsplit : split (frame.drop 12) hdr = (Transport.drain s').1 := by
    rw [drain_eq_split hstanding (List.drop_zero) (Nat.zero_le _), hremaining]
    rfl
  refine ⟨hheader, hsplit, ?_, ?_⟩
  · rw [decodeMessages, hsplit]
  · intro b _ m tail hb
    exact decodeProtocolMessage_eq hb

def acksFrame : Bytes :=
  [34, 1, 13, 0, 72, 0, 0, 0, 1, 1, 0, 0, 12, 72, 0, 0, 0, 1, 4, 0, 1, 113, 0, 0, 0]

theorem acks_frame_traced :
    let s' := (Layer.recv 72 1000 (.received acksFrame) listener.state).2.1
    let hdr := headerOf (Layer.FrameHeader.ofMemory s'.link.rxBuf)
    decodeMessages (acksFrame.drop 12) hdr =
        [⟨"SendAcks", 72, 1, [("start", .int 0), ("end", .int 1), ("acks", .ints [113])]⟩] ∧
      (Transport.drain s').1 = [Message.toBytes ⟨72, 1, .sendAcks 0 1⟩ ++ [113, 0, 0, 0]] := by
  intro s' hdr
  have hok : (Layer.recv 72 1000 (.received acksFrame) listener.state).1 = .ok := by decide +kernel
  have hdrain : (Transport.drain s').1 =
      [Message.toBytes ⟨72, 1, .sendAcks 0 1⟩ ++ [113, 0, 0, 0]] := by decide +kernel
  obtain ⟨-, -, hreports, -⟩ := trace_reads_frames hok
  refine ⟨hreports.trans ?_, hdrain⟩
  rw [hdrain]
  decide +kernel

end LoraMultihop.Trace.Decode
