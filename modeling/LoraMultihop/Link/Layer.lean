/- digest: The link layer on its transmit and receive buffers, one definition a source function. -/

import Mathlib.Tactic
import LoraMultihop.Foundation.ByteMemory
import LoraMultihop.Link.Mac
import LoraMultihop.Net.Params

set_option autoImplicit false
set_option relaxedAutoImplicit false

namespace LoraMultihop.Link.Layer

open LoraMultihop.Foundation.ByteMemory
open LoraMultihop.Net.Params
open LoraMultihop.Link.Mac

inductive RC
  | ok | notInit | invalidDutyCycle | invalidSlotCount | invalidSlotLength | bufSize
  | phyError | invalidSlot | flushFailed | invalidMsg | msgSizeMismatch | noMsg | msgTooBig
  | checksumError | outOfBounds | headerError | nodeAddressBounds | notYourTurn
  | notInWindow | timedOut
  deriving DecidableEq

/-- `sizeof(FrameHeader)`: two `uint16_t`, one `uint32_t`, four bytes. -/
def FRAME_HEADER_SZ : Nat := 12

/-- The two padding bytes are always written as zero and never read. -/
structure FrameHeader where
  checksum : UInt16
  payloadBytes : UInt16
  senderTime : UInt32
  senderAddress : UInt8
  messageCount : UInt8
  deriving DecidableEq

/-- The header as `memcpy` sees it, little endian. -/
def FrameHeader.toBytes (h : FrameHeader) : Bytes :=
  leBytes 2 h.checksum.toNat ++ leBytes 2 h.payloadBytes.toNat ++ leBytes 4 h.senderTime.toNat ++
    [h.senderAddress, h.messageCount, 0, 0]

def FrameHeader.ofMemory (m : Memory) : FrameHeader where
  checksum := UInt16.ofNat (leNat (read m 0 2))
  payloadBytes := UInt16.ofNat (leNat (read m 2 2))
  senderTime := UInt32.ofNat (leNat (read m 4 4))
  senderAddress := m 8
  messageCount := m 9

/-- A linked list of fragments; each entry is the `sz` bytes at one node's `buf`. -/
abbrev MessageVec := List Bytes

def MessageVec.size (v : MessageVec) : Nat := (v.map List.length).sum

/-- Copy the fragments one after the other to offset `off`. -/
def MessageVec.write : MessageVec → Memory → Nat → Memory
  | [], m, _ => m
  | b :: v, m, off => MessageVec.write v (Foundation.ByteMemory.write m off b) (off + b.length)

structure State where
  initialized : Bool
  node : NodeParams
  mac : MacParams
  macState : MacState
  link : LinkParams
  state : LinkState

/-- What a call asks of the radio. -/
inductive RadioOp
  | waitRecv (len : UInt8) (timeoutMs : UInt32)
  | send (frame : Bytes)
  | setSpreadingFactor (sf : UInt8)
  deriving DecidableEq

/-- How one `lora::wait_recv` ended. -/
inductive WaitRecv
  | timedOut
  | failed
  | received (packet : Bytes)
  deriving DecidableEq

def txBytesAvailable (s : State) : Nat :=
  let bytesUsed := FRAME_HEADER_SZ + s.state.txMsgCount + s.state.txBytesQueued
  if s.link.txSz < bytesUsed then 0 else s.link.txSz - bytesUsed

def writeHead (s : State) : Nat := FRAME_HEADER_SZ + s.state.txMsgCount + s.state.txBytesQueued

/-- Wrapping 16-bit sum of the bytes in `[start, stop)`. -/
def calculateChecksum (m : Memory) (start stop : Nat) : UInt16 :=
  (read m start (stop - start)).foldl (fun checksum b => checksum + b.toUInt16) 0

/-- The new checksum field, or none where the code returns false and leaves the field alone. -/
def headerChecksum (hdr : FrameHeader) (buf : Memory) (sz : Nat) : Option UInt16 :=
  let stop := FRAME_HEADER_SZ + hdr.payloadBytes.toNat
  if sz < stop then none else some (calculateChecksum buf 2 stop)

def fillFrameHeader (now : UInt32) (s : State) : Bool × State :=
  let hdr : FrameHeader :=
    { checksum := 0
      payloadBytes := UInt16.ofNat (s.state.txMsgCount + s.state.txBytesQueued)
      senderTime := now
      senderAddress := s.node.address
      messageCount := UInt8.ofNat s.state.txMsgCount }
  let buf := write s.link.txBuf 0 hdr.toBytes
  match headerChecksum hdr buf s.link.txSz with
  | none => (false, { s with link := { s.link with txBuf := buf } })
  | some checksum =>
      (true, { s with link := { s.link with txBuf := write buf 0 (leBytes 2 checksum.toNat) } })

def truncateTx (s : State) : State :=
  { s with state := { s.state with txMsgCount := 0, txBytesQueued := 0 } }

def truncateRx (s : State) : State :=
  { s with state := { s.state with rxCursor := none, rxMsgNum := 0 } }

def rewind (s : State) : State :=
  { s with state := { s.state with rxCursor := some FRAME_HEADER_SZ, rxMsgNum := 0 } }

def init (node : NodeParams) (mac : MacParams) (link : LinkParams) (now : UInt32) (s : State) :
    RC × State :=
  if mac.superframeSlotCount < 1 then (.invalidSlotCount, s)
  else if mac.superframeSlotS < 1 then (.invalidSlotLength, s)
  else
    (.ok,
      { initialized := true
        node := node
        mac := mac
        macState := refreshWindow mac s.macState now
        link := link
        state := LinkState.fresh })

/-- The checks `recv` makes on the `len` bytes now in `rx_buf`. -/
def checkFrame (len : Nat) (s : State) : RC :=
  if len ≤ FRAME_HEADER_SZ then .invalidMsg
  else
    let hdr := FrameHeader.ofMemory s.link.rxBuf
    let totalLen := FRAME_HEADER_SZ + hdr.payloadBytes.toNat
    if totalLen ≠ len then .msgSizeMismatch
    else if s.link.rxSz < totalLen then .bufSize
    else if (headerChecksum hdr s.link.rxBuf s.link.rxSz).getD hdr.checksum ≠ hdr.checksum then
      .checksumError
    else .ok

def refreshed (now : UInt32) (s : State) : State :=
  { s with macState := refreshWindow s.mac s.macState now }

/-- The part of `recv` inside the window: one wait on the radio, then the checks. -/
def receiveFrame (timeoutMs : UInt32) (radio : WaitRecv) (s : State) : RC × State × List RadioOp :=
  let s := truncateRx s
  let len := UInt8.ofNat s.link.rxSz
  let ops := [RadioOp.waitRecv len timeoutMs]
  match radio with
  | .timedOut => (.timedOut, s, ops)
  | .failed => (.phyError, s, ops)
  | .received packet =>
      let bytes := packet.take len.toNat
      let s := { s with link := { s.link with rxBuf := write s.link.rxBuf 0 bytes } }
      let rc := checkFrame bytes.length s
      (rc, if rc = .ok then rewind s else s, ops)

def recv (now timeoutMs : UInt32) (radio : WaitRecv) (s : State) : RC × State × List RadioOp :=
  if s.initialized = false then (.notInit, s, [])
  else
    let s := refreshed now s
    if inActiveWindow s.macState now = false then (.notInWindow, s, [])
    else receiveFrame timeoutMs radio s

/-- The message is the bytes from `*buf` on; it is empty unless the code is `ok`. -/
def getmsg (s : State) : RC × Bytes × State :=
  match s.state.rxCursor with
  | none => (.noMsg, [], s)
  | some cursor =>
      let hdr := FrameHeader.ofMemory s.link.rxBuf
      if hdr.messageCount.toNat ≤ s.state.rxMsgNum then (.noMsg, [], s)
      else
        let len := (s.link.rxBuf cursor).toNat
        if FRAME_HEADER_SZ + hdr.payloadBytes.toNat < cursor + len + 1 then (.outOfBounds, [], s)
        else
          (.ok, read s.link.rxBuf (cursor + 1) len,
            { s with
              state :=
                { s.state with
                  rxCursor := some (cursor + len + 1)
                  rxMsgNum := s.state.rxMsgNum + 1 } })

def sendmsg (v : MessageVec) (s : State) : RC × State :=
  if s.initialized = false then (.notInit, s)
  else if txBytesAvailable s < v.size + 1 then (.bufSize, s)
  else if s.link.msgMaxBytes < v.size then (.msgTooBig, s)
  else
    let w := writeHead s
    let buf := write s.link.txBuf w [UInt8.ofNat v.size]
    (.ok,
      { s with
        link := { s.link with txBuf := v.write buf (w + 1) }
        state :=
          { s.state with
            txBytesQueued := s.state.txBytesQueued + v.size
            txMsgCount := s.state.txMsgCount + 1 } })

def sendmsgFlat (buf : Bytes) (sz : UInt8) (s : State) : RC × State := sendmsg [buf.take sz.toNat] s

/-- The part of `flush` inside the window; `stamp` is the reading of `fill_frame_header`. -/
def sendFrame (stamp : UInt32) (sent : Bool) (s : State) : RC × State × List RadioOp :=
  let (filled, s) := fillFrameHeader stamp s
  if filled = false then (.headerError, s, [])
  else
    let lenBytes := FRAME_HEADER_SZ + s.state.txMsgCount + s.state.txBytesQueued
    let frame := read s.link.txBuf 0 lenBytes
    if sent then (.ok, truncateTx s, [.send frame]) else (.flushFailed, s, [.send frame])

/-- `now` is the reading for the window, `sent` the result of `lora::send`. -/
def flush (now stamp : UInt32) (sent : Bool) (s : State) : RC × State × List RadioOp :=
  if s.initialized = false then (.notInit, s, [])
  else
    let s := refreshed now s
    if inActiveWindow s.macState now = false then (.notInWindow, s, [])
    else sendFrame stamp sent s

def activeSlot (now : UInt32) (s : State) : Int × State :=
  let (slot, w) := currentSlot s.mac s.macState now
  (slot, { s with macState := w })

/-- The stored pair is `(*epoch, *offset)`. -/
def epochAndOffset (n : UInt8) (now : UInt32) (s : State) : RC × Option (UInt32 × UInt32) × State :=
  if s.initialized = false then (.notInit, none, s)
  else if s.mac.superframeSlotCount ≤ n then (.invalidSlot, none, s)
  else
    let (current, w) := currentSlot s.mac s.macState now
    let offset := slotOffset s.mac w current n now
    (if current < 0 then .notInWindow else .ok, some (now + offset, offset),
      { s with macState := w })

def hashCdmaCode (id : UInt8) : UInt8 := id % 7 + 6

def setCdmaCode (id : UInt8) (s : State) : State × List RadioOp :=
  ({ s with state := { s.state with code := hashCdmaCode id } },
    [.setSpreadingFactor (hashCdmaCode id)])

/-- The public functions of the layer after `init`, with the readings and radio results of a
call. -/
inductive Call
  | sendmsg (v : MessageVec)
  | sendmsgFlat (buf : Bytes) (sz : UInt8)
  | getmsg
  | recv (now timeoutMs : UInt32) (radio : WaitRecv)
  | flush (now stamp : UInt32) (sent : Bool)
  | activeSlot (now : UInt32)
  | epochAndOffset (n : UInt8) (now : UInt32)
  | secondsUntilSelf (now : UInt32)
  | truncateTx
  | truncateRx
  | rewind
  | setCdmaCode (id : UInt8)

def Call.exec : Call → State → State
  | .sendmsg v, s => (Layer.sendmsg v s).2
  | .sendmsgFlat buf sz, s => (Layer.sendmsgFlat buf sz s).2
  | .getmsg, s => (Layer.getmsg s).2.2
  | .recv now timeoutMs radio, s => (Layer.recv now timeoutMs radio s).2.1
  | .flush now stamp sent, s => (Layer.flush now stamp sent s).2.1
  | .activeSlot now, s => (Layer.activeSlot now s).2
  | .epochAndOffset n now, s => (Layer.epochAndOffset n now s).2.2
  | .secondsUntilSelf now, s => (Layer.epochAndOffset s.node.address now s).2.2
  | .truncateTx, s => Layer.truncateTx s
  | .truncateRx, s => Layer.truncateRx s
  | .rewind, s => Layer.rewind s
  | .setCdmaCode id, s => (Layer.setCdmaCode id s).1

/-- The clock reading that decides a call's window, where it makes one. -/
def Call.reading : Call → Option UInt32
  | .recv now _ _ => some now
  | .flush now _ _ => some now
  | .activeSlot now => some now
  | .epochAndOffset _ now => some now
  | .secondsUntilSelf now => some now
  | _ => none

def runCalls (calls : List Call) (s : State) : State := calls.foldl (fun s c => c.exec s) s

@[simp] theorem runCalls_nil (s : State) : runCalls [] s = s := rfl

@[simp] theorem runCalls_cons (c : Call) (calls : List Call) (s : State) :
    runCalls (c :: calls) s = runCalls calls (c.exec s) := rfl

def timing (s : State) : Bool × MacParams × MacState := (s.initialized, s.mac, s.macState)

private theorem fillFrameHeader_timing (now : UInt32) (s : State) :
    timing (fillFrameHeader now s).2 = timing s := by
  unfold fillFrameHeader
  dsimp only
  split <;> rfl

private theorem sendmsg_timing (v : MessageVec) (s : State) :
    timing (sendmsg v s).2 = timing s := by
  unfold sendmsg
  dsimp only
  split_ifs <;> rfl

private theorem getmsg_timing (s : State) : timing (getmsg s).2.2 = timing s := by
  unfold getmsg
  dsimp only
  split
  · rfl
  · split_ifs <;> rfl

private theorem receiveFrame_timing (timeoutMs : UInt32) (radio : WaitRecv) (s : State) :
    timing (receiveFrame timeoutMs radio s).2.1 = timing s := by
  cases radio with
  | timedOut => rfl
  | failed => rfl
  | received packet =>
      simp only [receiveFrame]
      split_ifs <;> rfl

private theorem sendFrame_timing (stamp : UInt32) (sent : Bool) (s : State) :
    timing (sendFrame stamp sent s).2.1 = timing s := by
  have hf := fillFrameHeader_timing stamp s
  simp only [sendFrame]
  split_ifs <;> exact hf

private theorem recv_timing (now timeoutMs : UInt32) (radio : WaitRecv) (s : State)
    (hi : s.initialized = true) :
    timing (recv now timeoutMs radio s).2.1 = timing (refreshed now s) := by
  rw [recv, if_neg (by simp [hi])]
  dsimp only
  split_ifs
  · rfl
  · exact receiveFrame_timing timeoutMs radio (refreshed now s)

private theorem flush_timing (now stamp : UInt32) (sent : Bool) (s : State)
    (hi : s.initialized = true) :
    timing (flush now stamp sent s).2.1 = timing (refreshed now s) := by
  rw [flush, if_neg (by simp [hi])]
  dsimp only
  split_ifs
  · rfl
  · exact sendFrame_timing stamp sent (refreshed now s)

private theorem epochAndOffset_timing (n : UInt8) (now : UInt32) (s : State) :
    timing (epochAndOffset n now s).2.2 = timing s ∨
      timing (epochAndOffset n now s).2.2 = timing (refreshed now s) := by
  unfold epochAndOffset
  dsimp only
  split_ifs
  · exact Or.inl rfl
  · exact Or.inl rfl
  · exact Or.inr rfl
  · exact Or.inr rfl

theorem exec_timing (c : Call) (s : State) (hi : s.initialized = true) :
    timing (c.exec s) = timing s ∨
      ∃ now, c.reading = some now ∧ timing (c.exec s) = timing (refreshed now s) := by
  cases c with
  | sendmsg v => exact Or.inl (sendmsg_timing v s)
  | sendmsgFlat buf sz => exact Or.inl (sendmsg_timing [buf.take sz.toNat] s)
  | getmsg => exact Or.inl (getmsg_timing s)
  | recv now timeoutMs radio => exact Or.inr ⟨now, rfl, recv_timing now timeoutMs radio s hi⟩
  | flush now stamp sent => exact Or.inr ⟨now, rfl, flush_timing now stamp sent s hi⟩
  | activeSlot now => exact Or.inr ⟨now, rfl, rfl⟩
  | epochAndOffset n now =>
      exact (epochAndOffset_timing n now s).imp id fun h => ⟨now, rfl, h⟩
  | secondsUntilSelf now =>
      exact (epochAndOffset_timing s.node.address now s).imp id fun h => ⟨now, rfl, h⟩
  | truncateTx => exact Or.inl rfl
  | truncateRx => exact Or.inl rfl
  | rewind => exact Or.inl rfl
  | setCdmaCode id => exact Or.inl rfl

end LoraMultihop.Link.Layer
