/- digest: Messages accepted for sending come out at the receiver, once each and in order. -/

import Mathlib.Tactic
import LoraMultihop.Foundation.LengthPrefix
import LoraMultihop.Link.Windows

set_option autoImplicit false
set_option relaxedAutoImplicit false

namespace LoraMultihop.Link.Transport

open LoraMultihop.Foundation.ByteMemory
open LoraMultihop.Foundation.LengthPrefix
open LoraMultihop.Net.Params
open LoraMultihop.Link.Mac
open LoraMultihop.Link.Layer

theorem size_eq (v : MessageVec) : v.size = v.flatten.length := by
  rw [MessageVec.size, List.length_flatten]

private theorem vecWrite_eq (v : MessageVec) (m : Memory) (off : Nat) :
    v.write m off = write m off v.flatten := by
  induction v generalizing m off with
  | nil => simp [MessageVec.write]
  | cons b v ih => rw [MessageVec.write, ih, write_write_append, List.flatten_cons]

def queued (s : State) : List Bytes := unpack s.link.txBuf s.state.txMsgCount FRAME_HEADER_SZ

structure Queued (s : State) (q : List Bytes) : Prop where
  count : s.state.txMsgCount = q.length
  bytes : s.state.txBytesQueued = (q.map List.length).sum
  room : FRAME_HEADER_SZ + (pack q).length ≤ s.link.txSz
  content : read s.link.txBuf FRAME_HEADER_SZ (pack q).length = pack q

theorem Queued.used {s : State} {q : List Bytes} (h : Queued s q) :
    s.state.txMsgCount + s.state.txBytesQueued = (pack q).length := by
  rw [h.count, h.bytes, pack_length]

theorem Queued.queued_eq {s : State} {q : List Bytes} (h : Queued s q) (hsz : s.link.txSz ≤ 255) :
    queued s = q := by
  rw [queued, h.count]
  refine unpack_pack ?_ h.content
  intro b hb
  have hlt := length_lt_pack hb
  have hroom := h.room
  omega

/-- What no operation of the transmit side changes. -/
structure Kept (s s' : State) : Prop where
  initialized : s'.initialized = s.initialized
  txSz : s'.link.txSz = s.link.txSz
  beyond : ∀ a, s.link.txSz ≤ a → s'.link.txBuf a = s.link.txBuf a

private theorem Kept.refl (s : State) : Kept s s := ⟨rfl, rfl, fun _ _ => rfl⟩

private theorem Kept.trans {s t u : State} (h : Kept s t) (h' : Kept t u) : Kept s u where
  initialized := h'.initialized.trans h.initialized
  txSz := h'.txSz.trans h.txSz
  beyond a ha := (h'.beyond a (h.txSz ▸ ha)).trans (h.beyond a ha)

theorem sendmsg_rejected {v : MessageVec} {s : State} (h : (sendmsg v s).1 ≠ .ok) :
    (sendmsg v s).2 = s := by
  unfold sendmsg at h ⊢
  dsimp only at h ⊢
  split_ifs at h ⊢ <;> first | rfl | exact absurd rfl h

private theorem sendmsg_fits {v : MessageVec} {s : State} {q : List Bytes} (hq : Queued s q)
    (h : (sendmsg v s).1 = .ok) :
    FRAME_HEADER_SZ + (pack (q ++ [v.flatten])).length ≤ s.link.txSz := by
  have hroom := hq.room
  have hused := hq.used
  have hlen : (pack (q ++ [v.flatten])).length = (pack q).length + (v.size + 1) := by
    rw [pack_append, pack_singleton, size_eq]
    simp
  unfold sendmsg txBytesAvailable at h
  dsimp only at h
  split_ifs at h with h1 h2 h3 h4 h5 <;> omega

theorem sendmsg_accepted {v : MessageVec} {s : State} {q : List Bytes} (hq : Queued s q)
    (h : (sendmsg v s).1 = .ok) :
    Queued (sendmsg v s).2 (q ++ [v.flatten]) ∧ Kept s (sendmsg v s).2 := by
  have hfits := sendmsg_fits hq h
  have hused := hq.used
  have hlen : (pack (q ++ [v.flatten])).length = (pack q).length + (v.flatten.length + 1) := by
    rw [pack_append, pack_singleton]
    simp
  have hhead : writeHead s = FRAME_HEADER_SZ + (pack q).length := by
    rw [writeHead, ← hused]
    omega
  have hstate : (sendmsg v s).2 =
      { s with
        link :=
          { s.link with
            txBuf := write s.link.txBuf (writeHead s) (UInt8.ofNat v.size :: v.flatten) }
        state :=
          { s.state with
            txBytesQueued := s.state.txBytesQueued + v.size
            txMsgCount := s.state.txMsgCount + 1 } } := by
    unfold sendmsg at h ⊢
    dsimp only at h ⊢
    split_ifs at h ⊢
    have hw := write_write_append s.link.txBuf (writeHead s) [UInt8.ofNat v.size] v.flatten
    simp only [List.length_singleton, List.singleton_append] at hw
    rw [vecWrite_eq, hw]
  have hpack : pack [v.flatten] = UInt8.ofNat v.size :: v.flatten := by
    rw [pack_singleton, size_eq]
  rw [hstate]
  refine ⟨⟨?_, ?_, hfits, ?_⟩, rfl, rfl, ?_⟩
  · simp [hq.count]
  · simp [hq.bytes, size_eq]
  · rw [pack_append, List.length_append, read_append]
    dsimp only
    rw [hhead, ← hpack, read_write_same, read_write_disjoint _ _ _ (Or.inl le_rfl), hq.content]
  · intro a ha
    refine write_outside _ _ _ (Or.inr ?_)
    rw [List.length_cons, hhead]
    omega

def headerOf (stamp : UInt32) (s : State) : FrameHeader :=
  let blank : FrameHeader :=
    { checksum := 0
      payloadBytes := UInt16.ofNat (s.state.txMsgCount + s.state.txBytesQueued)
      senderTime := stamp
      senderAddress := s.node.address
      messageCount := UInt8.ofNat s.state.txMsgCount }
  { blank with
    checksum := calculateChecksum (write s.link.txBuf 0 blank.toBytes) 2
      (FRAME_HEADER_SZ + blank.payloadBytes.toNat) }

@[simp] theorem toBytes_length (h : FrameHeader) : h.toBytes.length = FRAME_HEADER_SZ := by
  simp [FrameHeader.toBytes, FRAME_HEADER_SZ]

private theorem write_checksum (m : Memory) (h : FrameHeader) (c : UInt16) :
    write (write m 0 h.toBytes) 0 (leBytes 2 c.toNat) =
      write m 0 { h with checksum := c }.toBytes := by
  simp only [FrameHeader.toBytes, List.append_assoc]
  exact write_write_prefix _ _ _ (by simp)

private theorem write_checksum_beyond (m : Memory) (h : FrameHeader) (c : UInt16) {a : Nat}
    (ha : 2 ≤ a) : write m 0 { h with checksum := c }.toBytes a = write m 0 h.toBytes a := by
  rw [← write_checksum]
  exact write_outside _ _ _ (Or.inr (by simpa using ha))

private theorem ofMemory_write (m : Memory) (h : FrameHeader) :
    FrameHeader.ofMemory (write m 0 h.toBytes) = h := by
  have hread : read (write m 0 h.toBytes) 0 FRAME_HEADER_SZ = h.toBytes := by
    rw [← toBytes_length h]
    exact read_write_same m 0 h.toBytes
  generalize write m 0 h.toBytes = m' at hread
  rw [show FRAME_HEADER_SZ = 2 + (2 + (4 + (1 + (1 + 2)))) from rfl] at hread
  simp only [read_append, FrameHeader.toBytes, List.append_assoc] at hread
  obtain ⟨h1, hread⟩ := List.append_inj hread (by simp)
  obtain ⟨h2, hread⟩ := List.append_inj hread (by simp)
  obtain ⟨h3, hread⟩ := List.append_inj hread (by simp)
  simp only [read_cons, read_zero, List.cons_append, List.nil_append, List.cons.injEq] at hread
  obtain ⟨h4, h5, -⟩ := hread
  simp only [Nat.zero_add, Nat.reduceAdd] at h1 h2 h3 h4 h5
  rw [FrameHeader.ofMemory, h1, h2, h3, h4, h5, leNat_leBytes_of_lt h.checksum.toNat_lt,
    leNat_leBytes_of_lt h.payloadBytes.toNat_lt, leNat_leBytes_of_lt h.senderTime.toNat_lt]
  simp

private theorem fillFrameHeader_eq (stamp : UInt32) {s : State} {q : List Bytes} (hq : Queued s q)
    (hsz : s.link.txSz ≤ 255) :
    fillFrameHeader stamp s =
      (true, { s with
        link :=
          { s.link with txBuf := write s.link.txBuf 0 (headerOf stamp s).toBytes } }) := by
  have hroom := hq.room
  have hused := hq.used
  have hpay : (UInt16.ofNat (s.state.txMsgCount + s.state.txBytesQueued)).toNat =
      (pack q).length := by
    rw [hused, UInt16.toNat_ofNat_of_lt' (by simp only [UInt16.size]; omega)]
  have hok : ¬ s.link.txSz <
      FRAME_HEADER_SZ + (UInt16.ofNat (s.state.txMsgCount + s.state.txBytesQueued)).toNat := by
    omega
  simp only [fillFrameHeader, headerChecksum, if_neg hok, write_checksum, headerOf]

/-- The memory holds one whole frame with the messages `q`. -/
structure Sealed (m : Memory) (q : List Bytes) : Prop where
  payload : (FrameHeader.ofMemory m).payloadBytes.toNat = (pack q).length
  count : (FrameHeader.ofMemory m).messageCount.toNat = q.length
  checksum : (FrameHeader.ofMemory m).checksum =
    calculateChecksum m 2 (FRAME_HEADER_SZ + (pack q).length)
  content : read m FRAME_HEADER_SZ (pack q).length = pack q

theorem ofMemory_congr {m m' : Memory} (h : ∀ a, a < FRAME_HEADER_SZ → m a = m' a) :
    FrameHeader.ofMemory m = FrameHeader.ofMemory m' := by
  unfold FRAME_HEADER_SZ at h
  have hread {off len : Nat} (hle : off + len ≤ 10) : read m off len = read m' off len :=
    read_congr fun a _ hb => h a (by omega)
  rw [FrameHeader.ofMemory, FrameHeader.ofMemory, h 8 (by omega), h 9 (by omega),
    hread (by omega), hread (by omega), hread (by omega)]

theorem calculateChecksum_congr {m m' : Memory} {start stop : Nat} (hle : start ≤ stop)
    (h : ∀ a, start ≤ a → a < stop → m a = m' a) :
    calculateChecksum m start stop = calculateChecksum m' start stop := by
  have hread : read m start (stop - start) = read m' start (stop - start) :=
    read_congr fun a ha hb => h a ha (by omega)
  rw [calculateChecksum, calculateChecksum, hread]

theorem Sealed.congr {m m' : Memory} {q : List Bytes} (hs : Sealed m q)
    (h : ∀ a, a < FRAME_HEADER_SZ + (pack q).length → m a = m' a) : Sealed m' q := by
  have hhdr : FrameHeader.ofMemory m = FrameHeader.ofMemory m' :=
    ofMemory_congr fun a ha => h a (by omega)
  refine ⟨hhdr ▸ hs.payload, hhdr ▸ hs.count, ?_, ?_⟩
  · rw [← hhdr, hs.checksum]
    exact calculateChecksum_congr (by unfold FRAME_HEADER_SZ; omega) fun a _ hb => h a hb
  · exact (read_congr fun a _ hb => (h a hb).symm).trans hs.content

theorem sealed_header (stamp : UInt32) {s : State} {q : List Bytes} (hq : Queued s q)
    (hsz : s.link.txSz ≤ 255) : Sealed (write s.link.txBuf 0 (headerOf stamp s).toBytes) q := by
  have hroom := hq.room
  have hused := hq.used
  have hlen := pack_length q
  have hcount := hq.count
  have hpay : (UInt16.ofNat (s.state.txMsgCount + s.state.txBytesQueued)).toNat =
      (pack q).length := by
    rw [hused, UInt16.toNat_ofNat_of_lt' (by simp only [UInt16.size]; omega)]
  refine ⟨?_, ?_, ?_, ?_⟩
  · rw [ofMemory_write]
    exact hpay
  · rw [ofMemory_write]
    change (UInt8.ofNat s.state.txMsgCount).toNat = _
    rw [UInt8.toNat_ofNat_of_lt' (by simp only [UInt8.size]; omega), hcount]
  · rw [ofMemory_write]
    simp only [headerOf, hpay]
    apply calculateChecksum_congr (by unfold FRAME_HEADER_SZ; omega)
    intro a ha _
    exact (write_checksum_beyond _ _ _ ha).symm
  · rw [read_write_disjoint _ _ _ (Or.inr (by simp)), hq.content]

/-- How many messages the reader has yet to return, by the header of the frame. -/
def remaining (s : State) : Nat :=
  (FrameHeader.ofMemory s.link.rxBuf).messageCount.toNat - s.state.rxMsgNum

def drainFuel : Nat → State → List Bytes × State
  | 0, s => ([], s)
  | fuel + 1, s =>
      match getmsg s with
      | (.ok, b, s') => ((b :: (drainFuel fuel s').1), (drainFuel fuel s').2)
      | (_, _, s') => ([], s')

def drain (s : State) : List Bytes × State := drainFuel (remaining s) s

theorem getmsg_rejected {s : State} (h : (getmsg s).1 ≠ .ok) : (getmsg s).2.2 = s := by
  unfold getmsg at h ⊢
  dsimp only at h ⊢
  split
  · rfl
  · rename_i hc
    rw [hc] at h
    dsimp only at h
    split_ifs at h ⊢ <;> first | rfl | exact absurd rfl h

theorem getmsg_remaining {s : State} (h : (getmsg s).1 = .ok) :
    remaining s = remaining (getmsg s).2.2 + 1 := by
  unfold getmsg at h ⊢
  dsimp only at h ⊢
  split at h
  · exact absurd h (by simp)
  · split_ifs at h ⊢
    simp only [remaining]
    omega

theorem drain_of_ok {s : State} (h : (getmsg s).1 = .ok) :
    drain s = ((getmsg s).2.1 :: (drain (getmsg s).2.2).1, (drain (getmsg s).2.2).2) := by
  rw [drain, getmsg_remaining h, drainFuel]
  rcases hg : getmsg s with ⟨rc, b, s'⟩
  rw [hg] at h
  subst h
  rfl

theorem drain_of_stop {s : State} (h : (getmsg s).1 ≠ .ok) : drain s = ([], s) := by
  have hs := getmsg_rejected h
  rw [drain]
  cases hr : remaining s with
  | zero => rfl
  | succ n =>
      rw [drainFuel]
      rcases hg : getmsg s with ⟨rc, b, s'⟩
      rw [hg] at h hs
      dsimp only at h hs
      subst hs
      split
      · rename_i heq
        simp only [Prod.mk.injEq] at heq
        exact absurd heq.1 h
      · rename_i heq
        simp only [Prod.mk.injEq] at heq
        rw [heq.2.2]

private theorem drain_stops (s : State) : (getmsg (drain s).2).1 ≠ .ok := by
  induction hr : remaining s generalizing s with
  | zero =>
      by_cases h : (getmsg s).1 = .ok
      · have := getmsg_remaining h
        omega
      · rwa [drain_of_stop h]
  | succ n ih =>
      by_cases h : (getmsg s).1 = .ok
      · rw [drain_of_ok h]
        have := getmsg_remaining h
        exact ih _ (by omega)
      · rwa [drain_of_stop h]

/-- The reader stands before the messages `q` of a frame. -/
structure Reading (s : State) (q : List Bytes) (pos : Nat) : Prop where
  cursor : s.state.rxCursor = some pos
  count : (FrameHeader.ofMemory s.link.rxBuf).messageCount.toNat = s.state.rxMsgNum + q.length
  payload : FRAME_HEADER_SZ + (FrameHeader.ofMemory s.link.rxBuf).payloadBytes.toNat =
    pos + (pack q).length
  content : read s.link.rxBuf pos (pack q).length = pack q
  short : ∀ b ∈ q, b.length < 256

private theorem Reading.stop {s : State} {pos : Nat} (h : Reading s [] pos) :
    (getmsg s).1 ≠ .ok := by
  have hcount := h.count
  rw [getmsg, h.cursor]
  dsimp only
  rw [if_pos (by simp only [List.length_nil] at hcount; omega)]
  simp

private theorem Reading.next {s : State} {b : Bytes} {q : List Bytes} {pos : Nat}
    (h : Reading s (b :: q) pos) :
    (getmsg s).1 = .ok ∧ (getmsg s).2.1 = b ∧
      Reading (getmsg s).2.2 q (pos + b.length + 1) := by
  obtain ⟨hlen, hb, hq⟩ := read_pack_cons (h.short b List.mem_cons_self) h.content
  have hcount := h.count
  have hpayload := h.payload
  simp only [pack, List.length_cons, List.length_append] at hcount hpayload
  have hget : getmsg s = (.ok, b,
      { s with
        state :=
          { s.state with
            rxCursor := some (pos + b.length + 1)
            rxMsgNum := s.state.rxMsgNum + 1 } }) := by
    rw [getmsg, h.cursor]
    dsimp only
    rw [if_neg (by omega), hlen, if_neg (by omega), hb]
  rw [hget]
  refine ⟨rfl, rfl, rfl, ?_, ?_, ?_, fun c hc => h.short c (List.mem_cons_of_mem b hc)⟩
  · dsimp only
    omega
  · dsimp only
    omega
  · rw [show pos + b.length + 1 = pos + 1 + b.length by omega]
    exact hq

private theorem Reading.drain_eq {s : State} {q : List Bytes} {pos : Nat} (h : Reading s q pos) :
    (drain s).1 = q := by
  induction q generalizing s pos with
  | nil => rw [drain_of_stop h.stop]
  | cons b q ih =>
      obtain ⟨hok, hb, hnext⟩ := h.next
      rw [drain_of_ok hok, hb, ih hnext]

/-- A node in its active window, about to receive. -/
structure Receiver where
  state : State
  now : UInt32
  timeoutMs : UInt32
  initialized : state.initialized = true
  active : inActiveWindow (refreshWindow state.mac state.macState now) now = true

/-- `recv` on the frame as sent, then `getmsg` until it stops. -/
def Receiver.receive (r : Receiver) (frame : Bytes) : RC × List Bytes × State :=
  let (rc, s, _) := recv r.now r.timeoutMs (.received frame) r.state
  (rc, drain s)

theorem Receiver.receive_sealed (r : Receiver) {m : Memory} {q : List Bytes} (hs : Sealed m q)
    (hq : q ≠ []) (hlo : FRAME_HEADER_SZ + (pack q).length ≤ r.state.link.rxSz)
    (hhi : r.state.link.rxSz ≤ 255) :
    (r.receive (read m 0 (FRAME_HEADER_SZ + (pack q).length))).1 = .ok ∧
      (r.receive (read m 0 (FRAME_HEADER_SZ + (pack q).length))).2.1 = q := by
  have hpos : 0 < (pack q).length := by
    have := List.length_pos_iff.mpr hq
    rw [pack_length]
    omega
  generalize hL : FRAME_HEADER_SZ + (pack q).length = L at hlo ⊢
  have hlen : (UInt8.ofNat r.state.link.rxSz).toNat = r.state.link.rxSz :=
    UInt8.toNat_ofNat_of_lt' (by simp only [UInt8.size]; omega)
  have htake : (read m 0 L).take (UInt8.ofNat r.state.link.rxSz).toNat = read m 0 L := by
    rw [hlen]
    exact List.take_of_length_le (by simpa using hlo)
  have hrx : Sealed (write r.state.link.rxBuf 0 (read m 0 L)) q := by
    apply hs.congr
    intro a ha
    have hsame := read_write_same r.state.link.rxBuf 0 (read m 0 L)
    rw [read_length] at hsame
    exact (read_eq_iff.mp hsame a (Nat.zero_le a) (by omega)).symm
  have hsum : headerChecksum (FrameHeader.ofMemory (write r.state.link.rxBuf 0 (read m 0 L)))
      (write r.state.link.rxBuf 0 (read m 0 L)) r.state.link.rxSz =
        some (FrameHeader.ofMemory (write r.state.link.rxBuf 0 (read m 0 L))).checksum := by
    rw [headerChecksum, hrx.payload, hL, if_neg (by omega), hrx.checksum, hL]
  have hcheck : checkFrame L
      { truncateRx (refreshed r.now r.state) with
        link :=
          { r.state.link with
            rxBuf := write r.state.link.rxBuf 0 (read m 0 L) } } = .ok := by
    simp only [checkFrame]
    rw [if_neg (by omega), hrx.payload, hL, if_neg (by simp), if_neg (by omega), hsum]
    simp
  have hrecv : recv r.now r.timeoutMs (.received (read m 0 L)) r.state =
      (.ok,
        rewind
          { truncateRx (refreshed r.now r.state) with
            link :=
              { r.state.link with
                rxBuf := write r.state.link.rxBuf 0 (read m 0 L) } },
        [.waitRecv (UInt8.ofNat r.state.link.rxSz) r.timeoutMs]) := by
    rw [recv, if_neg (by simp [r.initialized])]
    dsimp only [refreshed]
    rw [if_neg (by simp [r.active])]
    simp only [truncateRx, refreshed] at hcheck
    simp only [receiveFrame, truncateRx, htake, read_length, hcheck, if_true]
  simp only [Receiver.receive]
  rw [hrecv]
  have hreading (s : State) (q : List Bytes) (h : Reading s q FRAME_HEADER_SZ) :
      (drain s).1 = q := h.drain_eq
  refine ⟨rfl, hreading _ _ ⟨rfl, ?_, ?_, hrx.content, ?_⟩⟩
  · exact hrx.count.trans (Nat.zero_add _).symm
  · rw [← hrx.payload]
    rfl
  · intro b hb
    have := length_lt_pack hb
    omega

inductive TxOp
  | sendmsg (v : MessageVec)
  | sendmsgFlat (buf : Bytes) (sz : UInt8)
  | flush (now stamp : UInt32) (sent : Bool)

def TxOp.message : TxOp → List Bytes
  | .sendmsg v => [v.flatten]
  | .sendmsgFlat buf sz => [buf.take sz.toNat]
  | .flush _ _ _ => []

def TxOp.exec : TxOp → State → RC × State × List RadioOp
  | .sendmsg v, s => ((Layer.sendmsg v s).1, (Layer.sendmsg v s).2, [])
  | .sendmsgFlat buf sz, s => ((Layer.sendmsgFlat buf sz s).1, (Layer.sendmsgFlat buf sz s).2, [])
  | .flush now stamp sent, s => Layer.flush now stamp sent s

def framesOf (ops : List RadioOp) : List Bytes :=
  ops.filterMap fun
    | .send frame => some frame
    | _ => none

/-- What a run of transmit calls has done so far. -/
structure Sent where
  state : State
  accepted : List Bytes
  frames : List Bytes

/-- Only a call that returned `ok` queued its message or got its frame out. -/
def TxOp.step (r : Sent) (op : TxOp) : Sent :=
  let (rc, s, radio) := op.exec r.state
  if rc = .ok then ⟨s, r.accepted ++ op.message, r.frames ++ framesOf radio⟩
  else ⟨s, r.accepted, r.frames⟩

private theorem TxOp.step_ok (r : Sent) (op : TxOp) (h : (op.exec r.state).1 = .ok) :
    TxOp.step r op =
      ⟨(op.exec r.state).2.1, r.accepted ++ op.message,
        r.frames ++ framesOf (op.exec r.state).2.2⟩ := if_pos h

private theorem TxOp.step_rejected (r : Sent) (op : TxOp) (h : (op.exec r.state).1 ≠ .ok) :
    TxOp.step r op = ⟨(op.exec r.state).2.1, r.accepted, r.frames⟩ := if_neg h

def runTx (ops : List TxOp) (s : State) : Sent := ops.foldl TxOp.step ⟨s, [], []⟩

theorem sendFrame_eq (stamp : UInt32) (sent : Bool) {s : State} {q : List Bytes}
    (hq : Queued s q) (hsz : s.link.txSz ≤ 255) :
    let buf := write s.link.txBuf 0 (headerOf stamp s).toBytes
    let s' : State := { s with link := { s.link with txBuf := buf } }
    sendFrame stamp sent s =
      (if sent then .ok else .flushFailed, if sent then truncateTx s' else s',
        [.send (read buf 0 (FRAME_HEADER_SZ + (pack q).length))]) := by
  simp only [sendFrame, fillFrameHeader_eq stamp hq hsz, Bool.true_eq_false, if_false,
    Nat.add_assoc, hq.used]
  split_ifs <;> rfl

theorem flush_cases (now stamp : UInt32) (sent : Bool) {s : State} {q : List Bytes}
    (hq : Queued s q) (hsz : s.link.txSz ≤ 255) :
    let r := Layer.flush now stamp sent s
    r.1 ≠ .headerError ∧ Kept s r.2.1 ∧
      (r.1 ≠ .ok ∧ Queued r.2.1 q ∨
        r.1 = .ok ∧ Queued r.2.1 [] ∧ ∃ m, Sealed m q ∧
          framesOf r.2.2 = [read m 0 (FRAME_HEADER_SZ + (pack q).length)]) := by
  have hroom := hq.room
  have hq' : Queued (refreshed now s) q := ⟨hq.count, hq.bytes, hq.room, hq.content⟩
  intro r
  unfold r
  rw [Layer.flush]
  dsimp only
  split_ifs with hi ha
  · exact ⟨by simp, Kept.refl s, Or.inl ⟨by simp, hq⟩⟩
  · exact ⟨by simp, ⟨rfl, rfl, fun _ _ => rfl⟩, Or.inl ⟨by simp, hq'⟩⟩
  · have hsealed := sealed_header stamp hq' hsz
    have hbeyond : ∀ a, s.link.txSz ≤ a →
        write s.link.txBuf 0 (headerOf stamp (refreshed now s)).toBytes a = s.link.txBuf a :=
      fun a hle => write_outside _ _ _ (Or.inr (by rw [toBytes_length]; omega))
    rw [sendFrame_eq stamp sent hq' hsz]
    dsimp only
    split_ifs with hs
    · exact ⟨by simp, ⟨rfl, rfl, hbeyond⟩, Or.inr ⟨rfl, ⟨rfl, rfl,
        (Nat.le_add_right _ _).trans hroom, rfl⟩, _, hsealed, rfl⟩⟩
    · exact ⟨by simp, ⟨rfl, rfl, hbeyond⟩,
        Or.inl ⟨by simp, hq.count, hq.bytes, hq.room, hsealed.content⟩⟩

/-- Frames that each hold a whole queue, in the order the queues were filled. -/
inductive Carries (txSz : Nat) : List Bytes → List Bytes → Prop
  | nil : Carries txSz [] []
  | snoc {frames : List Bytes} {msgs q : List Bytes} {m : Memory} (h : Carries txSz frames msgs)
      (hs : Sealed m q) (hsz : FRAME_HEADER_SZ + (pack q).length ≤ txSz) :
      Carries txSz (frames ++ [read m 0 (FRAME_HEADER_SZ + (pack q).length)]) (msgs ++ q)

private theorem Carries.length_le {txSz : Nat} {frames msgs : List Bytes}
    (h : Carries txSz frames msgs) {f : Bytes} (hf : f ∈ frames) : f.length ≤ txSz := by
  induction h with
  | nil => exact absurd hf List.not_mem_nil
  | snoc _ _ hsz ih =>
      cases List.mem_append.mp hf with
      | inl hmem =>
          exact ih hmem
      | inr hmem =>
          rwa [List.mem_singleton.mp hmem, read_length]

/-- The invariant of a run: frames sent and queue together hold what was accepted. -/
structure Faithful (s₀ : State) (r : Sent) : Prop where
  kept : Kept s₀ r.state
  split : ∃ msgs q, r.accepted = msgs ++ q ∧ Queued r.state q ∧
    Carries s₀.link.txSz r.frames msgs

private theorem sendmsg_step {s₀ : State} {r : Sent} (h : Faithful s₀ r) (v : MessageVec) :
    Faithful s₀ (TxOp.step r (.sendmsg v)) := by
  obtain ⟨hkept, msgs, q, hacc, hq, hframes⟩ := h
  by_cases hok : (Layer.sendmsg v r.state).1 = .ok
  · obtain ⟨hq', hkept'⟩ := sendmsg_accepted hq hok
    rw [TxOp.step_ok r (.sendmsg v) hok]
    refine ⟨hkept.trans hkept', msgs, q ++ [v.flatten], ?_, hq', ?_⟩
    · rw [hacc, List.append_assoc]
      rfl
    · simpa [framesOf, TxOp.exec] using hframes
  · have hsame := sendmsg_rejected hok
    rw [TxOp.step_rejected r (.sendmsg v) hok]
    simp only [TxOp.exec, hsame]
    exact ⟨hkept, msgs, q, hacc, hq, hframes⟩

private theorem flush_step {s₀ : State} {r : Sent} (hsz : s₀.link.txSz ≤ 255) (h : Faithful s₀ r)
    (now stamp : UInt32) (sent : Bool) : Faithful s₀ (TxOp.step r (.flush now stamp sent)) := by
  obtain ⟨hkept, msgs, q, hacc, hq, hframes⟩ := h
  have hsz' : r.state.link.txSz ≤ 255 := hkept.txSz ▸ hsz
  obtain ⟨-, hkept', ⟨hfail, hq'⟩ | ⟨hok, hq', m, hs, hframe⟩⟩ :=
    flush_cases now stamp sent hq hsz'
  · rw [TxOp.step_rejected r (.flush now stamp sent) hfail]
    exact ⟨hkept.trans hkept', msgs, q, hacc, hq', hframes⟩
  · rw [TxOp.step_ok r (.flush now stamp sent) hok]
    refine ⟨hkept.trans hkept', msgs ++ q, [], ?_, hq', ?_⟩
    · simpa [TxOp.message] using hacc
    · change Carries _ (r.frames ++ framesOf (Layer.flush now stamp sent r.state).2.2) _
      rw [hframe]
      exact hframes.snoc hs (hkept.txSz ▸ hq.room)

private theorem step_sendmsgFlat (r : Sent) (buf : Bytes) (sz : UInt8) :
    TxOp.step r (.sendmsgFlat buf sz) = TxOp.step r (.sendmsg [buf.take sz.toNat]) := by
  have hmsg : (TxOp.sendmsgFlat buf sz).message = (TxOp.sendmsg [buf.take sz.toNat]).message := by
    simp [TxOp.message]
  unfold TxOp.step
  rw [hmsg]
  rfl

private theorem runTx_faithful {s₀ : State} (hsz : s₀.link.txSz ≤ 255) (hq : Queued s₀ [])
    (ops : List TxOp) : Faithful s₀ (runTx ops s₀) := by
  suffices h : ∀ r, Faithful s₀ r → Faithful s₀ (ops.foldl TxOp.step r) from
    h _ ⟨Kept.refl s₀, [], [], rfl, hq, Carries.nil⟩
  induction ops with
  | nil => exact fun r h => h
  | cons op ops ih =>
      intro r h
      apply ih
      cases op with
      | sendmsg v => exact sendmsg_step h v
      | sendmsgFlat buf sz =>
          rw [step_sendmsgFlat]
          exact sendmsg_step h [buf.take sz.toNat]
      | flush now stamp sent => exact flush_step hsz h now stamp sent

private theorem op_rejected {s : State} {q : List Bytes} (hq : Queued s q) (hsz : s.link.txSz ≤ 255)
    {op : TxOp} (hop : (op.exec s).1 ≠ .ok) :
    (op.exec s).2.1 = s ∨ Kept s (op.exec s).2.1 ∧ Queued (op.exec s).2.1 q := by
  cases op with
  | sendmsg v => exact Or.inl (sendmsg_rejected hop)
  | sendmsgFlat buf sz => exact Or.inl (sendmsg_rejected (v := [buf.take sz.toNat]) hop)
  | flush now stamp sent =>
      obtain ⟨-, hkept, ⟨-, hq'⟩ | ⟨hok, -⟩⟩ := flush_cases now stamp sent hq hsz
      · exact Or.inr ⟨hkept, hq'⟩
      · exact absurd hok hop

/-- A frame on its way to one receiver. -/
abbrev Delivery := Bytes × Receiver

private theorem Carries.receive {txSz : Nat} {frames msgs : List Bytes}
    (h : Carries txSz frames msgs) {deliveries : List Delivery}
    (hframes : deliveries.map Prod.fst = frames.filter fun f => FRAME_HEADER_SZ < f.length)
    (hrx : ∀ d ∈ deliveries, d.1.length ≤ d.2.state.link.rxSz ∧ d.2.state.link.rxSz ≤ 255) :
    (∀ d ∈ deliveries, (d.2.receive d.1).1 = .ok) ∧
      deliveries.flatMap (fun d => (d.2.receive d.1).2.1) = msgs := by
  induction h generalizing deliveries with
  | nil =>
      have hnil : deliveries = [] := List.map_eq_nil_iff.mp hframes
      subst hnil
      simp
  | @snoc frames msgs q m _ hs hsz ih =>
      rw [List.filter_append] at hframes
      obtain ⟨ds, last, rfl, hds, hlast⟩ := List.map_eq_append_iff.mp hframes
      obtain ⟨hok, hmsgs⟩ := ih hds fun d hd => hrx d (List.mem_append_left _ hd)
      by_cases hq : q = []
      · subst hq
        rw [List.filter_cons_of_neg (by simp), List.filter_nil] at hlast
        have hnil : last = [] := List.map_eq_nil_iff.mp hlast
        subst hnil
        rw [List.append_nil, List.append_nil]
        exact ⟨hok, hmsgs⟩
      · have hpos : 0 < (pack q).length := by
          have := List.length_pos_iff.mpr hq
          rw [pack_length]
          omega
        rw [List.filter_cons_of_pos (by simpa using hpos), List.filter_nil] at hlast
        obtain ⟨d, rfl, hd⟩ := List.map_eq_singleton_iff.mp hlast
        have hfit := hrx d (by simp)
        rw [hd, read_length] at hfit
        obtain ⟨hrc, hgot⟩ := d.2.receive_sealed hs hq hfit.1 hfit.2
        rw [← hd] at hrc hgot
        constructor
        · intro d' hd'
          cases List.mem_append.mp hd' with
          | inl hmem =>
              exact hok d' hmem
          | inr hmem =>
              rw [List.mem_singleton.mp hmem]
              exact hrc
        · simp [hmsgs, hgot]

/-- Every accepted message is received exactly once and in order or still queued, and no call on
the transmit side loses queued messages, fails on the header or writes beyond the buffer. -/
theorem accepted_delivered_or_queued (s₀ : State) (hlo : FRAME_HEADER_SZ < s₀.link.txSz)
    (hhi : s₀.link.txSz ≤ 255) (hempty : s₀.state.txMsgCount = 0 ∧ s₀.state.txBytesQueued = 0)
    (ops : List TxOp) :
    let r := runTx ops s₀
    (∀ deliveries : List Delivery,
      deliveries.map Prod.fst = r.frames.filter (fun f => FRAME_HEADER_SZ < f.length) →
      (∀ d ∈ deliveries, s₀.link.txSz ≤ d.2.state.link.rxSz ∧ d.2.state.link.rxSz ≤ 255) →
        (∀ d ∈ deliveries, (d.2.receive d.1).1 = .ok ∧
          (getmsg (d.2.receive d.1).2.2).1 ≠ .ok) ∧
        deliveries.flatMap (fun d => (d.2.receive d.1).2.1) ++ queued r.state = r.accepted) ∧
    (∀ op : TxOp, (op.exec r.state).1 ≠ .ok →
      queued (op.exec r.state).2.1 = queued r.state ∧
        (op.exec r.state).2.1.state.txMsgCount = r.state.state.txMsgCount ∧
        (op.exec r.state).2.1.state.txBytesQueued = r.state.state.txBytesQueued ∧
        read (op.exec r.state).2.1.link.txBuf FRAME_HEADER_SZ
            (r.state.state.txMsgCount + r.state.state.txBytesQueued) =
          read r.state.link.txBuf FRAME_HEADER_SZ
            (r.state.state.txMsgCount + r.state.state.txBytesQueued)) ∧
    (∀ a, s₀.link.txSz ≤ a → r.state.link.txBuf a = s₀.link.txBuf a) ∧
    (∀ now stamp sent, (Layer.flush now stamp sent r.state).1 ≠ .headerError) := by
  intro r
  have hq₀ : Queued s₀ [] := ⟨hempty.1, hempty.2, hlo.le, rfl⟩
  obtain ⟨hkept, msgs, q, hacc, hq, hframes⟩ := runTx_faithful hhi hq₀ ops
  have hsz : r.state.link.txSz ≤ 255 := hkept.txSz ▸ hhi
  refine ⟨?_, ?_, hkept.beyond, fun now stamp sent =>
    (flush_cases now stamp sent hq hsz).1⟩
  · intro deliveries hds hrx
    have hshort : ∀ d ∈ deliveries, d.1.length ≤ s₀.link.txSz := fun d hd =>
      hframes.length_le (List.mem_filter.mp (hds ▸ List.mem_map_of_mem hd)).1
    obtain ⟨hok, hmsgs⟩ := hframes.receive hds fun d hd =>
      ⟨(hshort d hd).trans (hrx d hd).1, (hrx d hd).2⟩
    refine ⟨fun d hd => ⟨hok d hd, drain_stops _⟩, ?_⟩
    rw [hmsgs, hq.queued_eq hsz, hacc]
  · intro op hop
    rcases op_rejected hq hsz hop with h | ⟨hkept', hq'⟩
    · rw [h]
      exact ⟨rfl, rfl, rfl, rfl⟩
    · refine ⟨?_, hq'.count.trans hq.count.symm, hq'.bytes.trans hq.bytes.symm, ?_⟩
      · rw [hq'.queued_eq (hkept'.txSz ▸ hsz), hq.queued_eq hsz]
      · rw [hq.used, hq'.content, hq.content]

def listener : Receiver where
  state := Windows.started ⟨2, 0⟩ setupMac setupLink 71
  now := 72
  timeoutMs := 1000
  initialized := rfl
  active := by decide

theorem three_messages_delivered_or_queued :
    let ops : List TxOp :=
      [.sendmsg [[1, 2], [3]], .flush 72 72 false, .sendmsgFlat [4, 5, 6] 2, .flush 72 72 true,
        .flush 73 73 true, .sendmsgFlat [7] 1]
    let r := runTx ops (Windows.started ⟨1, 0⟩ setupMac setupLink 71)
    ((r.frames.filter fun f => FRAME_HEADER_SZ < f.length).flatMap
      fun f => (listener.receive f).2.1) ++ queued r.state = [[1, 2, 3], [4, 5], [7]] := by
  intro ops r
  have h := (accepted_delivered_or_queued (Windows.started ⟨1, 0⟩ setupMac setupLink 71)
    (by decide) (by decide) ⟨rfl, rfl⟩ ops).1
    ((r.frames.filter fun f => FRAME_HEADER_SZ < f.length).map fun f => (f, listener))
    (by simp only [List.map_map, Function.comp_def, List.map_id'] ; rfl)
    (fun d hd => by
      obtain ⟨f, -, rfl⟩ := List.mem_map.mp hd
      exact ⟨le_rfl, le_rfl⟩)
  rw [List.flatMap_map] at h
  have hacc : r.accepted = [[1, 2, 3], [4, 5], [7]] := by decide
  exact h.2.trans hacc

end LoraMultihop.Link.Transport
