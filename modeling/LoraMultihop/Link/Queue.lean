/- digest: The link layer on queues of whole messages, and its agreement with the buffers. -/

import Mathlib.Tactic
import LoraMultihop.Link.Transport

set_option autoImplicit false
set_option relaxedAutoImplicit false

namespace LoraMultihop.Link.Queue

open LoraMultihop.Foundation.ByteMemory (Bytes)
open LoraMultihop.Foundation.LengthPrefix
open LoraMultihop.Net.Params
open LoraMultihop.Link.Mac
open LoraMultihop.Link.Layer (RC FRAME_HEADER_SZ hashCdmaCode WaitRecv)
open LoraMultihop.Link.Transport

/-- The module as its callers see it: `tx` are the messages queued, `rx` those `getmsg` has yet to
return. It stands for one with `tx_sz` at most 255, the largest frame the radio sends (`Sound`). -/
structure State where
  initialized : Bool
  mac : MacParams
  macState : MacState
  msgMaxBytes : Nat
  txSz : Nat
  code : UInt8
  tx : List Bytes
  rx : List Bytes

/-- The messages of one transmission, with the spreading code it goes out on. -/
structure Frame where
  code : UInt8
  msgs : List Bytes
  deriving DecidableEq

/-- How a wait on the radio ends for `recv`. -/
inductive Arrival
  | timedOut
  | rejected (rc : RC)
  | accepted (msgs : List Bytes)

def txBytesAvailable (s : State) : Nat := s.txSz - (FRAME_HEADER_SZ + (pack s.tx).length)

def sendmsg (b : Bytes) (s : State) : RC × State :=
  if s.initialized = false then (.notInit, s)
  else if txBytesAvailable s < b.length + 1 then (.bufSize, s)
  else if s.msgMaxBytes < b.length then (.msgTooBig, s)
  else (.ok, { s with tx := s.tx ++ [b] })

def refreshed (now : UInt32) (s : State) : State :=
  { s with macState := refreshWindow s.mac s.macState now }

/-- The last component is the frame that went out, if one did. -/
def flush (now : UInt32) (sent : Bool) (s : State) : RC × State × List Frame :=
  if s.initialized = false then (.notInit, s, [])
  else
    let s := refreshed now s
    if inActiveWindow s.macState now = false then (.notInWindow, s, [])
    else if sent then (.ok, { s with tx := [] }, [⟨s.code, s.tx⟩])
    else (.flushFailed, s, [])

def recv (now : UInt32) (arrival : Arrival) (s : State) : RC × State :=
  if s.initialized = false then (.notInit, s)
  else
    let s := refreshed now s
    if inActiveWindow s.macState now = false then (.notInWindow, s)
    else
      match arrival with
      | .timedOut => (.timedOut, { s with rx := [] })
      | .rejected rc => (rc, { s with rx := [] })
      | .accepted msgs => (.ok, { s with rx := msgs })

def getmsg (s : State) : Option Bytes × State :=
  match s.rx with
  | [] => (none, s)
  | b :: rx => (some b, { s with rx := rx })

def activeSlot (now : UInt32) (s : State) : Int × State :=
  let (slot, w) := currentSlot s.mac s.macState now
  (slot, { s with macState := w })

def setCdmaCode (id : UInt8) (s : State) : State := { s with code := hashCdmaCode id }

def init (mac : MacParams) (link : LinkParams) (now : UInt32) (s : State) : RC × State :=
  if mac.superframeSlotCount < 1 then (.invalidSlotCount, s)
  else if mac.superframeSlotS < 1 then (.invalidSlotLength, s)
  else
    (.ok,
      { initialized := true
        mac := mac
        macState := refreshWindow mac s.macState now
        msgMaxBytes := link.msgMaxBytes
        txSz := link.txSz
        code := DEFAULT_CODE
        tx := []
        rx := [] })

def epochAndOffset (n : UInt8) (now : UInt32) (s : State) : RC × Option (UInt32 × UInt32) × State :=
  if s.initialized = false then (.notInit, none, s)
  else if s.mac.superframeSlotCount ≤ n then (.invalidSlot, none, s)
  else
    let (current, w) := currentSlot s.mac s.macState now
    let offset := slotOffset s.mac w current n now
    (if current < 0 then .notInWindow else .ok, some (now + offset, offset),
      { s with macState := w })

theorem sendmsg_ok {b : Bytes} {s : State} (h : (sendmsg b s).1 = .ok) :
    (sendmsg b s).2 = { s with tx := s.tx ++ [b] } ∧ b.length + 1 ≤ txBytesAvailable s := by
  unfold sendmsg at h ⊢
  split_ifs at h ⊢ with hi ha
  exact ⟨rfl, by omega⟩

theorem sendmsg_rejected {b : Bytes} {s : State} (h : (sendmsg b s).1 ≠ .ok) :
    (sendmsg b s).2 = s := by
  unfold sendmsg at h ⊢
  split_ifs at h ⊢ <;> first | rfl | exact absurd rfl h

/-- A `recv` only refreshes the window, or it also replaces what there is to read. -/
theorem recv_cases (now : UInt32) (arrival : Arrival) (s : State) :
    (recv now arrival s).1 ≠ .ok ∧ (∃ w, (recv now arrival s).2 = { s with macState := w }) ∨
      s.initialized = true ∧ ∃ w, (recv now arrival s).2 =
        { s with
          macState := w
          rx :=
            match arrival with
            | .accepted msgs => msgs
            | _ => [] } := by
  unfold recv
  dsimp only
  split_ifs with hi hactive
  · exact Or.inl ⟨by simp, s.macState, rfl⟩
  · exact Or.inl ⟨by simp, (refreshed now s).macState, rfl⟩
  · refine Or.inr ⟨by simpa using hi, (refreshed now s).macState, ?_⟩
    cases arrival <;> rfl

theorem txBytesAvailable_append (b : Bytes) (s : State) :
    txBytesAvailable { s with tx := s.tx ++ [b] } = txBytesAvailable s - (b.length + 1) := by
  simp only [txBytesAvailable, pack_append, pack_singleton, List.length_append, List.length_cons]
  omega

/-- When a frame goes out in a `flush` at `now`. -/
def GoesOut (now : UInt32) (sent : Bool) (s : State) : Prop :=
  s.initialized = true ∧ inActiveWindow (refreshWindow s.mac s.macState now) now = true ∧
    sent = true

theorem flush_out {now : UInt32} {sent : Bool} {s : State} (h : GoesOut now sent s) :
    flush now sent s = (.ok, { refreshed now s with tx := [] }, [⟨s.code, s.tx⟩]) := by
  obtain ⟨hi, ha, hs⟩ := h
  rw [flush, if_neg (by simp [hi])]
  dsimp only [refreshed]
  rw [if_neg (by simp [ha]), if_pos hs]

/-- A `flush` that gets nothing out changes the cached window at most. -/
theorem flush_kept {now : UInt32} {sent : Bool} {s : State} (h : ¬ GoesOut now sent s) :
    (flush now sent s).1 ≠ .ok ∧ (flush now sent s).2.2 = [] ∧
      ∃ w, (flush now sent s).2.1 = { s with macState := w } := by
  rw [flush]
  dsimp only
  split_ifs with hi ha hs
  · exact ⟨by simp, rfl, s.macState, rfl⟩
  · exact ⟨by simp, rfl, _, rfl⟩
  · exact absurd ⟨by simpa using hi, by simpa [refreshed] using ha, hs⟩ h
  · exact ⟨by simp, rfl, _, rfl⟩

def view (s : Layer.State) : State where
  initialized := s.initialized
  mac := s.mac
  macState := s.macState
  msgMaxBytes := s.link.msgMaxBytes
  txSz := s.link.txSz
  code := s.state.code
  tx := queued s
  rx := (drain s).1

/-- A state whose transmit buffer holds a queue of whole messages. -/
def Sound (s : Layer.State) : Prop := s.link.txSz ≤ 255 ∧ ∃ q, Queued s q

theorem Sound.queued {s : Layer.State} (h : Sound s) : Queued s (queued s) := by
  obtain ⟨hsz, q, hq⟩ := h
  rwa [hq.queued_eq hsz]

private theorem txBytesAvailable_view {s : Layer.State} (h : Sound s) :
    Layer.txBytesAvailable s = txBytesAvailable (view s) := by
  have hused := h.queued.used
  have hroom := h.queued.room
  simp only [Layer.txBytesAvailable, txBytesAvailable, view, Nat.add_assoc, hused]
  rw [if_neg (by omega)]

def receiving (s : Layer.State) : Foundation.ByteMemory.Memory × Option Nat × Nat :=
  (s.link.rxBuf, s.state.rxCursor, s.state.rxMsgNum)

private theorem getmsg_congr {s s' : Layer.State} (h : receiving s' = receiving s) :
    (Layer.getmsg s').1 = (Layer.getmsg s).1 ∧
      (Layer.getmsg s').2.1 = (Layer.getmsg s).2.1 ∧
      receiving (Layer.getmsg s').2.2 = receiving (Layer.getmsg s).2.2 := by
  have heq := h
  simp only [receiving, Prod.mk.injEq] at heq
  obtain ⟨hbuf, hcursor, hnum⟩ := heq
  unfold Layer.getmsg
  rw [hcursor, hbuf, hnum]
  dsimp only
  split
  · exact ⟨rfl, rfl, h⟩
  · split_ifs
    · exact ⟨rfl, rfl, h⟩
    · exact ⟨rfl, rfl, h⟩
    · simp [receiving, hbuf]

private theorem drain_congr {s s' : Layer.State} (h : receiving s' = receiving s) :
    (drain s').1 = (drain s).1 := by
  induction hr : remaining s generalizing s s' with
  | zero =>
      obtain ⟨hrc, -, -⟩ := getmsg_congr h
      have hstop : (Layer.getmsg s).1 ≠ .ok := by
        intro h
        have := getmsg_remaining h
        omega
      rw [drain_of_stop hstop, drain_of_stop (hrc ▸ hstop)]
  | succ n ih =>
      obtain ⟨hrc, hmsg, hnext⟩ := getmsg_congr h
      by_cases hok : (Layer.getmsg s).1 = .ok
      · have hrem := getmsg_remaining hok
        rw [drain_of_ok hok, drain_of_ok (hrc.trans hok), hmsg, ih hnext (by omega)]
      · rw [drain_of_stop hok, drain_of_stop (hrc ▸ hok)]

private theorem drain_none {s : Layer.State} (h : s.state.rxCursor = none) : (drain s).1 = [] := by
  rw [drain_of_stop]
  rw [Layer.getmsg, h]
  simp

theorem sendmsg_view (v : Layer.MessageVec) {s : Layer.State} (h : Sound s) :
    Sound (Layer.sendmsg v s).2 ∧ (Layer.sendmsg v s).1 = (sendmsg v.flatten (view s)).1 ∧
      view (Layer.sendmsg v s).2 = (sendmsg v.flatten (view s)).2 := by
  have havail := txBytesAvailable_view h
  by_cases hi : s.initialized = false
  · rw [Layer.sendmsg, sendmsg, if_pos hi, if_pos (show (view s).initialized = false from hi)]
    exact ⟨h, rfl, rfl⟩
  by_cases ha : txBytesAvailable (view s) < v.flatten.length + 1
  · rw [Layer.sendmsg, sendmsg, if_neg hi, if_neg (show ¬(view s).initialized = false from hi),
      if_pos (by rwa [havail, size_eq]), if_pos ha]
    exact ⟨h, rfl, rfl⟩
  by_cases hm : s.link.msgMaxBytes < v.flatten.length
  · rw [Layer.sendmsg, sendmsg, if_neg hi, if_neg (show ¬(view s).initialized = false from hi),
      if_neg (by rwa [havail, size_eq]), if_neg ha, if_pos (by rwa [size_eq]),
      if_pos (show (view s).msgMaxBytes < v.flatten.length from hm)]
    exact ⟨h, rfl, rfl⟩
  have hok : (Layer.sendmsg v s).1 = .ok := by
    rw [Layer.sendmsg, if_neg hi, if_neg (by rwa [havail, size_eq]), if_neg (by rwa [size_eq])]
  obtain ⟨hq, hkept⟩ := sendmsg_accepted h.queued hok
  have hsz : (Layer.sendmsg v s).2.link.txSz ≤ 255 := hkept.txSz ▸ h.1
  refine ⟨⟨hsz, _, hq⟩, ?_, ?_⟩
  · rw [hok, sendmsg, if_neg (show ¬(view s).initialized = false from hi), if_neg ha,
      if_neg (show ¬(view s).msgMaxBytes < v.flatten.length from hm)]
  · have htx := hq.queued_eq hsz
    rw [sendmsg, if_neg (show ¬(view s).initialized = false from hi), if_neg ha,
      if_neg (show ¬(view s).msgMaxBytes < v.flatten.length from hm)]
    rw [Layer.sendmsg, if_neg hi, if_neg (by rwa [havail, size_eq]), if_neg (by rwa [size_eq])]
      at htx ⊢
    dsimp only [view] at htx ⊢
    rw [htx]
    congr 1
    exact drain_congr rfl

theorem flush_view (now stamp : UInt32) (sent : Bool) {s : Layer.State} (h : Sound s) :
    Sound (Layer.flush now stamp sent s).2.1 ∧
      (Layer.flush now stamp sent s).1 = (flush now sent (view s)).1 ∧
      view (Layer.flush now stamp sent s).2.1 = (flush now sent (view s)).2.1 := by
  have hkept := (flush_cases now stamp sent h.queued h.1).2.1
  have hcase := (flush_cases now stamp sent h.queued h.1).2.2
  have hsz : (Layer.flush now stamp sent s).2.1.link.txSz ≤ 255 := hkept.txSz ▸ h.1
  by_cases hi : s.initialized = false
  · rw [Layer.flush, flush, if_pos hi, if_pos (show (view s).initialized = false from hi)]
    exact ⟨h, rfl, rfl⟩
  by_cases ha : inActiveWindow (refreshWindow s.mac s.macState now) now = false
  · rw [Layer.flush, flush, if_neg hi, if_neg (show ¬(view s).initialized = false from hi)]
    dsimp only [Layer.refreshed, refreshed]
    rw [if_pos ha, if_pos (show inActiveWindow (refreshWindow (view s).mac (view s).macState now)
      now = false from ha)]
    refine ⟨⟨h.1, _, h.queued.count, h.queued.bytes, h.queued.room, h.queued.content⟩, rfl, ?_⟩
    dsimp only [view]
    congr 1
    exact drain_congr rfl
  have hq : Queued (Layer.refreshed now s) (queued s) :=
    ⟨h.queued.count, h.queued.bytes, h.queued.room, h.queued.content⟩
  have hflush : Layer.flush now stamp sent s =
      Layer.sendFrame stamp sent (Layer.refreshed now s) := by
    rw [Layer.flush, if_neg hi]
    exact if_neg ha
  have hview : flush now sent (view s) =
      if sent then (.ok, { refreshed now (view s) with tx := [] }, [⟨s.state.code, queued s⟩])
      else (.flushFailed, refreshed now (view s), []) := by
    rw [flush, if_neg (show ¬(view s).initialized = false from hi)]
    exact if_neg ha
  rw [hflush, sendFrame_eq stamp sent hq h.1] at hcase hsz ⊢
  rw [hview]
  cases sent with
  | true =>
      obtain ⟨hfail, -⟩ | ⟨-, hq', -⟩ := hcase
      · exact absurd rfl hfail
      · refine ⟨⟨hsz, _, hq'⟩, rfl, ?_⟩
        have htx := hq'.queued_eq hsz
        simp only [if_true] at htx ⊢
        dsimp only [view, refreshed, Layer.truncateTx, Layer.refreshed] at htx ⊢
        rw [htx]
        congr 1
        exact drain_congr rfl
  | false =>
      obtain ⟨-, hq'⟩ | ⟨hok, -⟩ := hcase
      · refine ⟨⟨hsz, _, hq'⟩, rfl, ?_⟩
        have htx := hq'.queued_eq hsz
        simp only [Bool.false_eq_true, if_false] at htx ⊢
        dsimp only [view, refreshed, Layer.refreshed] at htx ⊢
        rw [htx]
        congr 1
        exact drain_congr rfl
      · exact absurd hok (by simp)

/-- How a wait ends, seen from the messages it leaves to read. -/
def arrivalOf (now timeoutMs : UInt32) (radio : WaitRecv) (s : Layer.State) : Arrival :=
  match Layer.receiveFrame timeoutMs radio (Layer.refreshed now s) with
  | (.timedOut, _, _) => .timedOut
  | (.ok, s', _) => .accepted (drain s').1
  | (rc, _, _) => .rejected rc

/-- The length of a message in a buffer is one byte. -/
theorem drain_length {s : Layer.State} {b : Bytes} (hb : b ∈ (drain s).1) : b.length ≤ 255 := by
  induction hr : remaining s generalizing s with
  | zero =>
      have hstop : (Layer.getmsg s).1 ≠ .ok := by
        intro h
        have := getmsg_remaining h
        omega
      rw [drain_of_stop hstop] at hb
      exact absurd hb List.not_mem_nil
  | succ n ih =>
      by_cases hok : (Layer.getmsg s).1 = .ok
      · have hrem := getmsg_remaining hok
        rw [drain_of_ok hok] at hb
        cases List.mem_cons.mp hb with
        | inl hb =>
            rw [hb, Layer.getmsg]
            dsimp only
            split
            · simp
            · split_ifs
              · simp
              · simp
              · simpa using Nat.le_of_lt_succ (UInt8.toNat_lt _)
        | inr hb => exact ih hb (by omega)
      · rw [drain_of_stop hok] at hb
        exact absurd hb List.not_mem_nil

theorem receiveFrame_rejected (timeoutMs : UInt32) (radio : WaitRecv) (s : Layer.State)
    (h : (Layer.receiveFrame timeoutMs radio s).1 ≠ .ok) :
    (Layer.receiveFrame timeoutMs radio s).2.1.state.rxCursor = none := by
  cases radio with
  | timedOut => rfl
  | failed => rfl
  | received packet =>
      simp only [Layer.receiveFrame] at h ⊢
      rw [if_neg h]
      rfl

theorem receiveFrame_tx (timeoutMs : UInt32) (radio : WaitRecv) (s : Layer.State) :
    let s' := (Layer.receiveFrame timeoutMs radio s).2.1
    s'.initialized = s.initialized ∧ s'.mac = s.mac ∧ s'.macState = s.macState ∧
      s'.link.msgMaxBytes = s.link.msgMaxBytes ∧ s'.link.txSz = s.link.txSz ∧
      s'.link.txBuf = s.link.txBuf ∧ s'.state.code = s.state.code ∧
      s'.state.txMsgCount = s.state.txMsgCount ∧
      s'.state.txBytesQueued = s.state.txBytesQueued := by
  cases radio with
  | timedOut => exact ⟨rfl, rfl, rfl, rfl, rfl, rfl, rfl, rfl, rfl⟩
  | failed => exact ⟨rfl, rfl, rfl, rfl, rfl, rfl, rfl, rfl, rfl⟩
  | received packet =>
      simp only [Layer.receiveFrame]
      split_ifs <;> exact ⟨rfl, rfl, rfl, rfl, rfl, rfl, rfl, rfl, rfl⟩

theorem recv_view (now timeoutMs : UInt32) (radio : WaitRecv) {s : Layer.State} (h : Sound s) :
    let r := Layer.recv now timeoutMs radio s
    Sound r.2.1 ∧ r.1 = (recv now (arrivalOf now timeoutMs radio s) (view s)).1 ∧
      view r.2.1 = (recv now (arrivalOf now timeoutMs radio s) (view s)).2 := by
  intro r
  have hq := h.queued
  unfold r
  by_cases hi : s.initialized = false
  · rw [Layer.recv, recv, if_pos hi, if_pos (show (view s).initialized = false from hi)]
    exact ⟨h, rfl, rfl⟩
  by_cases ha : inActiveWindow (refreshWindow s.mac s.macState now) now = false
  · rw [Layer.recv, recv, if_neg hi, if_neg (show ¬(view s).initialized = false from hi)]
    dsimp only [Layer.refreshed, refreshed]
    rw [if_pos ha, if_pos (show inActiveWindow (refreshWindow (view s).mac (view s).macState now)
      now = false from ha)]
    refine ⟨⟨h.1, _, hq.count, hq.bytes, hq.room, hq.content⟩, rfl, ?_⟩
    dsimp only [view]
    congr 1
    exact drain_congr rfl
  have hrecv : Layer.recv now timeoutMs radio s =
      Layer.receiveFrame timeoutMs radio (Layer.refreshed now s) := by
    rw [Layer.recv, if_neg hi]
    exact if_neg ha
  have hview (a : Arrival) : recv now a (view s) =
      match a with
      | .timedOut => (.timedOut, { refreshed now (view s) with rx := [] })
      | .rejected rc => (rc, { refreshed now (view s) with rx := [] })
      | .accepted msgs => (.ok, { refreshed now (view s) with rx := msgs }) := by
    rw [recv, if_neg (show ¬(view s).initialized = false from hi)]
    exact if_neg ha
  obtain ⟨h1, h2, h3, h4, h5, h6, h7, h8, h9⟩ :=
    receiveFrame_tx timeoutMs radio (Layer.refreshed now s)
  have hrx := receiveFrame_rejected timeoutMs radio (Layer.refreshed now s)
  rw [hrecv, hview, arrivalOf]
  generalize Layer.receiveFrame timeoutMs radio (Layer.refreshed now s) = out at *
  obtain ⟨rc, s', ops⟩ := out
  dsimp only at h1 h2 h3 h4 h5 h6 h7 h8 h9 hrx ⊢
  have hsame : view s' = { refreshed now (view s) with rx := (drain s').1 } := by
    simp only [view, refreshed, queued, h1, h2, h3, h4, h5, h6, h7, h8, Layer.refreshed]
  refine ⟨⟨h5 ▸ h.1, queued s, h8.trans hq.count, h9.trans hq.bytes, h5 ▸ hq.room,
    h6 ▸ hq.content⟩, ?_, ?_⟩
  · cases rc <;> rfl
  · rw [hsame]
    by_cases hok : rc = .ok
    · subst hok
      rfl
    · rw [drain_none (hrx hok)]
      cases rc <;> first | rfl | exact absurd rfl hok

theorem getmsg_view {s : Layer.State} (h : Sound s) :
    Sound (Layer.getmsg s).2.2 ∧
      (if (Layer.getmsg s).1 = .ok then some (Layer.getmsg s).2.1 else none) =
        (getmsg (view s)).1 ∧
      view (Layer.getmsg s).2.2 = (getmsg (view s)).2 := by
  by_cases hok : (Layer.getmsg s).1 = .ok
  · have hrx : (view s).rx = (Layer.getmsg s).2.1 :: (drain (Layer.getmsg s).2.2).1 := by
      simp only [view, drain_of_ok hok]
    have htx : ∃ state, (Layer.getmsg s).2.2 = { s with state := state } ∧
        state.txMsgCount = s.state.txMsgCount ∧ state.txBytesQueued = s.state.txBytesQueued ∧
        state.code = s.state.code := by
      unfold Layer.getmsg
      dsimp only
      split
      · exact ⟨_, rfl, rfl, rfl, rfl⟩
      · split_ifs <;> exact ⟨_, rfl, rfl, rfl, rfl⟩
    obtain ⟨state, hs, hcount, hbytes, hcode⟩ := htx
    have hq := h.queued
    rw [if_pos hok, getmsg, hrx]
    dsimp only
    refine ⟨hs ▸ ⟨h.1, _, hcount.trans hq.count, hbytes.trans hq.bytes, hq.room, hq.content⟩,
      rfl, ?_⟩
    have hdrain : (view (Layer.getmsg s).2.2).rx = (drain (Layer.getmsg s).2.2).1 := rfl
    rw [← hdrain, hs]
    simp only [view, queued, hcount, hcode]
  · have hrx : (view s).rx = [] := by simp only [view, drain_of_stop hok]
    rw [if_neg hok, getmsg_rejected hok, getmsg, hrx]
    exact ⟨h, rfl, rfl⟩

theorem activeSlot_view (now : UInt32) {s : Layer.State} (h : Sound s) :
    Sound (Layer.activeSlot now s).2 ∧
      (Layer.activeSlot now s).1 = (activeSlot now (view s)).1 ∧
      view (Layer.activeSlot now s).2 = (activeSlot now (view s)).2 := by
  have hq := h.queued
  refine ⟨⟨h.1, _, hq.count, hq.bytes, hq.room, hq.content⟩, rfl, ?_⟩
  simp only [view, activeSlot, Layer.activeSlot]
  congr 1
  exact drain_congr rfl

theorem init_view (node : NodeParams) (mac : MacParams) {link : LinkParams} (now : UInt32)
    {s : Layer.State} (h : Sound s) (hlo : FRAME_HEADER_SZ ≤ link.txSz) (hhi : link.txSz ≤ 255) :
    Sound (Layer.init node mac link now s).2 ∧
      (Layer.init node mac link now s).1 = (init mac link now (view s)).1 ∧
      view (Layer.init node mac link now s).2 = (init mac link now (view s)).2 := by
  rw [Layer.init, init]
  split_ifs
  · exact ⟨h, rfl, rfl⟩
  · exact ⟨h, rfl, rfl⟩
  · refine ⟨⟨hhi, [], rfl, rfl, hlo, rfl⟩, rfl, ?_⟩
    simp only [view, LinkState.fresh]
    congr 1
    exact drain_none rfl

theorem epochAndOffset_view (n : UInt8) (now : UInt32) {s : Layer.State} (h : Sound s) :
    Sound (Layer.epochAndOffset n now s).2.2 ∧
      (Layer.epochAndOffset n now s).1 = (epochAndOffset n now (view s)).1 ∧
      (Layer.epochAndOffset n now s).2.1 = (epochAndOffset n now (view s)).2.1 ∧
      view (Layer.epochAndOffset n now s).2.2 = (epochAndOffset n now (view s)).2.2 := by
  have hq := h.queued
  by_cases hi : s.initialized = false
  · rw [Layer.epochAndOffset, epochAndOffset, if_pos hi,
      if_pos (show (view s).initialized = false from hi)]
    exact ⟨h, rfl, rfl, rfl⟩
  by_cases hn : s.mac.superframeSlotCount ≤ n
  · rw [Layer.epochAndOffset, epochAndOffset, if_neg hi, if_pos hn,
      if_neg (show ¬(view s).initialized = false from hi),
      if_pos (show (view s).mac.superframeSlotCount ≤ n from hn)]
    exact ⟨h, rfl, rfl, rfl⟩
  · rw [Layer.epochAndOffset, epochAndOffset, if_neg hi, if_neg hn,
      if_neg (show ¬(view s).initialized = false from hi),
      if_neg (show ¬(view s).mac.superframeSlotCount ≤ n from hn)]
    refine ⟨⟨h.1, _, hq.count, hq.bytes, hq.room, hq.content⟩, rfl, rfl, ?_⟩
    dsimp only [view]
    congr 1
    exact drain_congr rfl

theorem setCdmaCode_view (id : UInt8) {s : Layer.State} (h : Sound s) :
    Sound (Layer.setCdmaCode id s).1 ∧
      view (Layer.setCdmaCode id s).1 = setCdmaCode id (view s) := by
  have hq := h.queued
  refine ⟨⟨h.1, _, hq.count, hq.bytes, hq.room, hq.content⟩, ?_⟩
  simp only [view, setCdmaCode, Layer.setCdmaCode]
  congr 1
  exact drain_congr rfl

end LoraMultihop.Link.Queue
