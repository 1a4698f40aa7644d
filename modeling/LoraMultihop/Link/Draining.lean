/- digest: The bytes of the receive buffer that a drain of a frame looks at. -/

import Mathlib.Tactic
import LoraMultihop.Link.Receive

set_option autoImplicit false
set_option relaxedAutoImplicit false

namespace LoraMultihop.Link.Draining

open LoraMultihop.Foundation.ByteMemory
open LoraMultihop.Foundation.LengthPrefix
open LoraMultihop.Link.Layer
open LoraMultihop.Link.Transport
open LoraMultihop.Link.Receive

/-- The offsets that a call of `getmsg` reads, in order: the count of the header, the length byte at
the cursor, the payload size of the header. -/
def getmsgReads (s : State) : List Nat :=
  match s.state.rxCursor with
  | none => []
  | some cursor =>
      if (FrameHeader.ofMemory s.link.rxBuf).messageCount.toNat ≤ s.state.rxMsgNum then [9]
      else [9, cursor, 2, 3]

/-- A call of `getmsg` goes by these bytes alone. -/
theorem getmsg_reads_only {s : State} {m : Memory}
    (h : ∀ a ∈ getmsgReads s, m a = s.link.rxBuf a) :
    (Layer.getmsg { s with link := { s.link with rxBuf := m } }).1 = (Layer.getmsg s).1 ∧
      (Layer.getmsg { s with link := { s.link with rxBuf := m } }).2.2.state =
        (Layer.getmsg s).2.2.state := by
  rw [getmsgReads] at h
  rw [Layer.getmsg, Layer.getmsg]
  dsimp only
  cases hc : s.state.rxCursor with
  | none => exact ⟨rfl, rfl⟩
  | some cursor =>
      rw [hc] at h
      dsimp only at h ⊢
      have hcount : (FrameHeader.ofMemory m).messageCount =
          (FrameHeader.ofMemory s.link.rxBuf).messageCount := by
        apply h
        split_ifs <;> simp
      rw [hcount]
      by_cases hnum : (FrameHeader.ofMemory s.link.rxBuf).messageCount.toNat ≤ s.state.rxMsgNum
      · rw [if_pos hnum, if_pos hnum]
        exact ⟨rfl, rfl⟩
      · rw [if_neg hnum] at h
        have hpayload : (FrameHeader.ofMemory m).payloadBytes =
            (FrameHeader.ofMemory s.link.rxBuf).payloadBytes := by
          simp only [FrameHeader.ofMemory, read_cons, read_zero]
          rw [h 2 (by simp), h 3 (by simp)]
        rw [if_neg hnum, if_neg hnum, hpayload, h cursor (by simp)]
        split_ifs
        · exact ⟨rfl, rfl⟩
        · exact ⟨rfl, rfl⟩

def drainReadsFuel : Nat → State → List Nat
  | 0, s => getmsgReads s
  | fuel + 1, s =>
      getmsgReads s ++
        if (Layer.getmsg s).1 = .ok then drainReadsFuel fuel (Layer.getmsg s).2.2 else []

/-- The offsets that the calls of a drain read, up to the one that stops it. -/
def drainReads (s : State) : List Nat := drainReadsFuel (remaining s) s

def frameEnd (s : State) : Nat :=
  FRAME_HEADER_SZ + (FrameHeader.ofMemory s.link.rxBuf).payloadBytes.toNat

def payload (s : State) : Bytes :=
  read s.link.rxBuf FRAME_HEADER_SZ (FrameHeader.ofMemory s.link.rxBuf).payloadBytes.toNat

/-- A drain looks at bytes of the frame only, and returns slices of its payload, each behind its
length byte, from the start on, at most as many as the header counts. -/
structure DrainsInside (s : State) : Prop where
  reads : ∀ a ∈ drainReads s, a < frameEnd s
  slices : pack (drain s).1 <+: payload s
  stops : (Layer.getmsg (drain s).2).1 = .noMsg ∨ (Layer.getmsg (drain s).2).1 = .outOfBounds
  count : (drain s).1.length ≤ (FrameHeader.ofMemory s.link.rxBuf).messageCount.toNat

private theorem drainReads_of_ok {s : State} (h : (Layer.getmsg s).1 = .ok) :
    drainReads s = getmsgReads s ++ drainReads (Layer.getmsg s).2.2 := by
  rw [drainReads, getmsg_remaining h, drainReadsFuel, if_pos h]
  rfl

private theorem drainReads_of_stop {s : State} (h : (Layer.getmsg s).1 ≠ .ok) :
    drainReads s = getmsgReads s := by
  rw [drainReads]
  cases remaining s with
  | zero => rfl
  | succ n => rw [drainReadsFuel, if_neg h, List.append_nil]

/-- The reader stands before the bytes `rest` of the payload. -/
structure Standing (s : State) (pos : Nat) (rest : Bytes) : Prop where
  cursor : s.state.rxCursor = some pos
  behind : FRAME_HEADER_SZ ≤ pos
  stop : frameEnd s = pos + rest.length
  content : read s.link.rxBuf pos rest.length = rest

section Steps

variable {s : State} {pos : Nat} {rest : Bytes} {c : UInt8}

private theorem count_of_remaining (hr : 0 < remaining s) :
    ¬ (FrameHeader.ofMemory s.link.rxBuf).messageCount.toNat ≤ s.state.rxMsgNum := by
  rw [remaining] at hr
  omega

theorem drain_stopped
    (h : (Layer.getmsg s).1 = .noMsg ∨ (Layer.getmsg s).1 = .outOfBounds) :
    Transport.drain s = ([], s) ∧ drainReads s = getmsgReads s := by
  have hno : (Layer.getmsg s).1 ≠ .ok := by
    rcases h with hrc | hrc
    · simp [hrc]
    · simp [hrc]
  exact ⟨drain_of_stop hno, drainReads_of_stop hno⟩

theorem Standing.done (h : Standing s pos rest) (hr : remaining s = 0) :
    (Layer.getmsg s).1 = .noMsg ∧ getmsgReads s = [9] := by
  have hnum : (FrameHeader.ofMemory s.link.rxBuf).messageCount.toNat ≤ s.state.rxMsgNum := by
    rw [remaining] at hr
    omega
  rw [Layer.getmsg, getmsgReads, h.cursor]
  dsimp only
  rw [if_pos hnum, if_pos hnum]
  exact ⟨rfl, rfl⟩

private theorem Standing.reads (h : Standing s pos rest) (hr : 0 < remaining s) :
    getmsgReads s = [9, pos, 2, 3] := by
  rw [getmsgReads, h.cursor]
  exact if_neg (count_of_remaining hr)

theorem Standing.ended (h : Standing s pos []) (hr : 0 < remaining s) :
    (Layer.getmsg s).1 = .outOfBounds := by
  have hstop := h.stop
  rw [frameEnd, List.length_nil] at hstop
  rw [Layer.getmsg, h.cursor]
  dsimp only
  rw [if_neg (count_of_remaining hr), if_pos (by omega)]

private theorem Standing.head (h : Standing s pos (c :: rest)) :
    s.link.rxBuf pos = c ∧ read s.link.rxBuf (pos + 1) rest.length = rest := by
  have hcontent := h.content
  rw [List.length_cons, read_cons] at hcontent
  exact List.cons.inj hcontent

theorem Standing.overruns (h : Standing s pos (c :: rest)) (hr : 0 < remaining s)
    (hlen : rest.length < c.toNat) : (Layer.getmsg s).1 = .outOfBounds := by
  have hstop := h.stop
  rw [frameEnd, List.length_cons] at hstop
  rw [Layer.getmsg, h.cursor]
  dsimp only
  rw [if_neg (count_of_remaining hr), h.head.1, if_pos (by omega)]

theorem Standing.next (h : Standing s pos (c :: rest)) (hr : 0 < remaining s)
    (hlen : c.toNat ≤ rest.length) :
    (Layer.getmsg s).1 = .ok ∧ (Layer.getmsg s).2.1 = rest.take c.toNat ∧
      (Layer.getmsg s).2.2.link = s.link ∧
      Standing (Layer.getmsg s).2.2 (pos + c.toNat + 1) (rest.drop c.toNat) := by
  have hstop := h.stop
  rw [List.length_cons] at hstop
  obtain ⟨hhead, htail⟩ := h.head
  obtain ⟨rest', hrest'⟩ := Nat.exists_eq_add_of_le hlen
  rw [hrest', read_append] at htail
  have hget : Layer.getmsg s = (.ok, read s.link.rxBuf (pos + 1) c.toNat,
      { s with
        state :=
          { s.state with
            rxCursor := some (pos + c.toNat + 1)
            rxMsgNum := s.state.rxMsgNum + 1 } }) := by
    rw [frameEnd] at hstop
    rw [Layer.getmsg, h.cursor]
    dsimp only
    rw [if_neg (count_of_remaining hr), hhead, if_neg (by omega)]
  have hlast : rest.length - c.toNat = rest' := by omega
  rw [hget]
  refine ⟨rfl, ?_, rfl, rfl, ?_, ?_, ?_⟩
  · rw [← htail, List.take_left' (read_length _ _ _)]
  · have := h.behind
    omega
  · rw [List.length_drop]
    change frameEnd s = _
    omega
  · rw [List.length_drop, hlast, ← htail, List.drop_left' (read_length _ _ _)]
    dsimp only
    rw [show pos + c.toNat + 1 = pos + 1 + c.toNat by omega]

end Steps

private theorem Standing.drain {s : State} {pos : Nat} {rest : Bytes} (h : Standing s pos rest) :
    ((∀ a ∈ drainReads s, a < frameEnd s) ↔ ¬ PacksFewer (remaining s) rest) ∧
      pack (Transport.drain s).1 <+: rest ∧
      ((Layer.getmsg (Transport.drain s).2).1 = .noMsg ∨
        (Layer.getmsg (Transport.drain s).2).1 = .outOfBounds) ∧
      (Transport.drain s).1.length ≤ remaining s := by
  have hbehind : FRAME_HEADER_SZ ≤ frameEnd s := Nat.le_add_right _ _
  unfold FRAME_HEADER_SZ at hbehind
  induction hr : remaining s generalizing s pos rest with
  | zero =>
      obtain ⟨hrc, hreads⟩ := h.done hr
      obtain ⟨hdrain, hlast⟩ := drain_stopped (Or.inl hrc)
      rw [hdrain, hlast, hreads]
      refine ⟨iff_of_true ?_ (not_packsFewer_zero rest), List.nil_prefix, Or.inl hrc, le_rfl⟩
      intro a ha
      rw [List.mem_singleton.mp ha]
      omega
  | succ n ih =>
      have hpos : 0 < remaining s := by omega
      have hreads := h.reads hpos
      have hstop := h.stop
      cases rest with
      | nil =>
          have hrc := h.ended hpos
          obtain ⟨hdrain, hlast⟩ := drain_stopped (Or.inr hrc)
          rw [hdrain, hlast, hreads]
          refine ⟨iff_of_false ?_ ?_, List.nil_prefix, Or.inr hrc, Nat.zero_le _⟩
          · intro hinside
            have hlt := hinside pos (by simp)
            rw [List.length_nil] at hstop
            omega
          · exact not_not_intro (packsFewer_nil (Nat.succ_pos n))
      | cons c rest =>
          rw [List.length_cons] at hstop
          by_cases hlen : c.toNat ≤ rest.length
          · obtain ⟨hok, hmsg, hlink, hnext⟩ := h.next hpos hlen
            have hrem := getmsg_remaining hok
            have hend : frameEnd (Layer.getmsg s).2.2 = frameEnd s := by
              rw [frameEnd, frameEnd, hlink]
            obtain ⟨hiff, hslices, hstops, hcount⟩ := ih hnext (by omega) (by omega)
            rw [hend] at hiff
            rw [drain_of_ok hok, drainReads_of_ok hok, hreads, hmsg]
            refine ⟨?_, pack_cons_prefix hlen hslices, hstops, Nat.succ_le_succ hcount⟩
            rw [packsFewer_cons, and_iff_right hlen, ← hiff]
            simp only [List.mem_append, or_imp, forall_and]
            refine and_iff_right ?_
            intro a ha
            simp only [List.mem_cons, List.not_mem_nil, or_false] at ha
            omega
          · have hrc := h.overruns hpos (Nat.lt_of_not_le hlen)
            obtain ⟨hdrain, hlast⟩ := drain_stopped (Or.inr hrc)
            rw [hdrain, hlast, hreads]
            refine ⟨iff_of_true ?_ ?_, List.nil_prefix, Or.inr hrc, Nat.zero_le _⟩
            · intro a ha
              simp only [List.mem_cons, List.not_mem_nil, or_false] at ha
              omega
            · rw [packsFewer_cons]
              exact fun hfits => hlen hfits.1

section Frames

variable {s : State} {now timeoutMs : UInt32} {packet : Bytes}

theorem recv_received (h : (Layer.recv now timeoutMs (.received packet) s).1 = .ok) :
    Layer.recv now timeoutMs (.received packet) s =
      receiveFrame timeoutMs (.received packet) (refreshed now s) := by
  rw [Layer.recv] at h ⊢
  dsimp only at h ⊢
  split_ifs at h ⊢
  rfl

theorem recv_standing (h : (Layer.recv now timeoutMs (.received packet) s).1 = .ok) :
    let s' := (Layer.recv now timeoutMs (.received packet) s).2.1
    Standing s' FRAME_HEADER_SZ ((written packet s).drop FRAME_HEADER_SZ) ∧
      payload s' = (written packet s).drop FRAME_HEADER_SZ ∧
      (FrameHeader.ofMemory s'.link.rxBuf).messageCount = (written packet s).getD 9 0 ∧
      remaining s' = (FrameHeader.ofMemory s'.link.rxBuf).messageCount.toNat := by
  intro s'
  unfold s'
  have heq := recv_received h
  rw [heq] at h ⊢
  have hnum : (receiveFrame timeoutMs (.received packet) (refreshed now s)).2.1.state.rxMsgNum =
      0 := by
    simp only [receiveFrame] at h ⊢
    rw [if_pos h]
    rfl
  obtain ⟨⟨hlt, htotal, -⟩, hheld, hcursor⟩ := receiveFrame_accepted h
  generalize (receiveFrame timeoutMs (.received packet) (refreshed now s)).2.1 = t at *
  change Holds t.link.rxBuf (written packet s) at hheld
  have hframe : written packet (refreshed now s) = written packet s := rfl
  rw [hframe] at hlt htotal
  rw [← hheld.header hlt] at htotal
  have hlen : ((written packet s).drop FRAME_HEADER_SZ).length =
      (FrameHeader.ofMemory t.link.rxBuf).payloadBytes.toNat := by
    rw [List.length_drop]
    omega
  have hpayload : payload t = (written packet s).drop FRAME_HEADER_SZ := by
    rw [payload, hheld.block (Nat.le_of_eq htotal), ← hlen, List.take_length]
  refine ⟨⟨hcursor, le_rfl, ?_, ?_⟩, hpayload, ?_, ?_⟩
  · rw [frameEnd, hlen]
  · rw [hlen]
    exact hpayload
  · have hnine : 9 < (written packet s).length := lt_of_lt_of_le (by decide) (Nat.le_of_lt hlt)
    change t.link.rxBuf 9 = _
    rw [hheld.agree hnine, write, if_pos ⟨Nat.zero_le _, by omega⟩]
  · rw [remaining, hnum, Nat.sub_zero]

/-- Draining a frame that `recv` has accepted stays inside the frame exactly if its payload is not
made up of fewer messages than its header counts: then the length byte of a message behind the end
of the frame would be read. Everything else holds of every accepted frame. -/
theorem drains_inside_iff (h : (Layer.recv now timeoutMs (.received packet) s).1 = .ok) :
    DrainsInside (Layer.recv now timeoutMs (.received packet) s).2.1 ↔
      ¬ PacksFewer ((written packet s).getD 9 0).toNat
        ((written packet s).drop FRAME_HEADER_SZ) := by
  obtain ⟨hstanding, hpayload, hcount, hremaining⟩ := recv_standing h
  obtain ⟨hiff, hslices, hstops, hle⟩ := hstanding.drain
  rw [hremaining, hcount] at hiff
  rw [hremaining] at hle
  rw [← hiff]
  constructor
  · exact fun hinside => hinside.reads
  · intro hreads
    exact ⟨hreads, hpayload ▸ hslices, hstops, hle⟩

end Frames

/-- The frame of one message, with a header that counts two. -/
def overcounted : Bytes := [143, 0, 2, 0, 72, 0, 0, 0, 1, 2, 0, 0, 1, 65]

def tightListener : State :=
  { listener.state with link := { listener.state.link with rxSz := 14 } }

/-- The length byte of the second message is read behind the frame and behind the buffer. -/
theorem overcounted_read_behind_buffer :
    (Layer.recv 72 1000 (.received overcounted) tightListener).1 = .ok ∧
      14 ∈ drainReads (Layer.recv 72 1000 (.received overcounted) tightListener).2.1 ∧
      frameEnd (Layer.recv 72 1000 (.received overcounted) tightListener).2.1 = 14 ∧
      ¬ DrainsInside (Layer.recv 72 1000 (.received overcounted) tightListener).2.1 := by
  have hread : 14 ∈ drainReads (Layer.recv 72 1000 (.received overcounted) tightListener).2.1 := by
    decide +kernel
  have hend : frameEnd (Layer.recv 72 1000 (.received overcounted) tightListener).2.1 = 14 := by
    decide +kernel
  refine ⟨by decide +kernel, hread, hend, ?_⟩
  intro hinside
  have hlt := hinside.reads 14 hread
  omega

/-- A frame of three messages, with a header that counts them. -/
def threeMessages : Bytes :=
  [97, 1, 7, 0, 72, 0, 0, 0, 1, 3, 0, 0, 1, 65, 2, 66, 67, 1, 68]

def fullListener : State :=
  { listener.state with link := { listener.state.link with rxSz := 19 } }

/-- All three messages are read, and no byte behind the frame. -/
theorem threeMessages_drained_inside :
    DrainsInside (Layer.recv 72 1000 (.received threeMessages) fullListener).2.1 ∧
      (drain (Layer.recv 72 1000 (.received threeMessages) fullListener).2.1).1 =
        [[65], [66, 67], [68]] := by
  refine ⟨(drains_inside_iff (by decide +kernel)).mpr ?_, by decide +kernel⟩
  have hframe : written threeMessages fullListener = threeMessages := by decide +kernel
  rw [hframe]
  change ¬ PacksFewer 3 [1, 65, 2, 66, 67, 1, 68]
  intro h
  have htwo := (packsFewer_cons.mp h).2
  have hone := (packsFewer_cons.mp htwo).2
  exact not_packsFewer_zero _ (packsFewer_cons.mp hone).2

end LoraMultihop.Link.Draining
