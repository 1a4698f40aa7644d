/- digest: Which damage to a frame `recv` notices. -/

import Mathlib.Tactic
import LoraMultihop.Foundation.ByteSum
import LoraMultihop.Link.Draining

set_option autoImplicit false
set_option relaxedAutoImplicit false

namespace LoraMultihop.Link.Corruption

open LoraMultihop.Foundation.ByteMemory
open LoraMultihop.Foundation.ByteSum
open LoraMultihop.Foundation.LengthPrefix
open LoraMultihop.Net.Params
open LoraMultihop.Link.Layer
open LoraMultihop.Link.Transport
open LoraMultihop.Link.Receive
open LoraMultihop.Link.Windows
open LoraMultihop.Link.Draining (recv_received tightListener)
open LoraMultihop.Link.Queue (Sound)

section Bytes

variable {b0 b1 b2 b3 : UInt8} {rest : Bytes}

private theorem read_frame (b0 b1 b2 b3 : UInt8) (rest : Bytes) :
    let m := write (fun _ => 0) 0 (b0 :: b1 :: b2 :: b3 :: rest)
    read m 0 2 = [b0, b1] ∧ read m 2 2 = [b2, b3] ∧
      read m 2 (rest.length + 2) = b2 :: b3 :: rest := by
  intro m
  have hread := read_write_same (fun _ => 0) 0 (b0 :: b1 :: b2 :: b3 :: rest)
  simp only [List.length_cons, read_cons, List.cons.injEq, Nat.zero_add, Nat.reduceAdd] at hread
  obtain ⟨h0, h1, h2, h3, hrest⟩ := hread
  simp only [read_cons, read_zero, Nat.zero_add, Nat.reduceAdd, List.cons.injEq, and_true]
  exact ⟨⟨h0, h1⟩, ⟨h2, h3⟩, h2, h3, hrest⟩

private theorem ofNat_leNat_two (b c : UInt8) :
    (UInt16.ofNat (leNat [b, c])).toNat = b.toNat + 256 * c.toNat := by
  have hb := b.toNat_lt
  have hc := c.toNat_lt
  rw [UInt16.toNat_ofNat_of_lt']
  · simp [leNat]
  · simp only [leNat, UInt16.size]
    omega

private theorem verified_iff :
    Verified (b0 :: b1 :: b2 :: b3 :: rest) ↔
      8 < rest.length ∧ 8 + (b2.toNat + 256 * b3.toNat) = rest.length ∧
        byteSum (b2 :: b3 :: rest) % 2 ^ 16 = b0.toNat + 256 * b1.toNat := by
  obtain ⟨hfirst, hsecond, hsummed⟩ := read_frame b0 b1 b2 b3 rest
  have hlen : (b0 :: b1 :: b2 :: b3 :: rest).length = rest.length + 4 := rfl
  rw [Verified, hlen, ← UInt16.toNat_inj, calculateChecksum, FrameHeader.ofMemory, hfirst, hsecond,
    ofNat_leNat_two, ofNat_leNat_two, show rest.length + 4 - 2 = rest.length + 2 from rfl, hsummed,
    foldl_add_toNat, UInt16.toNat_zero, Nat.zero_add]
  unfold FRAME_HEADER_SZ
  refine and_congr ?_ (and_congr_left' ?_)
  · omega
  · omega

end Bytes

section Damage

variable {frame : Bytes}

private theorem verified_length (h : Verified frame) : FRAME_HEADER_SZ < frame.length := h.1

private theorem verified_split (h : Verified frame) :
    ∃ b0 b1 b2 b3 rest, frame = b0 :: b1 :: b2 :: b3 :: rest := by
  have hlen := verified_length h
  unfold FRAME_HEADER_SZ at hlen
  rcases frame with _ | ⟨b0, _ | ⟨b1, _ | ⟨b2, _ | ⟨b3, rest⟩⟩⟩⟩
  · exact absurd hlen (by simp)
  · exact absurd hlen (by simp)
  · exact absurd hlen (by simp)
  · exact absurd hlen (by simp)
  · exact ⟨b0, b1, b2, b3, rest, rfl⟩

private theorem four_le_of_verified_take {n : Nat} (h : Verified (frame.take n)) :
    ∃ k, n = k + 4 := by
  have hlen := verified_length h
  rw [List.length_take] at hlen
  unfold FRAME_HEADER_SZ at hlen
  exact ⟨n - 4, by omega⟩

private theorem take_unverified (h : Verified frame) {n : Nat} (hn : n < frame.length) :
    ¬ Verified (frame.take n) := by
  intro hcut
  obtain ⟨b0, b1, b2, b3, rest, rfl⟩ := verified_split h
  obtain ⟨k, rfl⟩ := four_le_of_verified_take hcut
  simp only [List.take_succ_cons] at hcut
  obtain ⟨-, hpayload, -⟩ := verified_iff.mp h
  obtain ⟨-, hpayload', -⟩ := verified_iff.mp hcut
  rw [List.length_take] at hpayload'
  simp only [List.length_cons] at hn
  omega

private theorem append_unverified (h : Verified frame) {tail : Bytes} (htail : tail ≠ []) :
    ¬ Verified (frame ++ tail) := by
  intro hlong
  have hpos := List.length_pos_iff.mpr htail
  obtain ⟨b0, b1, b2, b3, rest, rfl⟩ := verified_split h
  simp only [List.cons_append] at hlong
  obtain ⟨-, hpayload, -⟩ := verified_iff.mp h
  obtain ⟨-, hpayload', -⟩ := verified_iff.mp hlong
  rw [List.length_append] at hpayload'
  omega

private theorem same_checksum {b0 b1 b2 b3 c0 c1 : UInt8} {rest : Bytes} {k : Nat}
    (h : Verified (b0 :: b1 :: b2 :: b3 :: rest))
    (h' : Verified (c0 :: c1 :: b2 :: b3 :: rest.take k)) : c0 = b0 ∧ c1 = b1 := by
  obtain ⟨-, hpayload, hsum⟩ := verified_iff.mp h
  obtain ⟨-, hpayload', hsum'⟩ := verified_iff.mp h'
  rw [List.length_take] at hpayload'
  rw [List.take_of_length_le (by omega)] at hsum'
  have h0 := b0.toNat_lt
  have h0' := c0.toNat_lt
  rw [← UInt8.toNat_inj, ← UInt8.toNat_inj]
  omega

private theorem same_sum {b0 b1 b2 b3 c2 c3 : UInt8} {rest other : Bytes}
    (h : Verified (b0 :: b1 :: b2 :: b3 :: rest)) (h' : Verified (b0 :: b1 :: c2 :: c3 :: other))
    (hlen : rest.length ≤ 251) (hlen' : other.length ≤ 251) :
    b2.toNat + (b3.toNat + byteSum rest) = c2.toNat + (c3.toNat + byteSum other) := by
  obtain ⟨-, -, hsum⟩ := verified_iff.mp h
  obtain ⟨-, -, hsum'⟩ := verified_iff.mp h'
  have heq : byteSum (b2 :: b3 :: rest) = byteSum (c2 :: c3 :: other) := by
    apply byteSum_inj _ _ (hsum.trans hsum'.symm)
    · simp only [List.length_cons]
      omega
    · simp only [List.length_cons]
      omega
  simpa only [byteSum_cons] using heq

private theorem set_unverified (h : Verified frame) (hlen : frame.length ≤ 255) {i : Nat}
    (hi : i < frame.length) {b : UInt8} (hb : b ≠ frame[i]) (n : Nat) :
    ¬ Verified ((frame.set i b).take n) := by
  intro hset
  obtain ⟨b0, b1, b2, b3, rest, rfl⟩ := verified_split h
  obtain ⟨k, rfl⟩ := four_le_of_verified_take hset
  obtain ⟨-, hpayload, -⟩ := verified_iff.mp h
  have hshort : (rest.take k).length ≤ rest.length := List.length_take_le' k rest
  simp only [List.length_cons] at hlen hi
  have hrest : rest.length ≤ 251 := by omega
  -- The position tells which of the two fields, or the sum, differs.
  match i with
  | 0 =>
      simp only [List.set_cons_zero, List.take_succ_cons] at hset
      exact hb (same_checksum h hset).1
  | 1 =>
      simp only [List.set_cons_succ, List.set_cons_zero, List.take_succ_cons] at hset
      exact hb (same_checksum h hset).2
  | 2 =>
      simp only [List.set_cons_succ, List.set_cons_zero, List.take_succ_cons] at hset
      obtain ⟨-, hpayload', -⟩ := verified_iff.mp hset
      have hsum := same_sum h hset hrest (hshort.trans hrest)
      have hle := byteSum_take_le rest k
      apply hb
      rw [List.getElem_cons_succ, List.getElem_cons_succ, List.getElem_cons_zero,
        ← UInt8.toNat_inj]
      omega
  | 3 =>
      simp only [List.set_cons_succ, List.set_cons_zero, List.take_succ_cons] at hset
      obtain ⟨-, hpayload', -⟩ := verified_iff.mp hset
      apply hb
      rw [List.getElem_cons_succ, List.getElem_cons_succ, List.getElem_cons_succ,
        List.getElem_cons_zero, ← UInt8.toNat_inj]
      omega
  | j + 4 =>
      have hj : j < rest.length := by omega
      simp only [List.set_cons_succ, List.take_succ_cons] at hset
      obtain ⟨-, hpayload', -⟩ := verified_iff.mp hset
      rw [List.length_take, List.length_set] at hpayload'
      rw [List.take_of_length_le (by rw [List.length_set]; omega)] at hset
      have hsum := same_sum h hset hrest (by rw [List.length_set]; exact hrest)
      have hmoved := byteSum_set rest hj b
      apply hb
      simp only [List.getElem_cons_succ]
      rw [← UInt8.toNat_inj]
      omega

end Damage

section Senders

def transmitting (s : State) : Nat × Memory × Nat × Nat :=
  (s.link.txSz, s.link.txBuf, s.state.txMsgCount, s.state.txBytesQueued)

/-- A transmit buffer with a whole queue, or one too short for any message. -/
def Held (s : State) : Prop :=
  Sound s ∨ s.link.txSz < FRAME_HEADER_SZ ∧ s.state.txMsgCount = 0

variable {s s' : State}

private theorem Held.congr (h : Held s) (hsame : transmitting s' = transmitting s) : Held s' := by
  simp only [transmitting, Prod.mk.injEq] at hsame
  obtain ⟨hsz, hbuf, hcount, hbytes⟩ := hsame
  cases h with
  | inl hsound =>
      have hq := hsound.queued
      exact Or.inl ⟨hsz ▸ hsound.1, _, hcount.trans hq.count, hbytes.trans hq.bytes, hsz ▸ hq.room,
        hbuf ▸ hq.content⟩
  | inr hshort => exact Or.inr ⟨hsz ▸ hshort.1, hcount.trans hshort.2⟩

private theorem Held.sendmsg (h : Held s) (v : MessageVec) : Held (Layer.sendmsg v s).2 := by
  cases h with
  | inl hsound => exact Or.inl (Queue.sendmsg_view v hsound).1
  | inr hshort =>
      have hfull : (Layer.sendmsg v s).1 ≠ .ok := by
        have havail : txBytesAvailable s = 0 := by
          rw [txBytesAvailable]
          exact if_pos (by omega)
        rw [Layer.sendmsg]
        split_ifs
        · simp
        · simp
        · omega
        · omega
      rw [sendmsg_rejected hfull]
      exact Or.inr hshort

private theorem fillFrameHeader_kept (stamp : UInt32) (s : State) :
    (fillFrameHeader stamp s).2.link.txSz = s.link.txSz ∧
      (fillFrameHeader stamp s).2.state = s.state := by
  rw [fillFrameHeader]
  cases hsum : headerChecksum _ _ _ with
  | none => exact ⟨rfl, rfl⟩
  | some checksum => exact ⟨rfl, rfl⟩

private theorem Held.flush (h : Held s) (now stamp : UInt32) (sent : Bool) :
    Held (Layer.flush now stamp sent s).2.1 := by
  cases h with
  | inl hsound => exact Or.inl (Queue.flush_view now stamp sent hsound).1
  | inr hshort =>
      apply Or.inr
      rw [Layer.flush]
      dsimp only
      split_ifs
      · exact hshort
      · exact hshort
      · obtain ⟨hsz, hstate⟩ := fillFrameHeader_kept stamp (refreshed now s)
        have hkept : (fillFrameHeader stamp (refreshed now s)).2.link.txSz < FRAME_HEADER_SZ ∧
            (fillFrameHeader stamp (refreshed now s)).2.state.txMsgCount = 0 := by
          rw [hsz, hstate]
          exact hshort
        rw [sendFrame]
        dsimp only
        split_ifs
        · exact hkept
        · exact ⟨hkept.1, rfl⟩
        · exact hkept

private theorem Held.truncateTx (h : Held s) : Held (Layer.truncateTx s) := by
  cases h with
  | inl hsound =>
      have hroom := hsound.queued.room
      exact Or.inl ⟨hsound.1, [], rfl, rfl, (Nat.le_add_right _ _).trans hroom, rfl⟩
  | inr hshort => exact Or.inr ⟨hshort.1, rfl⟩

private theorem recv_transmitting (now timeoutMs : UInt32) (radio : WaitRecv) (s : State) :
    transmitting (Layer.recv now timeoutMs radio s).2.1 = transmitting s := by
  rw [Layer.recv]
  dsimp only
  split_ifs
  · rfl
  · rfl
  · obtain ⟨-, -, -, -, hsz, hbuf, -, hcount, hbytes⟩ :=
      Queue.receiveFrame_tx timeoutMs radio (refreshed now s)
    rw [transmitting, hsz, hbuf, hcount, hbytes]
    rfl

private theorem getmsg_transmitting (s : State) :
    transmitting (Layer.getmsg s).2.2 = transmitting s := by
  rw [Layer.getmsg]
  split
  · rfl
  · dsimp only
    split_ifs <;> rfl

private theorem epochAndOffset_transmitting (n : UInt8) (now : UInt32) (s : State) :
    transmitting (Layer.epochAndOffset n now s).2.2 = transmitting s := by
  rw [Layer.epochAndOffset]
  dsimp only
  split_ifs <;> rfl

private theorem Held.exec (h : Held s) (c : Call) : Held (c.exec s) := by
  cases c with
  | sendmsg v => exact h.sendmsg v
  | sendmsgFlat buf sz => exact h.sendmsg [buf.take sz.toNat]
  | getmsg => exact h.congr (getmsg_transmitting s)
  | recv now timeoutMs radio => exact h.congr (recv_transmitting now timeoutMs radio s)
  | flush now stamp sent => exact h.flush now stamp sent
  | activeSlot now => exact h.congr rfl
  | epochAndOffset n now => exact h.congr (epochAndOffset_transmitting n now s)
  | secondsUntilSelf now => exact h.congr (epochAndOffset_transmitting _ now s)
  | truncateTx => exact h.truncateTx
  | truncateRx => exact h.congr rfl
  | rewind => exact h.congr rfl
  | setCdmaCode id => exact h.congr rfl

private theorem Held.run (h : Held s) (calls : List Call) : Held (runCalls calls s) := by
  induction calls generalizing s with
  | nil => exact h
  | cons c calls ih =>
      rw [runCalls_cons]
      exact ih (h.exec c)

private theorem started_held (node : NodeParams) (mac : MacParams) {link : LinkParams}
    (first : UInt32) (hsz : link.txSz ≤ 255) : Held (started node mac link first) := by
  rw [started, init]
  split_ifs
  · exact Or.inr ⟨by decide, rfl⟩
  · exact Or.inr ⟨by decide, rfl⟩
  · by_cases hroom : FRAME_HEADER_SZ ≤ link.txSz
    · exact Or.inl ⟨hsz, [], rfl, rfl, hroom, rfl⟩
    · exact Or.inr ⟨Nat.lt_of_not_le hroom, rfl⟩

private theorem flush_frames {now stamp : UInt32} {sent : Bool} {q : List Bytes} (hq : Queued s q)
    (hsz : s.link.txSz ≤ 255) {frame : Bytes}
    (hframe : frame ∈ framesOf (Layer.flush now stamp sent s).2.2) :
    ∃ m, Sealed m q ∧ frame = read m 0 (FRAME_HEADER_SZ + (pack q).length) := by
  have hq' : Queued (refreshed now s) q := ⟨hq.count, hq.bytes, hq.room, hq.content⟩
  rw [Layer.flush] at hframe
  dsimp only at hframe
  split_ifs at hframe
  · exact absurd hframe List.not_mem_nil
  · exact absurd hframe List.not_mem_nil
  · rw [sendFrame_eq stamp sent hq' hsz] at hframe
    exact ⟨_, sealed_header stamp hq' hsz, List.mem_singleton.mp hframe⟩

private theorem verified_of_sealed {m : Memory} {q : List Bytes} (h : Sealed m q) (hne : q ≠ []) :
    Verified (read m 0 (FRAME_HEADER_SZ + (pack q).length)) := by
  have hpos := List.length_pos_iff.mpr hne
  have hsealed :
      Sealed (write (fun _ => 0) 0 (read m 0 (FRAME_HEADER_SZ + (pack q).length))) q := by
    apply h.congr
    intro a ha
    have hsame := read_write_same (fun _ => 0) 0 (read m 0 (FRAME_HEADER_SZ + (pack q).length))
    rw [read_length] at hsame
    exact (read_eq_iff.mp hsame a (Nat.zero_le a) (by omega)).symm
  refine ⟨?_, ?_, ?_⟩
  · rw [read_length, pack_length]
    omega
  · rw [hsealed.payload, read_length]
  · rw [hsealed.checksum, read_length]

private theorem flush_verified {node : NodeParams} {mac : MacParams} {link : LinkParams}
    {first : UInt32} (hsz : link.txSz ≤ 255) {calls : List Call}
    (hmsgs : queued (runCalls calls (started node mac link first)) ≠ []) {now stamp : UInt32}
    {sent : Bool} {frame : Bytes}
    (hframe : frame ∈ framesOf
      (Layer.flush now stamp sent (runCalls calls (started node mac link first))).2.2) :
    Verified frame ∧ frame.length ≤ 255 := by
  have hheld := (started_held node mac first hsz).run calls
  generalize runCalls calls (started node mac link first) = s at hmsgs hframe hheld
  cases hheld with
  | inl hsound =>
      have hroom := hsound.queued.room
      obtain ⟨m, hsealed, rfl⟩ := flush_frames hsound.queued hsound.1 hframe
      refine ⟨verified_of_sealed hsealed hmsgs, ?_⟩
      rw [read_length]
      exact hroom.trans hsound.1
  | inr hshort =>
      rw [queued, hshort.2] at hmsgs
      exact absurd rfl hmsgs

end Senders

section Receivers

variable {r : State} {now timeoutMs : UInt32} {packet : Bytes}

private theorem recv_verified (h : (Layer.recv now timeoutMs (.received packet) r).1 = .ok) :
    Verified (packet.take (UInt8.ofNat r.link.rxSz).toNat) := by
  have heq := recv_received h
  rw [heq] at h
  exact (receiveFrame_accepted h).1

end Receivers

/-- Of every frame with at least one message that a `flush` hands to the radio, after any calls,
`recv` accepts no copy with one byte changed, none with bytes cut off, and none with bytes appended
unless the frame alone fills the receive buffer. -/
theorem damage_detected {node : NodeParams} {mac : MacParams} {link : LinkParams} {first : UInt32}
    (hsz : link.txSz ≤ 255) {calls : List Call}
    (hmsgs : queued (runCalls calls (started node mac link first)) ≠ []) {now stamp : UInt32}
    {sent : Bool} {frame : Bytes}
    (hframe : frame ∈ framesOf
      (Layer.flush now stamp sent (runCalls calls (started node mac link first))).2.2)
    (r : State) (now' timeoutMs : UInt32) :
    (∀ (i : Nat) (hi : i < frame.length) (b : UInt8), b ≠ frame[i] →
        (Layer.recv now' timeoutMs (.received (frame.set i b)) r).1 ≠ .ok) ∧
      (∀ n < frame.length, (Layer.recv now' timeoutMs (.received (frame.take n)) r).1 ≠ .ok) ∧
      ∀ tail, tail ≠ [] → frame.length ≠ (UInt8.ofNat r.link.rxSz).toNat →
        (Layer.recv now' timeoutMs (.received (frame ++ tail)) r).1 ≠ .ok := by
  obtain ⟨hverified, hlen⟩ := flush_verified hsz hmsgs hframe
  refine ⟨?_, ?_, ?_⟩
  · intro i hi b hb hok
    exact set_unverified hverified hlen hi hb _ (recv_verified hok)
  · intro n hn hok
    have hcut := recv_verified hok
    rw [List.take_take] at hcut
    exact take_unverified hverified ((Nat.min_le_right _ _).trans_lt hn) hcut
  · intro tail htail hne hok
    have hlong := recv_verified hok
    rcases Nat.lt_or_gt_of_ne hne with hlt | hgt
    · obtain ⟨k, hk⟩ := Nat.exists_eq_add_of_lt hlt
      rw [hk, Nat.add_assoc, List.take_append, List.take_of_length_le (Nat.le_add_right _ _),
        Nat.add_sub_cancel_left] at hlong
      apply append_unverified hverified _ hlong
      intro hnil
      exact htail ((List.take_eq_nil_iff.mp hnil).resolve_left (Nat.succ_ne_zero k))
    · rw [List.take_append_of_le_length (Nat.le_of_lt hgt)] at hlong
      exact take_unverified hverified hgt hlong

def oneQueued : State :=
  runCalls [.sendmsg [[65]]] (started ⟨1, 0⟩ setupMac setupLink 71)

/-- A frame that fills the receive buffer is accepted with a byte behind it. -/
theorem appended_byte_unnoticed :
    setupLink.txSz ≤ 255 ∧ queued oneQueued ≠ [] ∧
      oneMessage ∈ framesOf (Layer.flush 72 72 true oneQueued).2.2 ∧
      (Layer.recv 72 1000 (.received (oneMessage ++ [9])) tightListener).1 = .ok := by
  decide +kernel

/-- A changed byte, a lost one and one too many. -/
theorem damaged_frames_rejected :
    (Layer.recv 72 1000 (.received (oneMessage.set 13 66)) listener.state).1 ≠ .ok ∧
      (Layer.recv 72 1000 (.received (oneMessage.take 13)) listener.state).1 ≠ .ok ∧
      (Layer.recv 72 1000 (.received (oneMessage ++ [9])) listener.state).1 ≠ .ok := by
  obtain ⟨hset, hcut, hlong⟩ := @damage_detected ⟨1, 0⟩ setupMac setupLink 71 (by decide)
    [.sendmsg [[65]]] (by decide +kernel) 72 72 true oneMessage (by decide +kernel)
    listener.state 72 1000
  exact ⟨hset 13 (by decide) 66 (by decide), hcut 13 (by decide),
    hlong [9] (by decide) (by decide +kernel)⟩

end LoraMultihop.Link.Corruption
