/- digest: Which bytes the receive operations deliver, over every order of calls. -/

import Mathlib.Tactic
import LoraMultihop.Link.Queue

set_option autoImplicit false
set_option relaxedAutoImplicit false

namespace LoraMultihop.Link.Receive

open LoraMultihop.Foundation.ByteMemory
open LoraMultihop.Link.Mac
open LoraMultihop.Link.Layer
open LoraMultihop.Link.Transport
open LoraMultihop.Link.Queue (receiving receiveFrame_rejected)

/-- The length and the checksum of the frame are those its header gives. -/
def Verified (frame : Bytes) : Prop :=
  let m := write (fun _ => 0) 0 frame
  let hdr := FrameHeader.ofMemory m
  FRAME_HEADER_SZ < frame.length ∧ FRAME_HEADER_SZ + hdr.payloadBytes.toNat = frame.length ∧
    calculateChecksum m 2 frame.length = hdr.checksum

def Holds (m : Memory) (frame : Bytes) : Prop := read m 0 frame.length = frame

/-- The bytes of the packet that the radio puts into the receive buffer. -/
def written (packet : Bytes) (s : State) : Bytes := packet.take (UInt8.ofNat s.link.rxSz).toNat

/-- The frame for which a call of `recv` returns `Ok`. -/
def acceptedBy : Call → State → List Bytes
  | .recv now timeoutMs (.received packet), s =>
      if (Layer.recv now timeoutMs (.received packet) s).1 = .ok then [written packet s] else []
  | _, _ => []

def acceptedIn : List Call → State → List Bytes
  | [], _ => []
  | c :: calls, s => acceptedBy c s ++ acceptedIn calls (c.exec s)

/-- The message lies inside an accepted frame that is still in the buffer. -/
def Inside (accepted : List Bytes) (m : Memory) (msg : Bytes) : Prop :=
  ∃ frame ∈ accepted, Verified frame ∧ Holds m frame ∧
    ∃ off, FRAME_HEADER_SZ < off ∧ off + msg.length ≤ frame.length ∧
      msg = (frame.drop off).take msg.length

/-- Every `rewind` of the run finds an accepted frame in the buffer. -/
def RewindsHeld (calls : List Call) (s : State) : Prop :=
  ∀ before after, calls = before ++ .rewind :: after →
    ∃ frame ∈ acceptedIn before s, Holds (runCalls before s).link.rxBuf frame

/-- Every message that `getmsg` returns in the run is inside an accepted frame. -/
def DeliversAccepted (calls : List Call) (s : State) : Prop :=
  ∀ before after, calls = before ++ .getmsg :: after →
    (Layer.getmsg (runCalls before s)).1 = .ok →
      Inside (acceptedIn before s) (runCalls before s).link.rxBuf
        (Layer.getmsg (runCalls before s)).2.1

theorem Holds.agree {m : Memory} {frame : Bytes} (h : Holds m frame) {a : Nat}
    (ha : a < frame.length) : m a = write (fun _ => 0) 0 frame a := by
  have hsame : read m 0 frame.length = read (write (fun _ => 0) 0 frame) 0 frame.length := by
    rw [read_write_same]
    exact h
  exact read_eq_iff.mp hsame a (Nat.zero_le a) (by omega)

theorem Holds.header {m : Memory} {frame : Bytes} (h : Holds m frame)
    (hlen : FRAME_HEADER_SZ < frame.length) :
    FrameHeader.ofMemory m = FrameHeader.ofMemory (write (fun _ => 0) 0 frame) :=
  ofMemory_congr fun _ ha => h.agree (by omega)

theorem Holds.block {m : Memory} {frame : Bytes} (h : Holds m frame) {off len : Nat}
    (hle : off + len ≤ frame.length) : read m off len = (frame.drop off).take len := by
  obtain ⟨rest, hrest⟩ := Nat.exists_eq_add_of_le hle
  have hsplit : frame = read m 0 off ++ (read m off len ++ read m (off + len) rest) := by
    have hfirst := read_append m 0 off (len + rest)
    rw [Nat.zero_add] at hfirst
    rw [← read_append, ← hfirst, ← Nat.add_assoc, ← hrest]
    exact h.symm
  rw [hsplit, List.drop_left' (read_length m 0 off), List.take_left' (read_length m off len)]

private theorem verified_of_check {s : State} {frame : Bytes} (hheld : Holds s.link.rxBuf frame)
    (h : checkFrame frame.length s = .ok) : Verified frame := by
  rw [checkFrame] at h
  dsimp only at h
  split_ifs at h with hlen htotal hroom hsum
  have hlt : FRAME_HEADER_SZ < frame.length := Nat.not_le.mp hlen
  have hhdr := hheld.header hlt
  rw [not_not] at htotal hsum
  rw [headerChecksum, if_neg hroom, Option.getD_some, htotal, hhdr] at hsum
  refine ⟨hlt, ?_, ?_⟩
  · rw [← hhdr]
    exact htotal
  · rw [← hsum]
    exact calculateChecksum_congr (by unfold FRAME_HEADER_SZ at hlt; omega)
      fun a _ ha => (hheld.agree ha).symm

theorem receiveFrame_accepted {timeoutMs : UInt32} {packet : Bytes} {s : State}
    (h : (receiveFrame timeoutMs (.received packet) s).1 = .ok) :
    let s' := (receiveFrame timeoutMs (.received packet) s).2.1
    Verified (written packet s) ∧ Holds s'.link.rxBuf (written packet s) ∧
      s'.state.rxCursor = some FRAME_HEADER_SZ := by
  have hheld : Holds (write s.link.rxBuf 0 (written packet s)) (written packet s) :=
    read_write_same s.link.rxBuf 0 (written packet s)
  simp only [receiveFrame] at h ⊢
  rw [if_pos h]
  exact ⟨verified_of_check hheld h, hheld, rfl⟩

private theorem recv_cases (now timeoutMs : UInt32) (radio : WaitRecv) (s : State) :
    let s' := (Layer.recv now timeoutMs radio s).2.1
    (∃ frame, acceptedBy (.recv now timeoutMs radio) s = [frame] ∧ Verified frame ∧
        Holds s'.link.rxBuf frame ∧ s'.state.rxCursor = some FRAME_HEADER_SZ) ∨
      acceptedBy (.recv now timeoutMs radio) s = [] ∧
        (s'.state.rxCursor = none ∨ receiving s' = receiving s) := by
  intro s'
  have huntouched (hrc : (Layer.recv now timeoutMs radio s).1 ≠ .ok) :
      acceptedBy (.recv now timeoutMs radio) s = [] := by
    cases radio with
    | received packet => exact if_neg hrc
    | timedOut => rfl
    | failed => rfl
  unfold s'
  by_cases hi : s.initialized = false
  · have hrecv : Layer.recv now timeoutMs radio s = (.notInit, s, []) := by
      rw [Layer.recv, if_pos hi]
    refine Or.inr ⟨huntouched (by simp [hrecv]), Or.inr ?_⟩
    rw [hrecv]
  by_cases ha : inActiveWindow (refreshed now s).macState now = false
  · have hrecv : Layer.recv now timeoutMs radio s = (.notInWindow, refreshed now s, []) := by
      rw [Layer.recv, if_neg hi]
      exact if_pos ha
    refine Or.inr ⟨huntouched (by simp [hrecv]), Or.inr ?_⟩
    rw [hrecv]
    rfl
  have hrecv : Layer.recv now timeoutMs radio s =
      receiveFrame timeoutMs radio (refreshed now s) := by
    rw [Layer.recv, if_neg hi]
    exact if_neg ha
  by_cases hrc : (Layer.recv now timeoutMs radio s).1 = .ok
  · cases radio with
    | timedOut =>
        rw [hrecv] at hrc
        exact absurd hrc (by simp [receiveFrame])
    | failed =>
        rw [hrecv] at hrc
        exact absurd hrc (by simp [receiveFrame])
    | received packet =>
        refine Or.inl ⟨written packet s, if_pos hrc, ?_⟩
        rw [hrecv] at hrc ⊢
        have haccepted := receiveFrame_accepted hrc
        exact haccepted
  · refine Or.inr ⟨huntouched hrc, Or.inl ?_⟩
    rw [hrecv] at hrc ⊢
    exact receiveFrame_rejected timeoutMs radio (refreshed now s) hrc

private theorem getmsg_ok {s : State} (h : (Layer.getmsg s).1 = .ok) :
    ∃ cursor msg, s.state.rxCursor = some cursor ∧ (Layer.getmsg s).2.1 = msg ∧
      msg = read s.link.rxBuf (cursor + 1) msg.length ∧
      cursor + msg.length + 1 ≤
        FRAME_HEADER_SZ + (FrameHeader.ofMemory s.link.rxBuf).payloadBytes.toNat ∧
      (Layer.getmsg s).2.2.link = s.link ∧
      (Layer.getmsg s).2.2.state.rxCursor = some (cursor + msg.length + 1) := by
  unfold Layer.getmsg at h ⊢
  dsimp only at h ⊢
  cases hc : s.state.rxCursor with
  | none =>
      rw [hc] at h
      exact absurd h (by simp)
  | some cursor =>
      rw [hc] at h
      dsimp only at h ⊢
      split_ifs at h ⊢ with hnum hend
      refine ⟨cursor, _, rfl, rfl, by rw [read_length], ?_, rfl, ?_⟩
      · rw [read_length]
        omega
      · rw [read_length]

/-- Where the cursor stands, the buffer holds an accepted frame around it. -/
structure Anchored (accepted : List Bytes) (s : State) : Prop where
  verified : ∀ frame ∈ accepted, Verified frame
  cursor : ∀ c, s.state.rxCursor = some c →
    ∃ frame ∈ accepted, Holds s.link.rxBuf frame ∧ FRAME_HEADER_SZ ≤ c ∧ c ≤ frame.length

private theorem Anchored.of_receiving {accepted : List Bytes} {s s' : State}
    (h : Anchored accepted s) (hsame : receiving s' = receiving s) : Anchored accepted s' := by
  simp only [receiving, Prod.mk.injEq] at hsame
  obtain ⟨hbuf, hcursor, -⟩ := hsame
  refine ⟨h.verified, ?_⟩
  rw [hbuf, hcursor]
  exact h.cursor

private theorem Anchored.of_none {accepted : List Bytes} {s : State}
    (hverified : ∀ frame ∈ accepted, Verified frame) (h : s.state.rxCursor = none) :
    Anchored accepted s := by
  refine ⟨hverified, ?_⟩
  rw [h]
  intro c hc
  exact absurd hc (by simp)

private theorem Anchored.inside {accepted : List Bytes} {s : State} (h : Anchored accepted s)
    (hok : (Layer.getmsg s).1 = .ok) :
    Inside accepted s.link.rxBuf (Layer.getmsg s).2.1 ∧
      Anchored accepted (Layer.getmsg s).2.2 := by
  obtain ⟨cursor, msg, hcursor, hret, hbytes, hend, hlink, hnext⟩ := getmsg_ok hok
  obtain ⟨frame, hmem, hheld, hlow, -⟩ := h.cursor cursor hcursor
  have hverified := h.verified frame hmem
  have htotal : FRAME_HEADER_SZ + (FrameHeader.ofMemory s.link.rxBuf).payloadBytes.toNat =
      frame.length := by
    rw [hheld.header hverified.1]
    exact hverified.2.1
  rw [htotal] at hend
  constructor
  · rw [hret]
    refine ⟨frame, hmem, hverified, hheld, cursor + 1, by omega, by omega, ?_⟩
    rw [← hheld.block (by omega)]
    exact hbytes
  · refine ⟨h.verified, fun c hc => ⟨frame, hmem, by rwa [hlink], ?_⟩⟩
    rw [hnext, Option.some.injEq] at hc
    omega

private theorem flush_receiving (now stamp : UInt32) (sent : Bool) (s : State) :
    receiving (Layer.flush now stamp sent s).2.1 = receiving s := by
  have hfill (t : State) : receiving (fillFrameHeader stamp t).2 = receiving t := by
    simp only [fillFrameHeader]
    split <;> rfl
  rw [Layer.flush]
  split_ifs
  · rfl
  · dsimp only
    split_ifs
    · rfl
    · rw [sendFrame]
      dsimp only
      split_ifs
      · exact hfill _
      · exact hfill _
      · exact hfill _

private theorem sendmsg_receiving (v : MessageVec) (s : State) :
    receiving (Layer.sendmsg v s).2 = receiving s := by
  rw [Layer.sendmsg]
  dsimp only
  split_ifs <;> rfl

private theorem epochAndOffset_receiving (n : UInt8) (now : UInt32) (s : State) :
    receiving (Layer.epochAndOffset n now s).2.2 = receiving s := by
  rw [Layer.epochAndOffset]
  dsimp only
  split_ifs <;> rfl

/-- Every call keeps the cursor inside an accepted frame, `rewind` where it finds one. -/
private theorem anchored_step {accepted : List Bytes} {s : State} (c : Call)
    (h : Anchored accepted s)
    (hrewind : c = .rewind → ∃ frame ∈ accepted, Holds s.link.rxBuf frame) :
    Anchored (accepted ++ acceptedBy c s) (c.exec s) := by
  have hkept (hnone : acceptedBy c s = []) (hsame : receiving (c.exec s) = receiving s) :
      Anchored (accepted ++ acceptedBy c s) (c.exec s) := by
    rw [hnone, List.append_nil]
    exact h.of_receiving hsame
  cases c with
  | sendmsg v => exact hkept rfl (sendmsg_receiving v s)
  | sendmsgFlat buf sz => exact hkept rfl (sendmsg_receiving [buf.take sz.toNat] s)
  | getmsg =>
      by_cases hok : (Layer.getmsg s).1 = .ok
      · have hnext := (h.inside hok).2
        have hempty : acceptedBy .getmsg s = [] := rfl
        rwa [hempty, List.append_nil]
      · exact hkept rfl (congrArg receiving (getmsg_rejected hok))
  | recv now timeoutMs radio =>
      rcases recv_cases now timeoutMs radio s with
        ⟨frame, hframe, hverified, hheld, hcursor⟩ | ⟨hframe, hnone | hsame⟩
      · rw [hframe]
        have hall : ∀ f ∈ accepted ++ [frame], Verified f := by
          intro f hf
          cases List.mem_append.mp hf with
          | inl hf => exact h.verified f hf
          | inr hf => rwa [List.mem_singleton.mp hf]
        refine ⟨hall, fun c hc => ⟨frame, by simp, hheld, ?_⟩⟩
        have hlen := hverified.1
        rw [show (Call.recv now timeoutMs radio).exec s =
          (Layer.recv now timeoutMs radio s).2.1 from rfl, hcursor, Option.some.injEq] at hc
        omega
      · rw [hframe, List.append_nil]
        exact Anchored.of_none h.verified hnone
      · exact hkept hframe hsame
  | flush now stamp sent => exact hkept rfl (flush_receiving now stamp sent s)
  | activeSlot now => exact hkept rfl rfl
  | epochAndOffset n now => exact hkept rfl (epochAndOffset_receiving n now s)
  | secondsUntilSelf now => exact hkept rfl (epochAndOffset_receiving s.node.address now s)
  | truncateTx => exact hkept rfl rfl
  | truncateRx =>
      have hempty : acceptedBy .truncateRx s = [] := rfl
      rw [hempty, List.append_nil]
      exact Anchored.of_none h.verified rfl
  | rewind =>
      have hempty : acceptedBy .rewind s = [] := rfl
      rw [hempty, List.append_nil]
      obtain ⟨frame, hmem, hheld⟩ := hrewind rfl
      refine ⟨h.verified, fun c hc => ⟨frame, hmem, hheld, ?_⟩⟩
      have hlen := (h.verified frame hmem).1
      rw [show (Call.rewind.exec s).state.rxCursor = some FRAME_HEADER_SZ from rfl,
        Option.some.injEq] at hc
      omega
  | setCdmaCode id => exact hkept rfl rfl

private theorem anchored_run {accepted : List Bytes} {calls : List Call} {s : State}
    (h : Anchored accepted s)
    (hrewind : ∀ before after, calls = before ++ .rewind :: after →
      ∃ frame ∈ accepted ++ acceptedIn before s, Holds (runCalls before s).link.rxBuf frame) :
    Anchored (accepted ++ acceptedIn calls s) (runCalls calls s) := by
  induction calls generalizing accepted s with
  | nil => rwa [acceptedIn, List.append_nil]
  | cons c calls ih =>
      have hstep : Anchored (accepted ++ acceptedBy c s) (c.exec s) := by
        apply anchored_step c h
        rintro rfl
        simpa [acceptedIn] using hrewind [] calls rfl
      rw [acceptedIn, ← List.append_assoc]
      apply ih hstep
      intro before after heq
      have hheld := hrewind (c :: before) after (by rw [heq]; rfl)
      rwa [acceptedIn, ← List.append_assoc] at hheld

/-- In every run after `init` whose `rewind`s all find an accepted frame in the buffer, `getmsg`
returns bytes of accepted frames only. -/
theorem delivers_accepted_of_rewinds_held {s : State} (hs : s.state.rxCursor = none)
    {calls : List Call} (h : RewindsHeld calls s) : DeliversAccepted calls s := by
  intro before after heq hok
  have hstart : Anchored [] s := Anchored.of_none (fun _ hf => absurd hf List.not_mem_nil) hs
  have hheld : ∀ first rest, before = first ++ .rewind :: rest →
      ∃ frame ∈ [] ++ acceptedIn first s, Holds (runCalls first s).link.rxBuf frame := by
    intro first rest hsplit
    exact h first (rest ++ .getmsg :: after) (by rw [heq, hsplit]; simp)
  exact ((anchored_run hstart hheld).inside hok).1

section Rewinds

def writes : Call → State → Bool
  | .recv now _ (.received _), s => s.initialized && inActiveWindow (refreshed now s).macState now
  | _, _ => false

/-- Whether the packet last put into the receive buffer was accepted, from what it was before. -/
def lastAccepted : List Call → State → Bool → Bool
  | [], _, last => last
  | c :: calls, s, last =>
      lastAccepted calls (c.exec s) (if writes c s then !(acceptedBy c s).isEmpty else last)

private theorem exec_rxBuf {c : Call} {s : State} (h : writes c s = false) :
    (c.exec s).link.rxBuf = s.link.rxBuf := by
  have hkept (hsame : receiving (c.exec s) = receiving s) :
      (c.exec s).link.rxBuf = s.link.rxBuf := congrArg Prod.fst hsame
  cases c with
  | sendmsg v => exact hkept (sendmsg_receiving v s)
  | sendmsgFlat buf sz => exact hkept (sendmsg_receiving [buf.take sz.toNat] s)
  | getmsg =>
      by_cases hok : (Layer.getmsg s).1 = .ok
      · obtain ⟨-, -, -, -, -, -, hlink, -⟩ := getmsg_ok hok
        exact congrArg (·.rxBuf) hlink
      · exact hkept (congrArg receiving (getmsg_rejected hok))
  | recv now timeoutMs radio =>
      rw [Call.exec, Layer.recv]
      dsimp only
      split_ifs with hi hwindow
      · rfl
      · rfl
      · cases radio with
        | received packet => exact absurd h (by simp [writes, hi, hwindow])
        | timedOut => rfl
        | failed => rfl
  | flush now stamp sent => exact hkept (flush_receiving now stamp sent s)
  | epochAndOffset n now => exact hkept (epochAndOffset_receiving n now s)
  | secondsUntilSelf now => exact hkept (epochAndOffset_receiving s.node.address now s)
  | _ => rfl

private theorem held_of_lastAccepted {accepted : List Bytes} {last : Bool} {calls : List Call}
    {s : State} (h : last = true → ∃ frame ∈ accepted, Holds s.link.rxBuf frame)
    (hlast : lastAccepted calls s last = true) :
    ∃ frame ∈ accepted ++ acceptedIn calls s, Holds (runCalls calls s).link.rxBuf frame := by
  induction calls generalizing accepted last s with
  | nil =>
      rw [acceptedIn, List.append_nil]
      exact h hlast
  | cons c calls ih =>
      rw [acceptedIn, ← List.append_assoc]
      refine ih ?_ hlast
      by_cases hwrites : writes c s = true
      · rw [if_pos hwrites]
        intro hsome
        cases c with
        | recv now timeoutMs radio =>
            rcases recv_cases now timeoutMs radio s with ⟨frame, hframe, -, hheld, -⟩ | ⟨hnone, -⟩
            · exact ⟨frame, by rw [hframe]; simp, hheld⟩
            · rw [hnone] at hsome
              exact absurd hsome (by simp)
        | _ => exact absurd hwrites (by simp [writes])
      · rw [if_neg hwrites, exec_rxBuf (by simpa using hwrites)]
        intro hbefore
        obtain ⟨frame, hmem, hheld⟩ := h hbefore
        exact ⟨frame, List.mem_append_left _ hmem, hheld⟩

private theorem rewindsHeld_of_lastAccepted {calls : List Call} {s : State}
    (h : ∀ before after, calls = before ++ .rewind :: after → lastAccepted before s false = true) :
    RewindsHeld calls s := by
  intro before after heq
  have hheld := @held_of_lastAccepted [] false before s
    (fun hlast => absurd hlast Bool.false_ne_true) (h before after heq)
  rwa [List.nil_append] at hheld

end Rewinds

/-- A frame of node 1 with one message, and the same with its last byte damaged. -/
def oneMessage : Bytes := [142, 0, 2, 0, 72, 0, 0, 0, 1, 1, 0, 0, 1, 65]

def damaged : Bytes := [142, 0, 2, 0, 72, 0, 0, 0, 1, 1, 0, 0, 1, 66]

def hear (packet : Bytes) : Call := .recv 72 1000 (.received packet)

theorem accepted_frame_is_read_twice :
    let calls := [hear oneMessage, .getmsg, .rewind, .getmsg]
    (Layer.getmsg (runCalls [hear oneMessage, .getmsg, .rewind] listener.state)).2.1 = [65] ∧
      DeliversAccepted calls listener.state := by
  refine ⟨by decide +kernel,
    delivers_accepted_of_rewinds_held rfl (rewindsHeld_of_lastAccepted ?_)⟩
  intro before after heq
  have hbefore : before = [hear oneMessage, .getmsg] := by
    rcases before with _ | ⟨a, _ | ⟨b, _ | ⟨c, _ | ⟨d, before⟩⟩⟩⟩ <;>
      simp_all [hear]
  rw [hbefore]
  decide +kernel

/-- The checksum of the frame is wrong, and its message is returned all the same. -/
theorem rejected_frame_is_delivered :
    (Layer.recv 72 1000 (.received damaged) listener.state).1 = .checksumError ∧
      (Layer.getmsg (runCalls [hear damaged, .rewind] listener.state)).1 = .ok ∧
      (Layer.getmsg (runCalls [hear damaged, .rewind] listener.state)).2.1 = [66] ∧
      ¬ DeliversAccepted [hear damaged, .rewind, .getmsg] listener.state := by
  refine ⟨by decide +kernel, by decide +kernel, by decide +kernel, ?_⟩
  intro hdelivers
  obtain ⟨frame, hmem, -⟩ := hdelivers [hear damaged, .rewind] [] rfl (by decide +kernel)
  have hnone : acceptedIn [hear damaged, .rewind] listener.state = [] := by decide +kernel
  rw [hnone] at hmem
  exact absurd hmem List.not_mem_nil

end LoraMultihop.Link.Receive
