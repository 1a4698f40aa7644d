/- digest: Networks of nodes with buffers do what networks of nodes with message queues do. -/

import LoraMultihop.Foundation.Simulation
import LoraMultihop.Link.Queue

set_option autoImplicit false
set_option relaxedAutoImplicit false

namespace LoraMultihop.Link.Simulation

open LoraMultihop.Foundation.ByteMemory (Bytes read)
open LoraMultihop.Foundation.LengthPrefix
open LoraMultihop.Foundation.Soup
open LoraMultihop.Foundation.Simulation
open LoraMultihop.Net.Params
open LoraMultihop.Link.Mac
open LoraMultihop.Link.Layer (Call RC FRAME_HEADER_SZ WaitRecv)
open LoraMultihop.Link.Transport
open LoraMultihop.Link.Queue (view Sound Frame Arrival arrivalOf)

inductive Outcome
  | code (rc : RC)
  | message (m : Option Bytes)
  | slot (n : Int)
  | time (rc : RC) (out : Option (UInt32 × UInt32))
  | none
  deriving DecidableEq

section Buffers

/-- The calls that the multihop layer makes. -/
def used : Call → Bool
  | .sendmsg _ | .sendmsgFlat _ _ | .getmsg | .recv _ _ _ | .flush _ _ _ | .activeSlot _
  | .epochAndOffset _ _ | .setCdmaCode _ => true
  | _ => false

def outcome : Call → Layer.State → Outcome
  | .sendmsg v, s => .code (Layer.sendmsg v s).1
  | .sendmsgFlat buf sz, s => .code (Layer.sendmsgFlat buf sz s).1
  | .getmsg, s =>
      .message (if (Layer.getmsg s).1 = .ok then some (Layer.getmsg s).2.1 else Option.none)
  | .recv now timeoutMs radio, s => .code (Layer.recv now timeoutMs radio s).1
  | .flush now stamp sent, s => .code (Layer.flush now stamp sent s).1
  | .activeSlot now, s => .slot (Layer.activeSlot now s).1
  | .epochAndOffset n now, s =>
      .time (Layer.epochAndOffset n now s).1 (Layer.epochAndOffset n now s).2.1
  | _, _ => .none

def transmits : Call → Layer.State → List (UInt8 × Bytes)
  | .flush now stamp sent, s =>
      if (Layer.flush now stamp sent s).1 = .ok then
        (framesOf (Layer.flush now stamp sent s).2.2).map fun frame => (s.state.code, frame)
      else []
  | _, _ => []

/-- The packet of a `recv`, with the code it came in on. -/
def hears : Call → UInt8 → List (UInt8 × Bytes)
  | .recv _ _ (.received packet), code => [(code, packet)]
  | _, _ => []

/-- A node with its buffers; a call is taken with the code that the node listens on. -/
def buffers : Machine Layer.State (Call × UInt8) (UInt8 × Bytes) where
  step a s := (a.1.exec s, transmits a.1 s)
  heard a := hears a.1 a.2
  enabled a s := used a.1 = true ∧ a.2 = s.state.code

end Buffers

section Queues

/-- The same calls of a node with queues; a wait ends in an arrival. -/
inductive Request
  | sendmsg (b : Bytes)
  | getmsg
  | recv (now : UInt32) (arrival : Arrival)
  | flush (now : UInt32) (sent : Bool)
  | activeSlot (now : UInt32)
  | epochAndOffset (n : UInt8) (now : UInt32)
  | setCdmaCode (id : UInt8)

def Request.exec : Request → Queue.State → Queue.State
  | .sendmsg b, s => (Queue.sendmsg b s).2
  | .getmsg, s => (Queue.getmsg s).2
  | .recv now arrival, s => (Queue.recv now arrival s).2
  | .flush now sent, s => (Queue.flush now sent s).2.1
  | .activeSlot now, s => (Queue.activeSlot now s).2
  | .epochAndOffset n now, s => (Queue.epochAndOffset n now s).2.2
  | .setCdmaCode id, s => Queue.setCdmaCode id s

def Request.outcome : Request → Queue.State → Outcome
  | .sendmsg b, s => .code (Queue.sendmsg b s).1
  | .getmsg, s => .message (Queue.getmsg s).1
  | .recv now arrival, s => .code (Queue.recv now arrival s).1
  | .flush now sent, s => .code (Queue.flush now sent s).1
  | .activeSlot now, s => .slot (Queue.activeSlot now s).1
  | .epochAndOffset n now, s =>
      .time (Queue.epochAndOffset n now s).1 (Queue.epochAndOffset n now s).2.1
  | .setCdmaCode _, _ => .none

def Request.transmits : Request → Queue.State → List Frame
  | .flush now sent, s => (Queue.flush now sent s).2.2
  | _, _ => []

def Request.hears : Request → UInt8 → List Frame
  | .recv _ (.accepted msgs), code => [⟨code, msgs⟩]
  | _, _ => []

def queues : Machine Queue.State (Request × UInt8) Frame where
  step a s := (a.1.exec s, a.1.transmits s)
  heard a := a.1.hears a.2
  enabled a s := a.2 = s.code

end Queues

/-- The bytes of a frame that fits a transmit buffer of `txMax`. -/
def Encodes (txMax : Nat) (packet : UInt8 × Bytes) (f : Frame) : Prop :=
  packet.1 = f.code ∧ FRAME_HEADER_SZ + (pack f.msgs).length ≤ txMax ∧
    ∃ m, Sealed m f.msgs ∧ packet.2 = read m 0 (FRAME_HEADER_SZ + (pack f.msgs).length)

/-- Buffers that hold what the queues do, no frame too long for the receive buffer. -/
structure Holds (txMax : Nat) (s : Layer.State) (q : Queue.State) : Prop where
  sound : Sound s
  view : q = view s
  tx : s.link.txSz ≤ txMax
  rx : txMax ≤ s.link.rxSz
  rxSz : s.link.rxSz ≤ 255

section Steps

variable {txMax : Nat} {s : Layer.State} {q : Queue.State}

private theorem exec_sizes {c : Call} (hc : used c = true) (s : Layer.State) :
    (c.exec s).link.txSz = s.link.txSz ∧ (c.exec s).link.rxSz = s.link.rxSz := by
  have hsendmsg (v : Layer.MessageVec) : (Layer.sendmsg v s).2.link.txSz = s.link.txSz ∧
      (Layer.sendmsg v s).2.link.rxSz = s.link.rxSz := by
    rw [Layer.sendmsg]
    dsimp only
    split_ifs <;> exact ⟨rfl, rfl⟩
  cases c with
  | sendmsg v => exact hsendmsg v
  | sendmsgFlat buf sz => exact hsendmsg _
  | getmsg =>
      rw [Call.exec, Layer.getmsg]
      dsimp only
      split
      · exact ⟨rfl, rfl⟩
      · split_ifs <;> exact ⟨rfl, rfl⟩
  | recv now timeoutMs radio =>
      rw [Call.exec, Layer.recv]
      split_ifs
      · exact ⟨rfl, rfl⟩
      · dsimp only
        split_ifs
        · exact ⟨rfl, rfl⟩
        · cases radio with
          | timedOut => exact ⟨rfl, rfl⟩
          | failed => exact ⟨rfl, rfl⟩
          | received packet =>
              rw [Layer.receiveFrame]
              dsimp only
              split_ifs <;> exact ⟨rfl, rfl⟩
  | flush now stamp sent =>
      have hfill (s : Layer.State) : (Layer.fillFrameHeader stamp s).2.link.txSz = s.link.txSz ∧
          (Layer.fillFrameHeader stamp s).2.link.rxSz = s.link.rxSz := by
        rw [Layer.fillFrameHeader]
        dsimp only
        split <;> exact ⟨rfl, rfl⟩
      rw [Call.exec, Layer.flush]
      split_ifs
      · exact ⟨rfl, rfl⟩
      · dsimp only
        split_ifs
        · exact ⟨rfl, rfl⟩
        · rw [Layer.sendFrame]
          dsimp only
          split_ifs
          · exact hfill _
          · exact hfill _
          · exact hfill _
  | activeSlot now => exact ⟨rfl, rfl⟩
  | epochAndOffset n now =>
      rw [Call.exec, Layer.epochAndOffset]
      split_ifs <;> exact ⟨rfl, rfl⟩
  | setCdmaCode id => exact ⟨rfl, rfl⟩
  | _ => exact absurd hc (by simp [used])

private theorem flush_encodes (h : Holds txMax s q) (now stamp : UInt32) (sent : Bool) :
    List.Forall₂ (Encodes txMax) (transmits (.flush now stamp sent) s)
      (Request.transmits (.flush now sent) q) := by
  obtain ⟨-, hrc, -⟩ := Queue.flush_view now stamp sent h.sound
  obtain ⟨-, -, hcase⟩ := flush_cases now stamp sent h.sound.queued h.sound.1
  have hroom := h.sound.queued.room
  rw [h.view, transmits, Request.transmits]
  by_cases hout : Queue.GoesOut now sent (view s)
  · rw [Queue.flush_out hout] at hrc ⊢
    rw [if_pos hrc]
    rcases hcase with ⟨hno, -⟩ | ⟨-, -, m, hsealed, hframes⟩
    · exact absurd hrc hno
    · rw [hframes]
      exact .cons ⟨rfl, hroom.trans h.tx, m, hsealed, rfl⟩ .nil
  · obtain ⟨hno, hframes, -⟩ := Queue.flush_kept hout
    rw [hframes, if_neg (hrc ▸ hno)]
    exact .nil

private theorem receive_empty (timeoutMs : UInt32) {packet : Bytes}
    (hlen : packet.length ≤ FRAME_HEADER_SZ) (s : Layer.State) :
    (Layer.receiveFrame timeoutMs (.received packet) s).1 = .invalidMsg := by
  have hshort : (packet.take (UInt8.ofNat (Layer.truncateRx s).link.rxSz).toNat).length ≤
      FRAME_HEADER_SZ := (List.length_take_le' _ _).trans hlen
  rw [Layer.receiveFrame]
  dsimp only
  rw [Layer.checkFrame, if_pos hshort]

private theorem arrivalOf_empty {packet : Bytes} (hlen : packet.length ≤ FRAME_HEADER_SZ)
    (now timeoutMs : UInt32) (s : Layer.State) :
    arrivalOf now timeoutMs (.received packet) s = .rejected .invalidMsg := by
  have hinvalid := receive_empty timeoutMs hlen (Layer.refreshed now s)
  rw [arrivalOf]
  generalize Layer.receiveFrame timeoutMs (.received packet) (Layer.refreshed now s) = out
    at hinvalid
  obtain ⟨rc, s', ops⟩ := out
  dsimp only at hinvalid
  subst hinvalid
  rfl

/-- In the window a frame is the arrival of the messages that `getmsg` gives after it. -/
private theorem arrivalOf_accepted {now timeoutMs : UInt32} {packet : Bytes} {msgs : List Bytes}
    (hinit : s.initialized = true)
    (hactive : inActiveWindow (refreshWindow s.mac s.macState now) now = true)
    (hok : (Layer.recv now timeoutMs (.received packet) s).1 = .ok)
    (hmsgs : (drain (Layer.recv now timeoutMs (.received packet) s).2.1).1 = msgs) :
    arrivalOf now timeoutMs (.received packet) s = .accepted msgs := by
  have hrecv : Layer.recv now timeoutMs (.received packet) s =
      Layer.receiveFrame timeoutMs (.received packet) (Layer.refreshed now s) := by
    rw [Layer.recv, if_neg (by simp [hinit])]
    exact if_neg (by simp [Layer.refreshed, hactive])
  rw [hrecv] at hok hmsgs
  rw [arrivalOf]
  generalize Layer.receiveFrame timeoutMs (.received packet) (Layer.refreshed now s) = out
    at hok hmsgs
  obtain ⟨rc, s', ops⟩ := out
  dsimp only at hok hmsgs
  subst hok
  exact congrArg Arrival.accepted hmsgs

/-- Outside the window `recv` does not ask the radio. -/
private theorem recv_closed {now : UInt32} (hclosed : ¬ (s.initialized = true ∧
      inActiveWindow (refreshWindow s.mac s.macState now) now = true)) (arrival : Arrival) :
    Queue.recv now arrival (view s) = Queue.recv now .timedOut (view s) := by
  rw [Queue.recv, Queue.recv]
  by_cases hi : (view s).initialized = false
  · rw [if_pos hi, if_pos hi]
  · have hw : inActiveWindow (Queue.refreshed now (view s)).macState now = false := by
      rw [← Bool.not_eq_true]
      intro hw
      exact hclosed ⟨Bool.of_not_eq_false hi, hw⟩
    rw [if_neg hi, if_neg hi]
    dsimp only
    rw [if_pos hw, if_pos hw]

private theorem recv_matched (h : Holds txMax s q) (now timeoutMs : UInt32) (radio : WaitRecv)
    {fs : List Frame} (hheard : List.Forall₂ (Encodes txMax)
      (hears (.recv now timeoutMs radio) s.state.code) fs) :
    ∃ arrival, Request.hears (.recv now arrival) q.code ⊆ fs ∧
      (Layer.recv now timeoutMs radio s).1 = (Queue.recv now arrival q).1 ∧
        view (Layer.recv now timeoutMs radio s).2.1 = (Queue.recv now arrival q).2 := by
  obtain ⟨-, hrc, hstate⟩ := Queue.recv_view now timeoutMs radio h.sound
  have hcode : q.code = s.state.code := by
    rw [h.view]
    rfl
  by_cases hactive : s.initialized = true ∧
      inActiveWindow (refreshWindow s.mac s.macState now) now = true
  · rw [← h.view] at hrc hstate
    refine ⟨arrivalOf now timeoutMs radio s, ?_, hrc, hstate⟩
    cases radio with
    | timedOut => exact List.nil_subset _
    | failed => exact List.nil_subset _
    | received packet =>
        rw [hcode]
        cases hheard with
        | @cons _ f _ _ henc hrest =>
            cases hrest
            obtain ⟨hfcode, hfits, m, hsealed, hpacket⟩ := henc
            dsimp only at hfcode hpacket
            by_cases hempty : f.msgs = []
            · have hlen : packet.length ≤ FRAME_HEADER_SZ := by
                rw [hpacket, Foundation.ByteMemory.read_length, hempty]
                exact le_refl _
              rw [arrivalOf_empty hlen]
              exact List.nil_subset _
            · let r : Receiver := ⟨s, now, timeoutMs, hactive.1, hactive.2⟩
              obtain ⟨hok, hmsgs⟩ := r.receive_sealed hsealed hempty
                (hfits.trans h.rx) h.rxSz
              rw [← hpacket] at hok hmsgs
              rw [arrivalOf_accepted hactive.1 hactive.2 hok hmsgs, Request.hears, hfcode]
              exact fun x hx => hx
  · rw [recv_closed hactive, ← h.view] at hrc hstate
    exact ⟨.timedOut, List.nil_subset _, hrc, hstate⟩

private theorem buffers_simulated (txMax : Nat) :
    Simulates buffers queues (fun a => outcome a.1) (fun a => a.1.outcome) (Holds txMax)
      (Encodes txMax) where
  step a s q fs ha h hfs := by
    obtain ⟨c, code⟩ := a
    obtain ⟨hused, hcode⟩ := ha
    dsimp only at hused hcode
    subst hcode
    have hcode : q.code = s.state.code := by
      rw [h.view]
      rfl
    have hkeep (hsound : Sound (c.exec s)) (q' : Queue.State) (hview : view (c.exec s) = q') :
        Holds txMax (c.exec s) q' := by
      obtain ⟨htx, hrx⟩ := exec_sizes hused s
      exact ⟨hsound, hview.symm, htx ▸ h.tx, hrx ▸ h.rx, hrx ▸ h.rxSz⟩
    cases c with
    | sendmsg v =>
        obtain ⟨hsound, hrc, hview⟩ := Queue.sendmsg_view v h.sound
        rw [← h.view] at hrc hview
        exact ⟨(.sendmsg v.flatten, q.code), rfl, List.nil_subset _, hkeep hsound _ hview, .nil,
          congrArg Outcome.code hrc⟩
    | sendmsgFlat buf sz =>
        obtain ⟨hsound, hrc, hview⟩ := Queue.sendmsg_view [buf.take sz.toNat] h.sound
        rw [← h.view] at hrc hview
        exact ⟨(.sendmsg (List.flatten [buf.take sz.toNat]), q.code), rfl,
          List.nil_subset _, hkeep hsound _ hview, .nil, congrArg Outcome.code hrc⟩
    | getmsg =>
        obtain ⟨hsound, hmsg, hview⟩ := Queue.getmsg_view h.sound
        rw [← h.view] at hmsg hview
        exact ⟨(.getmsg, q.code), rfl, List.nil_subset _, hkeep hsound _ hview, .nil,
          congrArg Outcome.message hmsg⟩
    | recv now timeoutMs radio =>
        obtain ⟨arrival, hsub, hrc, hview⟩ := recv_matched h now timeoutMs radio hfs
        have hsound := (Queue.recv_view now timeoutMs radio h.sound).1
        exact ⟨(.recv now arrival, q.code), rfl, hsub, hkeep hsound _ hview, .nil,
          congrArg Outcome.code hrc⟩
    | flush now stamp sent =>
        obtain ⟨hsound, hrc, hview⟩ := Queue.flush_view now stamp sent h.sound
        rw [← h.view] at hrc hview
        exact ⟨(.flush now sent, q.code), rfl, List.nil_subset _, hkeep hsound _ hview,
          flush_encodes h now stamp sent, congrArg Outcome.code hrc⟩
    | activeSlot now =>
        obtain ⟨hsound, hslot, hview⟩ := Queue.activeSlot_view now h.sound
        rw [← h.view] at hslot hview
        exact ⟨(.activeSlot now, q.code), rfl, List.nil_subset _, hkeep hsound _ hview, .nil,
          congrArg Outcome.slot hslot⟩
    | epochAndOffset n now =>
        obtain ⟨hsound, hrc, hout, hview⟩ := Queue.epochAndOffset_view n now h.sound
        rw [← h.view] at hrc hout hview
        exact ⟨(.epochAndOffset n now, q.code), rfl, List.nil_subset _, hkeep hsound _ hview, .nil,
          congrArg₂ Outcome.time hrc hout⟩
    | setCdmaCode id =>
        obtain ⟨hsound, hview⟩ := Queue.setCdmaCode_view id h.sound
        rw [← h.view] at hview
        exact ⟨(.setCdmaCode id, q.code), rfl, List.nil_subset _, hkeep hsound _ hview, .nil, rfl⟩
    | _ => exact absurd hused (by simp [used])

end Steps

section Runs

variable {ι : Type*} [DecidableEq ι] {Linked : ι → ι → Prop}

def abstracted (c : Network ι Layer.State (UInt8 × Bytes)) : Network ι Queue.State Frame :=
  ⟨fun i => view (c.procs i), []⟩

end Runs

section TwoNodes

def twoNodes : Network Bool Layer.State (UInt8 × Bytes) :=
  ⟨fun i => Windows.started ⟨if i then 5 else 9, 0⟩ setupMac setupLink 71, []⟩

/-- The frame with one message that the first node sends. -/
def oneFrame : UInt8 × Bytes :=
  ((twoNodes.run buffers [(false, .sendmsg [[42]], 0), (false, .flush 72 72 true, 0)]).air.headD
    (false, 0, [])).2

def oneMessage : List (Bool × Call × UInt8) :=
  [(false, .sendmsg [[42]], 0), (false, .flush 72 72 true, 0),
    (true, .recv 72 1000 (.received oneFrame.2), 0), (true, .getmsg, 0)]

instance (a : Call × UInt8) (s : Layer.State) : Decidable (buffers.enabled a s) :=
  inferInstanceAs (Decidable (used a.1 = true ∧ a.2 = s.state.code))

end TwoNodes

end LoraMultihop.Link.Simulation
