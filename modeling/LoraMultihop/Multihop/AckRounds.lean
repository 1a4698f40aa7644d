/- digest: The loop that queues the acks: that it ends, and the ranges of its messages. -/

import LoraMultihop.Multihop.Reports

set_option autoImplicit false
set_option relaxedAutoImplicit false

namespace LoraMultihop.Multihop.AckRounds

open LoraMultihop.Foundation.ByteMemory (Bytes)
open LoraMultihop.Link
open LoraMultihop.Multihop.Messages
open LoraMultihop.Multihop.State
open LoraMultihop.Multihop.Sending
open LoraMultihop.Multihop.Slots
open LoraMultihop.Multihop.Reports

/-- One message of the loop: its stamp, `start` and the number of its acks. -/
structure Round where
  stamp : UInt32
  start : UInt8
  count : Nat

/-- How the loop stands: past its condition, left by its `break`, or not at its end yet. -/
inductive Ending
  | finished
  | failed (rc : RC)
  | running
  deriving DecidableEq

/-- The messages queued, the last `ack_start` and the node, as the loop leaves them. -/
structure Outcome where
  rounds : List Round
  ackStart : UInt8
  ending : Ending
  node : Node

/-- The loop over `send_acks` for at most `fuel` rounds, with a record of its messages. -/
def ackRun : Nat → (Nat → UInt32) → UInt8 → UInt8 → Node → Outcome
  | 0, _, ackStart, _, n => ⟨[], ackStart, .running, n⟩
  | fuel + 1, stamps, ackStart, ackEnd, n =>
      if ackStart < n.state.slotsAssigned then
        let (rc, ackEnd, n') := sendAcks ackStart ackEnd (stamps 0) n
        if rc = .ok then
          let r := ackRun fuel (fun i => stamps (i + 1)) ackEnd ackEnd n'
          { r with rounds := ⟨stamps 0, ackStart, ackCount ackStart n⟩ :: r.rounds }
        else ⟨[], ackStart, .failed rc, n'⟩
      else ⟨[], ackStart, .finished, n⟩

/-- Ranges that follow each other from `first` to `last`. -/
def Consecutive : Nat → List Round → Nat → Prop
  | first, [], last => first = last
  | first, r :: rounds, last =>
      r.start.toNat = first ∧ Consecutive (first + r.count) rounds last

def Round.message (s : MultihopState) (r : Round) : Bytes :=
  acksMessage s r.stamp r.start r.count

private theorem ackRun_node (fuel : Nat) (stamps : Nat → UInt32) (ackStart ackEnd : UInt8)
    (n : Node) :
    (ackRun fuel stamps ackStart ackEnd n).node = ackLoop fuel stamps ackStart ackEnd n := by
  induction fuel generalizing stamps ackStart ackEnd n with
  | zero => rfl
  | succ fuel ih =>
      rw [ackRun, ackLoop]
      dsimp only
      split_ifs
      · exact ih _ _ _ _
      · rfl
      · rfl

private theorem sendAcks_round (ackStart ackEnd : UInt8) (stamp : UInt32) (n : Node) :
    let r := sendAcks ackStart ackEnd stamp n
    r.1 = .ok ∧ r.2.1 = UInt8.ofNat (ackStart.toNat + ackCount ackStart n) ∧
        r.2.2 = n.push (acksMessage n.state stamp ackStart (ackCount ackStart n)) ∨
      r.1 ≠ .ok ∧ r.2.2 = n := by
  intro r
  unfold r
  by_cases hi : n.state.initialized = true
  · rcases sendAcks_cases ackStart ackEnd stamp hi with ⟨hok, -, -, hstop, hn⟩ | ⟨hno, hn, -⟩
    · exact Or.inl ⟨hok, hstop, hn⟩
    · exact Or.inr ⟨hno, hn⟩
  · rw [sendAcks, if_pos (by simpa using hi)]
    exact Or.inr ⟨by simp, rfl⟩

private theorem round_end {ackStart : UInt8} {n : Node} (hlt : ackStart < n.state.slotsAssigned)
    (hslots : n.state.slotsAssigned.toNat ≤ n.state.slotCount) :
    (UInt8.ofNat (ackStart.toNat + ackCount ackStart n)).toNat =
        ackStart.toNat + ackCount ackStart n ∧
      ackStart.toNat + ackCount ackStart n ≤ n.state.slotCount := by
  refine ⟨ackEnd_toNat (ackCount_le ackStart n), ?_⟩
  have hlt := UInt8.lt_iff_toNat_lt.mp hlt
  rcases Nat.eq_zero_or_pos (ackCount ackStart n) with hzero | hpos
  · omega
  · exact ackCount_slotCount hpos

section Loop

variable {n : Node}

private theorem ackRun_ends (fuel : Nat) (stamps : Nat → UInt32) (ackStart ackEnd : UInt8)
    (hfuel : Queue.txBytesAvailable n.link < fuel) :
    (ackRun fuel stamps ackStart ackEnd n).ending ≠ .running := by
  induction fuel generalizing stamps ackStart ackEnd n with
  | zero => omega
  | succ fuel ih =>
      rw [ackRun]
      dsimp only
      split_ifs with hlt hok
      · exact ih _ _ _ (lt_of_lt_of_le (sendAcks_room hok) (Nat.lt_succ_iff.mp hfuel))
      · simp
      · simp

private theorem ackRun_queue (fuel : Nat) (stamps : Nat → UInt32) (ackStart ackEnd : UInt8) :
    let r := ackRun fuel stamps ackStart ackEnd n
    r.node.state = n.state ∧
      r.node.link.tx = n.link.tx ++ r.rounds.map (Round.message n.state) := by
  induction fuel generalizing stamps ackStart ackEnd n with
  | zero => exact ⟨rfl, by simp [ackRun]⟩
  | succ fuel ih =>
      rw [ackRun]
      dsimp only
      rcases sendAcks_round ackStart ackEnd (stamps 0) n with ⟨hok, hstop, hn⟩ | ⟨hno, hn⟩
      · split_ifs
        · obtain ⟨hstate, htx⟩ := ih (n := (sendAcks ackStart ackEnd (stamps 0) n).2.2)
            (fun i => stamps (i + 1)) (sendAcks ackStart ackEnd (stamps 0) n).2.1
            (sendAcks ackStart ackEnd (stamps 0) n).2.1
          have hkept : (sendAcks ackStart ackEnd (stamps 0) n).2.2.state = n.state := by
            rw [hn]
            rfl
          have hqueued : (sendAcks ackStart ackEnd (stamps 0) n).2.2.link.tx = n.link.tx ++
              [Round.message n.state ⟨stamps 0, ackStart, ackCount ackStart n⟩] := by
            rw [hn]
            rfl
          refine ⟨hstate.trans hkept, ?_⟩
          rw [htx, hqueued, hkept, List.map_cons, List.append_assoc, List.singleton_append]
        · exact ⟨rfl, by simp⟩
      · rw [if_neg hno, hn]
        split_ifs
        · exact ⟨rfl, by simp⟩
        · exact ⟨rfl, by simp⟩

private theorem ackRun_ranges (fuel : Nat) (stamps : Nat → UInt32) (ackStart ackEnd : UInt8)
    (hslots : n.state.slotsAssigned.toNat ≤ n.state.slotCount)
    (hstart : ackStart.toNat ≤ n.state.slotCount) :
    let r := ackRun fuel stamps ackStart ackEnd n
    Consecutive ackStart.toNat r.rounds r.ackStart.toNat ∧
      r.ackStart.toNat ≤ n.state.slotCount ∧
      ∀ x ∈ r.rounds, x.start.toNat + x.count ≤ n.state.slotCount ∧
        (UInt8.ofNat (x.start.toNat + x.count)).toNat = x.start.toNat + x.count := by
  induction fuel generalizing stamps ackStart ackEnd n with
  | zero => exact ⟨rfl, hstart, by simp [ackRun]⟩
  | succ fuel ih =>
      rw [ackRun]
      dsimp only
      rcases sendAcks_round ackStart ackEnd (stamps 0) n with ⟨hok, hstop, hn⟩ | ⟨hno, hn⟩
      · split_ifs with hlt
        · obtain ⟨hend, hinside⟩ := round_end hlt hslots
          have hkept : (sendAcks ackStart ackEnd (stamps 0) n).2.2.state = n.state := by
            rw [hn]
            rfl
          obtain ⟨hranges, hlast, hall⟩ := ih (n := (sendAcks ackStart ackEnd (stamps 0) n).2.2)
            (fun i => stamps (i + 1)) (sendAcks ackStart ackEnd (stamps 0) n).2.1
            (sendAcks ackStart ackEnd (stamps 0) n).2.1 (by rwa [hkept])
            (by rw [hstop, hend, hkept]; exact hinside)
          rw [hkept] at hlast hall
          refine ⟨⟨rfl, ?_⟩, hlast, ?_⟩
          · have hnext : (sendAcks ackStart ackEnd (stamps 0) n).2.1.toNat =
                ackStart.toNat + ackCount ackStart n := by
              rw [hstop, hend]
            rwa [hnext] at hranges
          · intro x hx
            rcases List.mem_cons.mp hx with rfl | hx
            · exact ⟨hinside, hend⟩
            · exact hall x hx
        · exact ⟨rfl, hstart, by simp⟩
      · rw [if_neg hno]
        split_ifs
        · exact ⟨rfl, hstart, by simp⟩
        · exact ⟨rfl, hstart, by simp⟩

private theorem ackRun_stops (fuel : Nat) (stamps : Nat → UInt32) (ackStart ackEnd : UInt8) :
    let r := ackRun fuel stamps ackStart ackEnd n
    (r.ending = .finished → n.state.slotsAssigned ≤ r.ackStart) ∧
      ∀ rc, r.ending = .failed rc → rc ≠ .ok ∧ r.ackStart < n.state.slotsAssigned ∧
        ∃ ackEnd stamp, (sendAcks r.ackStart ackEnd stamp r.node).1 = rc := by
  induction fuel generalizing stamps ackStart ackEnd n with
  | zero => exact ⟨fun h => by simp [ackRun] at h, fun rc h => by simp [ackRun] at h⟩
  | succ fuel ih =>
      rw [ackRun]
      dsimp only
      rcases sendAcks_round ackStart ackEnd (stamps 0) n with ⟨hok, hstop, hn⟩ | ⟨hno, hn⟩
      · split_ifs with hlt
        · have hkept : (sendAcks ackStart ackEnd (stamps 0) n).2.2.state = n.state := by
            rw [hn]
            rfl
          have hrest := ih (n := (sendAcks ackStart ackEnd (stamps 0) n).2.2)
            (fun i => stamps (i + 1)) (sendAcks ackStart ackEnd (stamps 0) n).2.1
            (sendAcks ackStart ackEnd (stamps 0) n).2.1
          rwa [hkept] at hrest
        · exact ⟨fun _ => UInt8.not_lt.mp hlt, fun rc h => by simp at h⟩
      · split_ifs with hlt
        · refine ⟨fun h => by simp at h, ?_⟩
          intro rc hrc
          obtain rfl : (sendAcks ackStart ackEnd (stamps 0) n).1 = rc := by simpa using hrc
          refine ⟨hno, hlt, ackEnd, stamps 0, ?_⟩
          rw [hn]
        · exact ⟨fun _ => UInt8.not_lt.mp hlt, fun rc h => by simp at h⟩

end Loop

/-- The ack loop of `emit_ch_messages` ends, its messages carry consecutive ranges from 0 on inside
the array, and it stops short of `slots_assigned` only where `send_acks` failed. -/
theorem ack_loop_consecutive (stamps : Nat → UInt32) (n : Node)
    (hslots : n.state.slotsAssigned.toNat ≤ n.state.slotCount) :
    let r := ackRun (Queue.txBytesAvailable n.link + 1) stamps 0 0 n
    r.node = ackLoop (Queue.txBytesAvailable n.link + 1) stamps 0 0 n ∧ r.ending ≠ .running ∧
      r.node.link.tx = n.link.tx ++ r.rounds.map (Round.message n.state) ∧
      Consecutive 0 r.rounds r.ackStart.toNat ∧ r.ackStart.toNat ≤ n.state.slotCount ∧
      (∀ x ∈ r.rounds, x.start.toNat + x.count ≤ n.state.slotCount ∧
        (UInt8.ofNat (x.start.toNat + x.count)).toNat = x.start.toNat + x.count) ∧
      (r.ackStart < n.state.slotsAssigned → ∃ rc, rc ≠ .ok ∧ r.ending = .failed rc ∧
        ∃ ackEnd stamp, (sendAcks r.ackStart ackEnd stamp r.node).1 = rc) := by
  intro r
  have hends : r.ending ≠ .running := ackRun_ends _ stamps 0 0 (Nat.lt_succ_self _)
  obtain ⟨-, hqueue⟩ := ackRun_queue (n := n) (Queue.txBytesAvailable n.link + 1) stamps 0 0
  obtain ⟨hranges, hlast, hall⟩ := ackRun_ranges (Queue.txBytesAvailable n.link + 1) stamps 0 0
    hslots (Nat.zero_le _)
  obtain ⟨hfinished, hfailed⟩ :=
    ackRun_stops (n := n) (Queue.txBytesAvailable n.link + 1) stamps 0 0
  refine ⟨ackRun_node .., hends, hqueue, hranges, hlast, hall, ?_⟩
  intro hshort
  cases hending : r.ending with
  | finished => exact absurd hshort (UInt8.not_lt.mpr (hfinished hending))
  | failed rc =>
      obtain ⟨hne, -, hcall⟩ := hfailed rc hending
      exact ⟨rc, hne, rfl, hcall⟩
  | running => exact absurd hending hends

/-- The relay of ring 1 with nothing to forward. -/
theorem idle_relay_rounds :
    let r := ackRun (Queue.txBytesAvailable Relay.forwardingRelay.link + 1) (fun _ => 99) 0 0
      Relay.forwardingRelay
    r.ending ≠ .running ∧ Consecutive 0 r.rounds r.ackStart.toNat := by
  have h := ack_loop_consecutive (fun _ => 99) Relay.forwardingRelay (by decide)
  exact ⟨h.2.1, h.2.2.2.1⟩

end LoraMultihop.Multihop.AckRounds
