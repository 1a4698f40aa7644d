/- digest: The multihop state record, the neighbor histogram and the ring hysteresis. -/

import Mathlib.Tactic
import LoraMultihop.Multihop.Messages

set_option autoImplicit false
set_option relaxedAutoImplicit false

namespace LoraMultihop.Multihop.State

open LoraMultihop.Net.Params
open LoraMultihop.Multihop.Messages

inductive Role
  | gateway | clusterhead | follower | notInit
  deriving DecidableEq

/-- The two arrays are the memory their pointers lead to; `slotCount` is the length of both. -/
structure MultihopState where
  address : Address
  ring : Ring
  role : Role
  slotAssignments : Nat → Address
  slotCount : Nat
  acks : Nat → UInt32
  slotsAssigned : UInt8
  neighbors : RingList
  clusterheadP : UInt8
  chCredit : UInt8
  clusterheadRing : Ring
  clusterheadAddr : Address
  upstreamStartSlot : UInt8
  upstreamRelativeSlot : UInt8
  upstreamAckSlot : UInt8
  downstreamStartSlot : UInt8
  roundsWithoutLower : UInt8

def RING_HYSTERESIS_THRESHOLD : UInt8 := 3

namespace MultihopState

def new : MultihopState where
  address := UNKNOWN_ADDR
  ring := UNKNOWN_RING
  role := .notInit
  slotAssignments := fun _ => 0
  slotCount := 0
  acks := fun _ => 0
  slotsAssigned := 1
  neighbors := RingList.empty
  clusterheadP := 0
  chCredit := 0
  clusterheadRing := UNKNOWN_RING
  clusterheadAddr := UNKNOWN_ADDR
  upstreamStartSlot := 0
  upstreamRelativeSlot := 0
  upstreamAckSlot := 0
  downstreamStartSlot := 0
  roundsWithoutLower := 0

def resetNeighbors (s : MultihopState) : MultihopState := { s with neighbors := RingList.empty }

/-- The two loops that shift the counts up by `offset` and clear the ones below. -/
def shiftCounts (counts : Fin 8 → UInt8) (offset : Nat) : Fin 8 → UInt8 := fun i =>
  if offset ≤ i.val then counts ⟨i.val - offset, by omega⟩ else 0

/-- The histogram with its range moved down to a ring below it. -/
def lowerStart (list : RingList) (neighbor : Ring) : RingList :=
  if neighbor < list.ringStart then
    let offset := list.ringStart.toNat - neighbor.toNat
    if 8 ≤ offset then ⟨neighbor, fun _ => 0⟩ else ⟨neighbor, shiftCounts list.counts offset⟩
  else list

def bump (list : RingList) (neighbor : Ring) : RingList :=
  let index := neighbor.toNat - list.ringStart.toNat
  { list with counts := fun i => if i.val = index then list.counts i + 1 else list.counts i }

/-- The histogram after one more neighbor of ring `neighbor`. -/
def countNeighbor (list : RingList) (neighbor : Ring) : RingList :=
  let list := if list.firstCount = 0 then { list with ringStart := neighbor } else list
  let endRing := list.ringStart.toNat + 8
  if list.firstCount ≠ 0 ∧ endRing ≤ neighbor.toNat then list
  else bump (lowerStart list neighbor) neighbor

def addNeighbor (neighbor : Ring) (s : MultihopState) : MultihopState :=
  if UNKNOWN_RING = neighbor then s
  else { s with neighbors := countNeighbor s.neighbors neighbor }

/-- The lowest ring with a count, `UNKNOWN_RING` when there is none. -/
def lowestRing (list : RingList) : Ring :=
  match (List.finRange 8).find? fun i => 0 < list.counts i with
  | some i => list.ringStart + UInt8.ofNat i.val
  | none => UNKNOWN_RING

def withAddress (address : Address) (s : MultihopState) : MultihopState :=
  if GATEWAY_ADDR = address then
    { s with address := address, role := .gateway, ring := GATEWAY_RING }
  else { s with address := address, role := .follower }

def withAcksArray (acks : Nat → UInt32) (sz : Nat) (s : MultihopState) : MultihopState :=
  { s with acks := acks, slotCount := sz }

def clusterheadProbability (p : UInt8) (s : MultihopState) : MultihopState :=
  { s with clusterheadP := p }

def updateRingFromNeighbors (s : MultihopState) : MultihopState :=
  if GATEWAY_ADDR = s.address then { s with ring := GATEWAY_RING }
  else
    let lowest := lowestRing s.neighbors
    if lowest < s.ring then { s with ring := lowest + 1, roundsWithoutLower := 0 }
    else if s.ring ≤ lowest ∧ lowest ≠ UNKNOWN_RING then
      let rounds := s.roundsWithoutLower + 1
      if RING_HYSTERESIS_THRESHOLD ≤ rounds then
        { s with ring := lowest + 1, roundsWithoutLower := 0 }
      else { s with roundsWithoutLower := rounds }
    else
      let rounds := s.roundsWithoutLower + 1
      if RING_HYSTERESIS_THRESHOLD ≤ rounds then
        { s with ring := UNKNOWN_RING, roundsWithoutLower := 0 }
      else { s with roundsWithoutLower := rounds }

def initialized (s : MultihopState) : Bool := decide (s.role ≠ .notInit)

def actsAsClusterhead (s : MultihopState) : Bool :=
  decide (s.role = .gateway) || decide (s.role = .clusterhead)

def actsAsFollower (s : MultihopState) : Bool :=
  decide (s.role = .follower) || decide (s.role = .clusterhead)

end MultihopState

end LoraMultihop.Multihop.State
