/- digest: The neighbor discovery phase of the advertising slot, one loop pass at a time. -/

import LoraMultihop.Net.TimeHelpers
import LoraMultihop.Multihop.Histogram
import LoraMultihop.Multihop.Sending

set_option autoImplicit false
set_option relaxedAutoImplicit false

namespace LoraMultihop.Multihop.Discovery

open LoraMultihop.Foundation.ByteMemory (Bytes)
open LoraMultihop.Net.Params
open LoraMultihop.Net.TimeHelpers
open LoraMultihop.Link
open LoraMultihop.Multihop.Messages
open LoraMultihop.Multihop.State
open LoraMultihop.Multihop.State.MultihopState
open LoraMultihop.Multihop.Sending

/-- What one pass of a loop reads from outside: `millis()`, `time::now()` and `rand()` at each call,
whether the radio takes a frame, and how the wait on the radio ends. -/
structure Input where
  millis : Nat → UInt32
  now : Nat → UInt32
  rand : Nat → UInt32
  sent : Bool
  arrival : Queue.Arrival

def Input.heard (inp : Input) : List Bytes :=
  match inp.arrival with
  | .accepted msgs => msgs
  | _ => []

def recv (now : UInt32) (arrival : Queue.Arrival) (n : Node) : Layer.RC × Node :=
  let (rc, link) := Queue.recv now arrival n.link
  (rc, { n with link := link })

/-- The node after a loop over `getmsg` has reached its end. -/
def drained (n : Node) : Node := { n with link := { n.link with rx := [] } }

/-- The ring in a message that discovery takes as a heartbeat. -/
def heartbeatRing (b : Bytes) : Option Ring :=
  match decodeMsg b with
  | some (⟨_, _, .heartbeat ring⟩, _) => some ring
  | _ => none

structure DiscoveryLocals where
  phaseDeadline : MsDeadline
  announceDeadline : MsDeadline
  announced : Bool
  hasRingInfo : Bool

def startDiscovery (inp : Input) (durationMs : UInt32) (n : Node) : DiscoveryLocals × Node :=
  let n := { n with state := n.state.resetNeighbors }
  let delayMs :=
    if GATEWAY_RING = n.state.ring then 0 else randDelayMs (inp.rand 0) 0 (durationMs / 4)
  (⟨MsDeadline.create durationMs (inp.millis 0), MsDeadline.create delayMs (inp.millis 1), false,
    decide (UNKNOWN_RING ≠ n.state.ring)⟩, n)

/-- The locals of the loop over the received messages; `calls` counts the clock readings. -/
structure Hearing where
  state : MultihopState
  hasRingInfo : Bool
  tryToAnnounce : Bool
  calls : Nat

def hear (inp : Input) (l : DiscoveryLocals) (h : Hearing) (b : Bytes) : Hearing :=
  match heartbeatRing b with
  | some ring =>
      ⟨h.state.addNeighbor ring, true,
        !l.announced && l.announceDeadline.reached (inp.millis h.calls), h.calls + 1⟩
  | none => h

def announceHeartbeat (stamp now : UInt32) (sent : Bool) (n : Node) : Node × List Queue.Frame :=
  let (rc, n) := sendHeartbeat stamp n
  if rc = .ok then
    let (_, n, frames) := Sending.flush now sent n
    (n, frames)
  else (n, [])

def received (inp : Input) (n : Node) : List Bytes :=
  let (rc, n) := recv (inp.now 0) inp.arrival n
  if rc = .ok then n.link.rx else []

def afterRecv (inp : Input) (n : Node) : Node :=
  let (rc, n) := recv (inp.now 0) inp.arrival n
  if rc = .ok then drained n else n

/-- The body of the loop; its condition has taken the first reading of `millis()`. -/
def discoveryPass (inp : Input) (l : DiscoveryLocals) (n : Node) :
    DiscoveryLocals × Node × List Queue.Frame :=
  let tryToAnnounce :=
    l.hasRingInfo && (!l.announced && l.announceDeadline.reached (inp.millis 1))
  let h := (received inp n).foldl (hear inp l) ⟨n.state, l.hasRingInfo, tryToAnnounce, 2⟩
  let n := { afterRecv inp n with state := h.state.updateRingFromNeighbors }
  let l := { l with hasRingInfo := h.hasRingInfo }
  if h.tryToAnnounce then
    let (n, frames) := announceHeartbeat (inp.now 1) (inp.now 2) inp.sent n
    ({ l with announced := true }, n, frames)
  else (l, n, [])

def heardRings (inp : Input) (n : Node) : List Ring := (received inp n).filterMap heartbeatRing

def addNeighbors (rings : List Ring) (s : MultihopState) : MultihopState :=
  rings.foldl (fun s ring => s.addNeighbor ring) s

/-- A pass at one reading of the two clocks. -/
def reading (millis now : UInt32) (arrival : Queue.Arrival) : Input :=
  ⟨fun _ => millis, fun _ => now, fun _ => 0, true, arrival⟩

@[simp] theorem recv_state (now : UInt32) (arrival : Queue.Arrival) (n : Node) :
    (recv now arrival n).2.state = n.state := rfl

theorem recv_link (now : UInt32) (arrival : Queue.Arrival) (n : Node) :
    (recv now arrival n).2.link.tx = n.link.tx ∧ (recv now arrival n).2.mac = n.mac := by
  change (Queue.recv now arrival n.link).2.tx = _ ∧ (Queue.recv now arrival n.link).2.mac = _
  rcases Queue.recv_cases now arrival n.link with ⟨-, w, hs⟩ | ⟨-, w, hs⟩
  · rw [hs]
    exact ⟨rfl, rfl⟩
  · rw [hs]
    exact ⟨rfl, rfl⟩

theorem recv_rx {now : UInt32} {inp : Input} {n : Node} {b : Bytes}
    (hb : b ∈ (recv now inp.arrival n).2.link.rx) : b ∈ n.link.rx ∨ b ∈ inp.heard := by
  change b ∈ (Queue.recv now inp.arrival n.link).2.rx at hb
  rcases Queue.recv_cases now inp.arrival n.link with ⟨-, w, hs⟩ | ⟨-, w, hs⟩
  · rw [hs] at hb
    exact Or.inl hb
  · rw [hs] at hb
    exact Or.inr hb

theorem announceHeartbeat_state (stamp now : UInt32) (sent : Bool) (n : Node) :
    (announceHeartbeat stamp now sent n).1.state = n.state := by
  have hsend : (sendHeartbeat stamp n).2.state = n.state := by
    rw [sendHeartbeat]
    split_ifs <;> rfl
  rw [announceHeartbeat]
  dsimp only
  split_ifs
  · exact (flush_state ..).trans hsend
  · exact hsend

theorem announceHeartbeat_link (stamp now : UInt32) (sent : Bool) (n : Node) :
    (announceHeartbeat stamp now sent n).1.link.rx = n.link.rx ∧
      (announceHeartbeat stamp now sent n).1.mac = n.mac := by
  have hsend : (sendHeartbeat stamp n).2.link.rx = n.link.rx ∧
      (sendHeartbeat stamp n).2.mac = n.mac := by
    rw [sendHeartbeat]
    split_ifs
    · exact ⟨rfl, rfl⟩
    · exact ⟨send_rx .., send_mac ..⟩
  rw [announceHeartbeat]
  dsimp only
  split_ifs
  · exact ⟨(flush_rx ..).trans hsend.1, (flush_mac ..).trans hsend.2⟩
  · exact hsend

theorem announceHeartbeat_carries {P : Bytes → Prop} {n : Node} (h : Carries P n)
    (stamp now : UInt32) (sent : Bool)
    (hbeat : P (Message.toBytes ⟨stamp, n.state.address, .heartbeat n.state.ring⟩)) :
    Carries P (announceHeartbeat stamp now sent n).1 ∧
      ∀ f ∈ (announceHeartbeat stamp now sent n).2, ∀ b ∈ f.msgs, P b := by
  have hsend : Carries P (sendHeartbeat stamp n).2 := by
    rw [sendHeartbeat]
    split_ifs
    · exact h
    · exact h.send (by rwa [List.append_nil])
  rw [announceHeartbeat]
  dsimp only
  split_ifs
  · exact hsend.flush now sent
  · exact ⟨hsend, fun f hf => absurd hf List.not_mem_nil⟩

private theorem hear_state (inp : Input) (l : DiscoveryLocals) (msgs : List Bytes) (h : Hearing) :
    (msgs.foldl (hear inp l) h).state = addNeighbors (msgs.filterMap heartbeatRing) h.state := by
  induction msgs generalizing h with
  | nil => rfl
  | cons b msgs ih =>
      rw [List.foldl_cons, ih, hear]
      cases hb : heartbeatRing b with
      | none => rw [List.filterMap_cons_none hb]
      | some ring =>
          rw [List.filterMap_cons_some hb]
          rfl

theorem afterRecv_link (inp : Input) (n : Node) :
    (afterRecv inp n).link.tx = n.link.tx ∧
      ∀ b ∈ (afterRecv inp n).link.rx, b ∈ n.link.rx ∨ b ∈ inp.heard := by
  rw [afterRecv]
  dsimp only
  split_ifs
  · exact ⟨(recv_link ..).1, fun b hb => absurd hb List.not_mem_nil⟩
  · exact ⟨(recv_link ..).1, fun b hb => recv_rx hb⟩

/-- The state a pass reaches: it counts the rings it hears and updates the ring once. -/
def heardState (inp : Input) (n : Node) : MultihopState :=
  (addNeighbors (heardRings inp n) n.state).updateRingFromNeighbors

theorem discoveryPass_eq (inp : Input) (l : DiscoveryLocals) (n : Node) :
    let h := (received inp n).foldl (hear inp l)
      ⟨n.state, l.hasRingInfo,
        l.hasRingInfo && (!l.announced && l.announceDeadline.reached (inp.millis 1)), 2⟩
    let n' : Node := { afterRecv inp n with state := heardState inp n }
    discoveryPass inp l n =
      if h.tryToAnnounce then
        ({ l with hasRingInfo := h.hasRingInfo, announced := true },
          announceHeartbeat (inp.now 1) (inp.now 2) inp.sent n')
      else ({ l with hasRingInfo := h.hasRingInfo }, n', []) := by
  intro h n'
  have hstate : h.state.updateRingFromNeighbors = heardState inp n := by
    rw [hear_state, heardState, heardRings]
  rw [discoveryPass]
  change (if h.tryToAnnounce = true then _ else _) = _
  dsimp only
  by_cases hannounce : h.tryToAnnounce = true
  · rw [if_pos hannounce, if_pos hannounce, hstate]
  · rw [if_neg hannounce, if_neg hannounce, hstate]

/-- A pass ends with the announcement of the state it has reached, or without one. -/
theorem discoveryPass_cases (inp : Input) (l : DiscoveryLocals) (n : Node) :
    (discoveryPass inp l n).2 =
        announceHeartbeat (inp.now 1) (inp.now 2) inp.sent
          { afterRecv inp n with state := heardState inp n } ∨
      (discoveryPass inp l n).2 = ({ afterRecv inp n with state := heardState inp n }, []) := by
  rw [discoveryPass_eq]
  split_ifs
  · left
    dsimp only
  · exact Or.inr rfl

theorem discoveryPass_state (inp : Input) (l : DiscoveryLocals) (n : Node) :
    (discoveryPass inp l n).2.1.state = heardState inp n := by
  cases discoveryPass_cases inp l n with
  | inl h =>
      rw [h, announceHeartbeat_state]
  | inr h =>
      rw [h]

theorem discoveryPass_rx {inp : Input} {l : DiscoveryLocals} {n : Node} {b : Bytes}
    (hb : b ∈ (discoveryPass inp l n).2.1.link.rx) : b ∈ n.link.rx ∨ b ∈ inp.heard := by
  cases discoveryPass_cases inp l n with
  | inl h =>
      rw [h, (announceHeartbeat_link ..).1] at hb
      exact (afterRecv_link inp n).2 b hb
  | inr h =>
      rw [h] at hb
      exact (afterRecv_link inp n).2 b hb

theorem discoveryPass_deadline (inp : Input) (l : DiscoveryLocals) (n : Node) :
    (discoveryPass inp l n).1.phaseDeadline = l.phaseDeadline := by
  rw [discoveryPass]
  dsimp only
  split_ifs <;> rfl

theorem addNeighbors_kept (rings : List Ring) (s : MultihopState) :
    ∃ list, addNeighbors rings s = { s with neighbors := list } := by
  induction rings generalizing s with
  | nil => exact ⟨s.neighbors, rfl⟩
  | cons ring rings ih =>
      have hstep : ∃ list, s.addNeighbor ring = { s with neighbors := list } := by
        rw [addNeighbor]
        split_ifs
        · exact ⟨s.neighbors, rfl⟩
        · exact ⟨_, rfl⟩
      obtain ⟨list, hlist⟩ := hstep
      obtain ⟨list', hlist'⟩ := ih { s with neighbors := list }
      exact ⟨list', by rw [addNeighbors, List.foldl_cons, hlist]; exact hlist'⟩

/-- Discovery changes nothing of the state but the histogram, the ring and its counter. -/
theorem heardState_kept (inp : Input) (n : Node) :
    ∃ neighbors ring rounds, heardState inp n =
      { n.state with neighbors := neighbors, ring := ring, roundsWithoutLower := rounds } := by
  obtain ⟨list, hlist⟩ := addNeighbors_kept (heardRings inp n) n.state
  rw [heardState, hlist, updateRingFromNeighbors]
  dsimp only
  split_ifs <;> exact ⟨_, _, _, rfl⟩

theorem heardState_gateway (inp : Input) {n : Node} (h : n.state.address = GATEWAY_ADDR) :
    (heardState inp n).ring = GATEWAY_RING := by
  obtain ⟨list, hlist⟩ := addNeighbors_kept (heardRings inp n) n.state
  rw [heardState, hlist, updateRingFromNeighbors]
  exact congrArg MultihopState.ring (if_pos h.symm)

theorem discoveryPass_carries {P : Bytes → Prop} (inp : Input) (l : DiscoveryLocals) {n : Node}
    (h : Carries P n)
    (hbeat : ∀ stamp ring, P (Message.toBytes ⟨stamp, n.state.address, .heartbeat ring⟩)) :
    Carries P (discoveryPass inp l n).2.1 ∧
      ∀ f ∈ (discoveryPass inp l n).2.2, ∀ b ∈ f.msgs, P b := by
  obtain ⟨neighbors, ring, rounds, hstate⟩ := heardState_kept inp n
  have hout : Carries P { afterRecv inp n with state := heardState inp n } := fun b hb =>
    h b ((afterRecv_link inp n).1 ▸ hb)
  cases discoveryPass_cases inp l n with
  | inl heq =>
      rw [heq]
      apply announceHeartbeat_carries hout _ _ _
      rw [hstate]
      exact hbeat _ _
  | inr heq =>
      rw [heq]
      exact ⟨hout, fun f hf => absurd hf List.not_mem_nil⟩

/-- A node as the node program sets it up, in its first window. -/
def setupNode (address : Address) : Node where
  state :=
    { ((MultihopState.new.withAddress address).clusterheadProbability 255) with
      slotCount := SUPERFRAME_SLOT_COUNT.toNat }
  link :=
    { initialized := true
      mac := setupMac
      macState := ⟨71, 137⟩
      msgMaxBytes := setupLink.msgMaxBytes
      txSz := setupLink.txSz
      code := DEFAULT_CODE
      tx := []
      rx := [] }

end LoraMultihop.Multihop.Discovery
