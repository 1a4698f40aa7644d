/- digest: When a phase of neighbor discovery announces a known ring only. -/

import LoraMultihop.Multihop.Discovery
import LoraMultihop.Multihop.Codec

set_option autoImplicit false
set_option relaxedAutoImplicit false

namespace LoraMultihop.Multihop.Heartbeats

open LoraMultihop.Foundation.ByteMemory (Bytes)
open LoraMultihop.Net.Params
open LoraMultihop.Net.TimeHelpers
open LoraMultihop.Link
open LoraMultihop.Multihop.Messages
open LoraMultihop.Multihop.State
open LoraMultihop.Multihop.State.MultihopState
open LoraMultihop.Multihop.Sending
open LoraMultihop.Multihop.Histogram
open LoraMultihop.Multihop.Discovery
open LoraMultihop.Multihop.Codec

/-- A pass of the discovery loop, with the locals and the node it begins with. -/
structure Pass where
  inp : Input
  locals : DiscoveryLocals
  node : Node

def passes : List Input → DiscoveryLocals → Node → List Pass
  | [], _, _ => []
  | inp :: inps, l, n =>
      if l.phaseDeadline.reached (inp.millis 0) then []
      else
        let (l', n', _) := discoveryPass inp l n
        ⟨inp, l, n⟩ :: passes inps l' n'

/-- A call of `run_neighbor_discovery`: the node, what it reads before the loop and what each pass
reads. -/
structure Call where
  durationMs : UInt32
  node : Node
  start : Input
  inputs : List Input

def Call.begin (c : Call) : DiscoveryLocals × Node := startDiscovery c.start c.durationMs c.node

def Call.passes (c : Call) : List Pass := Heartbeats.passes c.inputs c.begin.1 c.begin.2

def HEARTBEAT_SZ : Nat := HEADER_SZ + 1

def heartbeat (stamp : UInt32) (s : MultihopState) : Bytes :=
  Message.toBytes ⟨stamp, s.address, .heartbeat s.ring⟩

def Known (msgs : List Bytes) : Prop := ∀ b ∈ msgs, heartbeatRing b ≠ some UNKNOWN_RING

section Passes

variable (p : Pass)

def Pass.frames : List Queue.Frame := (discoveryPass p.inp p.locals p.node).2.2

def Pass.rings : List Ring := heardRings p.inp p.node

/-- The pass tries to announce: it reads the clock once, and again at each Heartbeat. -/
def Pass.announces : Bool :=
  (p.locals.hasRingInfo || decide (p.rings ≠ [])) && !p.locals.announced &&
    p.locals.announceDeadline.reached (p.inp.millis (p.rings.length + 1))

/-- A Heartbeat can be queued, and a radio send would succeed. -/
def Pass.Transmits : Prop :=
  Room HEARTBEAT_SZ (afterRecv p.inp p.node) ∧
    GoesOut (p.inp.now 2) p.inp.sent (afterRecv p.inp p.node)

/-- The histogram of the phase, with the Heartbeats of this pass. -/
def Pass.histogram : RingList := (addNeighbors p.rings p.node.state).neighbors

/-- A ring low enough to give the node one has been heard, or the node keeps the ring it has. -/
def Pass.HasRing : Prop :=
  lowestRing p.histogram < 254 ∨
    p.node.state.ring ≠ UNKNOWN_RING ∧
      p.node.state.roundsWithoutLower + 1 < RING_HYSTERESIS_THRESHOLD

end Passes

/-- Nothing that goes out is a Heartbeat of an unknown ring, and the ring is known wherever the
node announces. -/
def Call.AnnouncesKnown (c : Call) : Prop :=
  ∀ p ∈ c.passes, (∀ f ∈ p.frames, Known f.msgs) ∧
    (p.announces = true → (heardState p.inp p.node).ring ≠ UNKNOWN_RING)

theorem heartbeatRing_heartbeat (stamp : UInt32) (s : MultihopState) :
    heartbeatRing (heartbeat stamp s) = some s.ring := by
  let m : Message := ⟨stamp, s.address, .heartbeat s.ring⟩
  have hdecode := decodeMsg_toBytes (show m.body.Fits [] from rfl)
  rw [List.append_nil] at hdecode
  rw [heartbeatRing, heartbeat, hdecode]

private theorem updateRing_unknown_iff {s : MultihopState} (ha : s.address ≠ GATEWAY_ADDR) :
    s.updateRingFromNeighbors.ring = UNKNOWN_RING ↔
      254 ≤ lowestRing s.neighbors ∧
        (s.ring = UNKNOWN_RING ∨ RING_HYSTERESIS_THRESHOLD ≤ s.roundsWithoutLower + 1) := by
  have hunknown : UNKNOWN_RING.toNat = 255 := rfl
  have hlimit : (254 : Ring).toNat = 254 := rfl
  have hlow := (lowestRing s.neighbors).toNat_lt
  have hring := s.ring.toNat_lt
  have hsucc : lowestRing s.neighbors ≠ UNKNOWN_RING →
      (lowestRing s.neighbors + 1 = UNKNOWN_RING ↔ 254 ≤ lowestRing s.neighbors) := by
    intro hne
    have hsum := ring_add_one hne
    rw [← UInt8.toNat_inj, hsum, UInt8.le_iff_toNat_le, hunknown, hlimit]
    have hlt : (lowestRing s.neighbors).toNat ≠ 255 := fun h => hne (UInt8.toNat_inj.mp h)
    omega
  rcases updateRing_cases ha with ⟨hlt, hs⟩ | ⟨hle, hrounds, hs⟩ | ⟨hle, hrounds, hs⟩
  · rw [hs]
    change lowestRing s.neighbors + 1 = UNKNOWN_RING ↔ _
    rw [hsucc (ne_unknown_of_lt hlt)]
    rw [UInt8.lt_iff_toNat_lt] at hlt
    refine ⟨fun h => ⟨h, Or.inl ?_⟩, fun h => h.1⟩
    apply UInt8.toNat_inj.mp
    rw [UInt8.le_iff_toNat_le] at h
    omega
  · rw [hs]
    change s.ring = UNKNOWN_RING ↔ _
    rw [or_iff_left (UInt8.not_le.mpr hrounds)]
    refine ⟨fun h => ⟨?_, h⟩, fun h => h.2⟩
    rw [h, UInt8.le_iff_toNat_le] at hle
    rw [UInt8.le_iff_toNat_le]
    omega
  · rw [hs]
    dsimp only
    rw [and_iff_left (Or.inr hrounds)]
    split_ifs with hnone
    · rw [hnone]
      decide
    · exact hsucc hnone

private theorem hear_tryToAnnounce (inp : Input) (l : DiscoveryLocals) (msgs : List Bytes)
    (h : Hearing) : (msgs.foldl (hear inp l) h).tryToAnnounce =
      if msgs.filterMap heartbeatRing = [] then h.tryToAnnounce
      else !l.announced && l.announceDeadline.reached
        (inp.millis (h.calls + (msgs.filterMap heartbeatRing).length - 1)) := by
  induction msgs generalizing h with
  | nil => rfl
  | cons b msgs ih =>
      rw [List.foldl_cons, ih, hear]
      cases hb : heartbeatRing b with
      | none => rw [List.filterMap_cons_none hb]
      | some ring =>
          rw [List.filterMap_cons_some hb, if_neg (List.cons_ne_nil _ _)]
          dsimp only
          split_ifs with hnil
          · rw [hnil]
            rfl
          · rw [List.length_cons]
            congr 4
            omega

section Steps

variable (p : Pass)

private theorem announces_eq :
    ((received p.inp p.node).foldl (hear p.inp p.locals)
      ⟨p.node.state, p.locals.hasRingInfo,
        p.locals.hasRingInfo && (!p.locals.announced &&
          p.locals.announceDeadline.reached (p.inp.millis 1)), 2⟩).tryToAnnounce =
      p.announces := by
  rw [hear_tryToAnnounce, Pass.announces]
  change (if p.rings = [] then _ else !p.locals.announced &&
    p.locals.announceDeadline.reached (p.inp.millis (2 + p.rings.length - 1))) = _
  split_ifs with hnil
  · rw [hnil]
    simp [Bool.and_assoc]
  · have hcalls : 2 + p.rings.length - 1 = p.rings.length + 1 := by omega
    rw [hcalls]
    simp [hnil]

/-- The node that the pass announces, if it does. -/
def Pass.heard : Node := { afterRecv p.inp p.node with state := heardState p.inp p.node }

private theorem pass_cases :
    p.announces = true ∧ (discoveryPass p.inp p.locals p.node).1.announced = true ∧
        p.frames = (announceHeartbeat (p.inp.now 1) (p.inp.now 2) p.inp.sent p.heard).2 ∨
      p.announces = false ∧ p.frames = [] ∧
        (discoveryPass p.inp p.locals p.node).1.announced = p.locals.announced ∧
        (discoveryPass p.inp p.locals p.node).2.1 = p.heard := by
  rw [Pass.frames, discoveryPass_eq]
  dsimp only
  rw [announces_eq]
  by_cases hannounces : p.announces = true
  · rw [if_pos hannounces]
    exact Or.inl ⟨hannounces, rfl, rfl⟩
  · rw [if_neg hannounces]
    exact Or.inr ⟨by simpa using hannounces, rfl, rfl, rfl⟩

variable {p}

private theorem announces_not_announced (h : p.announces = true) : p.locals.announced = false := by
  simp only [Pass.announces, Bool.and_eq_true, Bool.not_eq_true'] at h
  exact h.1.2

private theorem sendHeartbeat_cases (stamp : UInt32) {n : Node} (hi : n.state.initialized = true) :
    (sendHeartbeat stamp n).1 = .ok ∧ Room HEARTBEAT_SZ n ∧
        (sendHeartbeat stamp n).2 = n.push (heartbeat stamp n.state) ∨
      (sendHeartbeat stamp n).1 ≠ .ok ∧ ¬ Room HEARTBEAT_SZ n ∧ (sendHeartbeat stamp n).2 = n := by
  rw [sendHeartbeat, if_neg (by simp [hi])]
  have hcases := send_cases ⟨stamp, n.state.address, .heartbeat n.state.ring⟩ [] n
  rw [List.append_nil, toBytes_length] at hcases
  exact hcases

private theorem heard_goesOut (p : Pass) :
    GoesOut (p.inp.now 2) p.inp.sent p.heard ↔
      GoesOut (p.inp.now 2) p.inp.sent (afterRecv p.inp p.node) := by
  have hsame : (afterRecv p.inp p.node).state = p.node.state := by
    rw [afterRecv]
    dsimp only
    split_ifs <;> rfl
  obtain ⟨neighbors, ring, rounds, hstate⟩ := heardState_kept p.inp p.node
  rw [GoesOut, GoesOut, hsame, Pass.heard]
  dsimp only
  rw [hstate]
  rfl

private theorem announceHeartbeat_frames (hannounces : p.announces = true) :
    p.Transmits ∧ p.frames = [⟨(afterRecv p.inp p.node).link.code,
        p.node.link.tx ++ [heartbeat (p.inp.now 1) (heardState p.inp p.node)]⟩] ∨
      ¬ p.Transmits ∧ p.frames = [] := by
  have hframes : p.frames =
      (announceHeartbeat (p.inp.now 1) (p.inp.now 2) p.inp.sent p.heard).2 := by
    rcases pass_cases p with ⟨-, -, h⟩ | ⟨hnot, -⟩
    · exact h
    · rw [hannounces] at hnot
      exact absurd hnot (by simp)
  have hout := heard_goesOut p
  have htx : p.heard.link.tx = p.node.link.tx := (afterRecv_link p.inp p.node).1
  rw [hframes, announceHeartbeat]
  dsimp only
  by_cases hi : p.heard.state.initialized = true
  · rcases sendHeartbeat_cases (p.inp.now 1) hi with ⟨hok, hroom, hn⟩ | ⟨hfail, hfull, hn⟩
    · rw [if_pos hok, hn]
      by_cases hgo : GoesOut (p.inp.now 2) p.inp.sent p.heard
      · rw [flush_out (goesOut_push.mpr hgo), push_tx, htx]
        exact Or.inl ⟨⟨hroom, hout.mp hgo⟩, rfl⟩
      · refine Or.inr ⟨fun h => hgo (hout.mpr h.2), ?_⟩
        exact (flush_kept fun h => hgo (goesOut_push.mp h)).2.1
    · rw [if_neg hfail]
      exact Or.inr ⟨fun h => hfull h.1, rfl⟩
  · have hquiet : (sendHeartbeat (p.inp.now 1) p.heard).1 ≠ .ok := by
      rw [sendHeartbeat, if_pos (by simpa using hi)]
      simp
    rw [if_neg hquiet]
    exact Or.inr ⟨fun h => hi (hout.mpr h.2).1, rfl⟩

end Steps

section Runs

variable {inps : List Input} {l : DiscoveryLocals} {n : Node} {p : Pass}

/-- Until the node has announced, the queue is the one the phase began with. -/
private theorem passes_kept (hp : p ∈ passes inps l n) :
    p.node.state.address = n.state.address ∧
      (p.locals.announced = false → l.announced = false ∧ p.node.link.tx = n.link.tx) := by
  induction inps generalizing l n with
  | nil => exact absurd hp List.not_mem_nil
  | cons inp inps ih =>
      rw [passes] at hp
      dsimp only at hp
      split_ifs at hp
      · exact absurd hp List.not_mem_nil
      · cases List.mem_cons.mp hp with
        | inl hhere =>
            rw [hhere]
            exact ⟨rfl, fun h => ⟨h, rfl⟩⟩
        | inr hlater =>
            obtain ⟨haddr, hquiet⟩ := ih hlater
            obtain ⟨neighbors, ring, rounds, hstate⟩ := heardState_kept inp n
            refine ⟨?_, ?_⟩
            · rw [haddr, discoveryPass_state, hstate]
            · intro h
              obtain ⟨hnot, htx⟩ := hquiet h
              rcases pass_cases ⟨inp, l, n⟩ with ⟨-, hset, -⟩ | ⟨-, -, hsame, hnode⟩
              · rw [hset] at hnot
                exact absurd hnot (by simp)
              · rw [hsame] at hnot
                refine ⟨hnot, ?_⟩
                rw [htx, hnode]
                exact (afterRecv_link inp n).1

end Runs

private theorem heardState_known_iff {p : Pass} (ha : p.node.state.address ≠ GATEWAY_ADDR) :
    (heardState p.inp p.node).ring ≠ UNKNOWN_RING ↔ p.HasRing := by
  obtain ⟨list, hlist⟩ := addNeighbors_kept p.rings p.node.state
  have ha' : (addNeighbors p.rings p.node.state).address ≠ GATEWAY_ADDR := by
    rw [hlist]
    exact ha
  have hiff := updateRing_unknown_iff ha'
  rw [Pass.HasRing, Pass.histogram, ← UInt8.not_le, ← UInt8.not_le, ← not_or, ← not_and_or,
    not_iff_not]
  rw [hlist] at hiff ⊢
  rw [heardState, show heardRings p.inp p.node = p.rings from rfl, hlist]
  exact hiff

/-- A phase of a node that is no gateway announces a known ring only exactly if in the pass that
announces the node has or gets a ring, and no old Heartbeat of an unknown ring waits in the queue
where that pass transmits. -/
theorem announces_known_iff {c : Call} (hnode : c.node.state.address ≠ GATEWAY_ADDR) :
    c.AnnouncesKnown ↔
      ∀ p ∈ c.passes, p.announces = true →
        p.HasRing ∧ (p.Transmits → Known c.node.link.tx) := by
  have haddr (p : Pass) (hp : p ∈ c.passes) : p.node.state.address ≠ GATEWAY_ADDR := by
    rw [(passes_kept hp).1]
    exact hnode
  constructor
  · intro hknown p hp hannounces
    obtain ⟨hframes, hring⟩ := hknown p hp
    refine ⟨(heardState_known_iff (haddr p hp)).mp (hring hannounces), ?_⟩
    intro htransmits b hb
    rcases announceHeartbeat_frames hannounces with ⟨-, hout⟩ | ⟨hno, -⟩
    · rw [((passes_kept hp).2 (announces_not_announced hannounces)).2] at hout
      rw [hout] at hframes
      exact hframes _ (List.mem_singleton.mpr rfl) b (List.mem_append_left _ hb)
    · exact absurd htransmits hno
  · intro hholds p hp
    refine ⟨?_, fun hannounces =>
      (heardState_known_iff (haddr p hp)).mpr (hholds p hp hannounces).1⟩
    intro f hf b hb
    rcases pass_cases p with ⟨hannounces, -, -⟩ | ⟨-, hnone, -⟩
    · obtain ⟨hring, hqueue⟩ := hholds p hp hannounces
      rcases announceHeartbeat_frames hannounces with ⟨htransmits, hout⟩ | ⟨-, hout⟩
      · rw [((passes_kept hp).2 (announces_not_announced hannounces)).2] at hout
        rw [hout, List.mem_singleton] at hf
        rw [hf] at hb
        cases List.mem_append.mp hb with
        | inl hold => exact hqueue htransmits b hold
        | inr hnew =>
            rw [List.mem_singleton.mp hnew, heartbeatRing_heartbeat]
            intro heq
            exact (heardState_known_iff (haddr p hp)).mpr hring (Option.some.inj heq)
      · rw [hout] at hf
        exact absurd hf List.not_mem_nil
    · rw [hnone] at hf
      exact absurd hf List.not_mem_nil

/-- A node of ring `ring` that hears one Heartbeat of ring `other`, or times out. -/
def listening (ring : Ring) (rounds : UInt8) (other : Option Ring) : Call where
  durationMs := 26400
  node :=
    { setupNode 5 with
      state := { (setupNode 5).state with ring := ring, roundsWithoutLower := rounds } }
  start := reading 1000 72 .timedOut
  inputs :=
    match other with
    | some other =>
        [reading 1001 72 (.accepted [heartbeat 72 { (setupNode 6).state with ring := other }])]
    | none => [reading 1001 72 .timedOut]

instance (msgs : List Bytes) : Decidable (Known msgs) :=
  inferInstanceAs (Decidable (∀ b ∈ msgs, heartbeatRing b ≠ some UNKNOWN_RING))

instance (c : Call) : Decidable c.AnnouncesKnown :=
  inferInstanceAs (Decidable (∀ p ∈ c.passes, (∀ f ∈ p.frames, Known f.msgs) ∧
    (p.announces = true → (heardState p.inp p.node).ring ≠ UNKNOWN_RING)))

/-- A new node that hears another one announces an unknown ring, and so does a node that gives up
its ring in the pass that announces. -/
theorem unknown_ring_is_announced :
    (∃ p ∈ (listening 255 0 (some 255)).passes, ∃ f ∈ p.frames, ¬ Known f.msgs) ∧
      (∃ p ∈ (listening 2 2 none).passes, ∃ f ∈ p.frames, ¬ Known f.msgs) ∧
      ¬ (listening 255 0 (some 255)).AnnouncesKnown ∧ ¬ (listening 2 2 none).AnnouncesKnown := by
  decide +kernel

/-- A new node that hears a node of ring 1 announces a ring it has. -/
theorem known_ring_is_announced : (listening 255 0 (some 1)).AnnouncesKnown := by
  apply (announces_known_iff (by decide)).mpr
  have hring : ∀ p ∈ (listening 255 0 (some 1)).passes, p.HasRing := by
    unfold Pass.HasRing
    decide +kernel
  intro p hp _
  exact ⟨hring p hp, fun _ b hb => absurd hb List.not_mem_nil⟩

end LoraMultihop.Multihop.Heartbeats
