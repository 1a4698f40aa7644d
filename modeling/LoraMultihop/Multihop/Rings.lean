/- digest: No node takes a ring below its hop distance to the gateway. -/

import Mathlib.Combinatorics.SimpleGraph.Metric
import LoraMultihop.Foundation.Soup
import LoraMultihop.Multihop.Discovery

set_option autoImplicit false
set_option relaxedAutoImplicit false

namespace LoraMultihop.Multihop.Rings

open LoraMultihop.Foundation.ByteMemory (Bytes)
open LoraMultihop.Foundation.Soup
open LoraMultihop.Net.Params
open LoraMultihop.Link
open LoraMultihop.Multihop.Messages
open LoraMultihop.Multihop.State
open LoraMultihop.Multihop.State.MultihopState
open LoraMultihop.Multihop.Sending
open LoraMultihop.Multihop.Histogram
open LoraMultihop.Multihop.Discovery

/-- A node with the number of heartbeats it has heard since `reset_neighbors`. -/
structure Party where
  node : Node
  heard : Nat

/-- The operations of neighbor discovery, in whatever order. -/
inductive Op
  | announce (stamp now : UInt32) (sent : Bool)
  | hear (b : Bytes)
  | resetNeighbors
  | updateRing

def Op.exec : Op → Party → Party × List Bytes
  | .announce stamp now sent, p =>
      let (n, frames) := announceHeartbeat stamp now sent p.node
      ({ p with node := n }, frames.flatMap Queue.Frame.msgs)
  | .hear b, p =>
      match heartbeatRing b with
      | some ring =>
          (⟨{ p.node with state := p.node.state.addNeighbor ring }, p.heard + 1⟩, [])
      | none => (p, [])
  | .resetNeighbors, p => (⟨{ p.node with state := p.node.state.resetNeighbors }, 0⟩, [])
  | .updateRing, p =>
      ({ p with node := { p.node with state := p.node.state.updateRingFromNeighbors } }, [])

/-- A phase hears fewer than 256 heartbeats. -/
def Op.Enabled : Op → Party → Prop
  | .hear _, p => p.heard < 255
  | _, _ => True

def machine : Machine Party Op Bytes where
  step := Op.exec
  heard
    | .hear b => [b]
    | _ => []
  enabled := Op.Enabled

instance (op : Op) (p : Party) : Decidable (machine.enabled op p) :=
  match op with
  | .hear _ => inferInstanceAs (Decidable (p.heard < 255))
  | .announce _ _ _ | .resetNeighbors | .updateRing => isTrue trivial

def runOps (ops : List Op) (p : Party) : Party := ops.foldl (fun p op => (op.exec p).1) p

/-- A pass of the discovery loop hears its messages one by one and then updates the ring. -/
theorem pass_ops (inp : Input) (n : Node) (heard : Nat) :
    (runOps ((received inp n).map Op.hear ++ [Op.updateRing]) ⟨n, heard⟩).node.state =
      heardState inp n := by
  have hhear (msgs : List Bytes) (p : Party) : (runOps (msgs.map Op.hear) p).node.state =
      addNeighbors (msgs.filterMap heartbeatRing) p.node.state := by
    induction msgs generalizing p with
    | nil => rfl
    | cons b msgs ih =>
        rw [List.map_cons, runOps, List.foldl_cons, ← runOps, ih, Op.exec]
        cases hb : heartbeatRing b with
        | none => rw [List.filterMap_cons_none hb]
        | some ring =>
            rw [List.filterMap_cons_some hb]
            rfl
  rw [runOps, List.foldl_append, List.foldl_cons, List.foldl_nil, ← runOps, Op.exec]
  dsimp only
  rw [hhear, heardState, heardRings]

section Distance

variable {V : Type*} (G : SimpleGraph V) (g : V)

/-- A ring that claims no more than the distance `v` really has. -/
def Honest (v : V) (ring : Ring) : Prop :=
  ring = UNKNOWN_RING ∨ G.edist v g ≤ ((ring.toNat : ℕ) : ℕ∞)

/-- A message from `v` whose ring, if it is a heartbeat, is honest. -/
def Sound (v : V) (b : Bytes) : Prop := ∀ ring, heartbeatRing b = some ring → Honest G g v ring

/-- Where every node starts: the gateway alone has a ring, and nothing has been heard or sent. -/
structure Start (c : Network V Party Bytes) : Prop where
  gateway : ∀ v, (c.procs v).node.state.address = GATEWAY_ADDR ↔ v = g
  source : (c.procs g).node.state.ring = GATEWAY_RING
  others : ∀ v ≠ g, (c.procs v).node.state.ring = UNKNOWN_RING
  neighbors : ∀ v, (c.procs v).node.state.neighbors = RingList.empty
  heard : ∀ v, (c.procs v).heard = 0
  tx : ∀ v, (c.procs v).node.link.tx = []
  air : c.air = []

/-- What `v` knows: its own ring is honest, and so are the rings in its histogram, which its
neighbors announced. -/
structure Known (v : V) (p : Party) : Prop where
  gateway : p.node.state.address = GATEWAY_ADDR ↔ v = g
  ring : Honest G g v p.node.state.ring
  source : v = g → p.node.state.ring = GATEWAY_RING
  counts : ∃ rings, Counted p.node.state.neighbors rings ∧ rings.length ≤ p.heard ∧
    ∀ r ∈ rings, r ≠ UNKNOWN_RING ∧ G.edist v g ≤ ((r.toNat + 1 : ℕ) : ℕ∞)
  tx : Carries (Sound G g v) p.node

def claims : Claims V Party Bytes where
  known v p _ := Known G g v p
  sound := Sound G g
  vouched _ _ _ := True

end Distance

section Steps

variable {V : Type*} {G : SimpleGraph V} {g v : V} {p : Party}

private theorem edist_succ_of_adj {u : V} (hadj : G.Adj u v) {ring : Ring} (h : Honest G g u ring)
    (hknown : ring ≠ UNKNOWN_RING) : G.edist v g ≤ ((ring.toNat + 1 : ℕ) : ℕ∞) := by
  have hone : G.edist v u = 1 := SimpleGraph.edist_eq_one_iff_adj.mpr hadj.symm
  calc G.edist v g ≤ G.edist v u + G.edist u g := SimpleGraph.edist_triangle
    _ ≤ 1 + ((ring.toNat : ℕ) : ℕ∞) := add_le_add hone.le (h.resolve_left hknown)
    _ = ((ring.toNat + 1 : ℕ) : ℕ∞) := by rw [Nat.cast_add, Nat.cast_one, add_comm]

private theorem Known.above_lowest (h : Known G g v p)
    (hlow : lowestRing p.node.state.neighbors ≠ UNKNOWN_RING) :
    Honest G g v (lowestRing p.node.state.neighbors + 1) := by
  obtain ⟨rings, hcounted, -, hrings⟩ := h.counts
  rcases hcounted.lowest with ⟨-, hnone⟩ | ⟨hmem, -⟩
  · exact absurd hnone hlow
  · obtain ⟨hne, hdist⟩ := hrings _ hmem
    exact Or.inr (by rwa [ring_add_one hne])

private theorem Known.announce (h : Known G g v p) (stamp now : UInt32) (sent : Bool) :
    Known G g v (Op.exec (.announce stamp now sent) p).1 ∧
      ∀ b ∈ (Op.exec (.announce stamp now sent) p).2, Sound G g v b := by
  have hbeat : Sound G g v
      (Message.toBytes ⟨stamp, p.node.state.address, .heartbeat p.node.state.ring⟩) := by
    intro ring hring
    have hfits : (Body.heartbeat p.node.state.ring).Fits [] := rfl
    have hdec := @decodeMsg_toBytes ⟨stamp, p.node.state.address, _⟩ [] hfits
    rw [List.append_nil] at hdec
    rw [heartbeatRing, hdec] at hring
    obtain rfl := Option.some.inj hring
    exact h.ring
  obtain ⟨htx, hframes⟩ := announceHeartbeat_carries h.tx stamp now sent hbeat
  have hstate := announceHeartbeat_state stamp now sent p.node
  refine ⟨⟨?_, ?_, ?_, ?_, htx⟩, ?_⟩
  · exact (congrArg (fun s => s.address = GATEWAY_ADDR ↔ v = g) hstate).mpr h.gateway
  · exact (congrArg (fun s => Honest G g v s.ring) hstate).mpr h.ring
  · intro hv
    exact (congrArg MultihopState.ring hstate).trans (h.source hv)
  · obtain ⟨rings, hcounted, hrest⟩ := h.counts
    exact ⟨rings, (congrArg (fun s => Counted s.neighbors rings) hstate).mpr hcounted, hrest⟩
  · intro b hb
    obtain ⟨f, hf, hbf⟩ := List.mem_flatMap.mp hb
    exact hframes f hf b hbf

private theorem Known.hear (h : Known G g v p) (hlt : p.heard < 255) {b : Bytes} {u : V}
    (hsound : Sound G g u b) (hadj : G.Adj u v) : Known G g v (Op.exec (.hear b) p).1 := by
  rw [Op.exec]
  cases hb : heartbeatRing b with
  | none => exact h
  | some ring =>
      dsimp only
      obtain ⟨rings, hcounted, hlen, hrings⟩ := h.counts
      have hstate : ∃ list, p.node.state.addNeighbor ring =
          { p.node.state with neighbors := list } := addNeighbors_kept [ring] p.node.state
      have hnew := hcounted.addNeighbor ring fun _ => lt_of_le_of_lt hlen hlt
      obtain ⟨list, hlist⟩ := hstate
      rw [hlist] at hnew ⊢
      refine ⟨h.gateway, h.ring, h.source, ⟨_, hnew, ?_, ?_⟩, h.tx⟩
      · dsimp only
        split_ifs
        · exact Nat.le_succ_of_le hlen
        · exact Nat.succ_le_succ hlen
      · intro r hr
        by_cases hknown : ring = UNKNOWN_RING
        · exact hrings r (by rwa [if_pos hknown] at hr)
        · rw [if_neg hknown] at hr
          rcases List.mem_cons.mp hr with rfl | hr
          · exact ⟨hknown, edist_succ_of_adj hadj (hsound r hb) hknown⟩
          · exact hrings r hr

private theorem Known.updateRing (h : Known G g v p) : Known G g v (Op.exec .updateRing p).1 := by
  rw [Op.exec]
  by_cases hv : v = g
  · have ha := h.gateway.mpr hv
    have hstate : p.node.state.updateRingFromNeighbors =
        { p.node.state with ring := GATEWAY_RING } := if_pos ha.symm
    rw [hstate]
    refine ⟨h.gateway, Or.inr ?_, fun _ => rfl, h.counts, h.tx⟩
    rw [hv, SimpleGraph.edist_self]
    exact zero_le
  · rcases updateRing_cases (fun ha => hv (h.gateway.mp ha)) with
      ⟨hlow, hstate⟩ | ⟨-, -, hstate⟩ | ⟨-, -, hstate⟩
    · rw [hstate]
      exact ⟨h.gateway, h.above_lowest (ne_unknown_of_lt hlow), fun hg => absurd hg hv, h.counts,
        h.tx⟩
    · rw [hstate]
      exact ⟨h.gateway, h.ring, h.source, h.counts, h.tx⟩
    · rw [hstate]
      refine ⟨h.gateway, ?_, fun hg => absurd hg hv, h.counts, h.tx⟩
      dsimp only
      split_ifs with hnone
      · exact Or.inl rfl
      · exact h.above_lowest hnone

theorem claims_kept : (claims G g).Kept machine G.Adj where
  mono _ _ _ _ h := h
  step u p op air hknown hsound _ henabled hheard := by
    have hquiet (p' : Party) (h : Known G g u p') :
        Known G g u p' ∧ (∀ q ∈ air, True) ∧
          ∀ b ∈ ([] : List Bytes), Sound G g u b ∧ True ∧ ∀ j ≠ u, ∀ _ : Party, True :=
      ⟨h, fun _ _ => trivial, fun b hb => absurd hb List.not_mem_nil⟩
    cases op with
    | announce stamp now sent =>
        obtain ⟨h, hnew⟩ := hknown.announce stamp now sent
        exact ⟨h, fun _ _ => trivial, fun b hb => ⟨hnew b hb, trivial, fun _ _ _ => trivial⟩⟩
    | hear b =>
        obtain ⟨w, hair, hadj⟩ := hheard b List.mem_cons_self
        have h := hknown.hear henabled (hsound _ hair) hadj
        have hout : (Op.exec (.hear b) p).2 = [] := by
          rw [Op.exec]
          split <;> rfl
        exact ⟨h, fun _ _ => trivial, fun m hm => absurd (hout ▸ hm) List.not_mem_nil⟩
    | resetNeighbors =>
        exact hquiet _ ⟨hknown.gateway, hknown.ring, hknown.source,
          ⟨[], counted_empty, Nat.zero_le _, fun r hr => absurd hr List.not_mem_nil⟩, hknown.tx⟩
    | updateRing => exact hquiet _ hknown.updateRing

theorem Start.holds {c : Network V Party Bytes} (h : Start g c) : (claims G g).Holds c := by
  refine ⟨fun u => ⟨h.gateway u, ?_, fun hu => hu ▸ h.source, ?_, ?_⟩, ?_, ?_⟩
  · by_cases hu : u = g
    · rw [hu, h.source]
      exact Or.inr (by rw [SimpleGraph.edist_self]; exact zero_le)
    · exact Or.inl (h.others u hu)
  · exact ⟨[], h.neighbors u ▸ counted_empty, Nat.zero_le _,
      fun r hr => absurd hr List.not_mem_nil⟩
  · intro b hb
    rw [h.tx u] at hb
    exact absurd hb List.not_mem_nil
  · intro q hq
    rw [h.air] at hq
    exact absurd hq List.not_mem_nil
  · intro _ _ _
    exact trivial

end Steps

/-- In every reachable state a known ring is at least the hop distance to the gateway, every
heartbeat on the air carries such a ring, and only the gateway has ring 0. -/
theorem ring_ge_hops {V : Type*} [DecidableEq V] (G : SimpleGraph V) (g : V)
    {start c : Network V Party Bytes} (hstart : Start g start)
    (hreach : Reachable machine G.Adj start c) :
    (∀ v, (c.procs v).node.state.ring ≠ UNKNOWN_RING →
        G.edist v g ≤ (((c.procs v).node.state.ring.toNat : ℕ) : ℕ∞)) ∧
      (∀ v b ring, (v, b) ∈ c.air → heartbeatRing b = some ring → ring ≠ UNKNOWN_RING →
        G.edist v g ≤ ((ring.toNat : ℕ) : ℕ∞)) ∧
      ∀ v, (c.procs v).node.state.ring = GATEWAY_RING ↔ v = g := by
  obtain ⟨hknown, hsound, -⟩ := claims_kept.reachable (hstart.holds (G := G)) hreach
  refine ⟨fun v hv => (hknown v).ring.resolve_left hv,
    fun v b ring hair hb hring => (hsound _ hair ring hb).resolve_left hring,
    fun v => ⟨?_, (hknown v).source⟩⟩
  intro hzero
  have hle := (hknown v).ring.resolve_left (by rw [hzero]; decide)
  rw [hzero] at hle
  exact SimpleGraph.edist_eq_zero_iff.mp (le_antisymm hle zero_le)

def pairStart : Network Bool Party Bytes :=
  ⟨fun v => ⟨setupNode (if v then GATEWAY_ADDR else 1), 0⟩, []⟩

/-- A heartbeat of the gateway reaches its neighbor, which updates its ring. -/
def pairSteps : List (Bool × Op) :=
  [(true, .announce 72 72 true),
    (false, .hear (Message.toBytes ⟨72, GATEWAY_ADDR, .heartbeat GATEWAY_RING⟩)),
    (false, .updateRing)]

theorem neighbor_takes_ring_one :
    let c := pairStart.run machine pairSteps
    (c.procs false).node.state.ring = 1 ∧
      (⊤ : SimpleGraph Bool).edist false true ≤
        (((c.procs false).node.state.ring.toNat : ℕ) : ℕ∞) := by
  intro c
  have hring : (c.procs false).node.state.ring = 1 := by decide +kernel
  have hallowed : Allowed machine (⊤ : SimpleGraph Bool).Adj pairSteps pairStart := by
    decide +kernel
  have h := ring_ge_hops ⊤ true
    ⟨by decide, rfl, by decide, by decide, fun _ => rfl, fun _ => rfl, rfl⟩
    (reachable_run hallowed)
  exact ⟨hring, h.1 false (by rw [hring]; decide)⟩

end LoraMultihop.Multihop.Rings
