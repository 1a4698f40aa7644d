/- digest: Followers and clusterheads agree on slots, and the clusters form a forest. -/

import LoraMultihop.Multihop.Clusters

set_option autoImplicit false
set_option relaxedAutoImplicit false

namespace LoraMultihop.Multihop.Joining

open LoraMultihop.Foundation.ByteMemory (Bytes)
open LoraMultihop.Foundation.Soup
open LoraMultihop.Net.Params
open LoraMultihop.Link
open LoraMultihop.Multihop.Messages
open LoraMultihop.Multihop.State
open LoraMultihop.Multihop.Sending
open LoraMultihop.Multihop.Discovery
open LoraMultihop.Multihop.Advertise
open LoraMultihop.Multihop.Clusters

section Network

variable {ι : Type*} (addr : ι → Address)

/-- Nodes with distinct addresses before their superframe: initialized, with nothing queued, nothing
left to read and nothing on the air. -/
structure Start (c : Network ι Proc Bytes) : Prop where
  distinct : Function.Injective addr
  idle : ∀ i, (c.procs i).control = .idle
  address : ∀ i, (c.procs i).node.state.address = addr i
  gateway : ∀ i, (c.procs i).node.state.role = .gateway ↔ addr i = GATEWAY_ADDR
  cached : ∀ i, Cached (c.procs i).node.mac (c.procs i).node.link.macState
  slots : ∀ i, (c.procs i).node.mac.superframeSlotCount.toNat ≤ (c.procs i).node.state.slotCount
  tx : ∀ i, (c.procs i).node.link.tx = []
  rx : ∀ i, (c.procs i).node.link.rx = []
  air : c.air = []

/-- In this superframe node `f` has joined the cluster of node `ch`. -/
structure Follows (c : Network ι Proc Bytes) (f ch : ι) : Prop where
  started : (c.procs f).control.started = true
  head : (c.procs f).node.state.clusterheadAddr = addr ch
  known : addr ch ≠ UNKNOWN_ADDR

end Network

section Superframe

variable {ι : Type*} {addr : ι → Address} {start c : Network ι Proc Bytes}

theorem started_iff (control : Control) : control.started = true ↔ control ≠ .idle := by
  cases control <;> simp [Control.started]

private theorem Start.holds (h : Start addr start) : (claims addr).Holds start := by
  refine ⟨fun i => ⟨h.address i, h.gateway i, fun _ => ⟨h.cached i, h.slots i⟩,
    fun hi => absurd (h.idle i) hi, ?_, ?_, ?_, fun hi => absurd (h.idle i) hi⟩, ?_, ?_⟩
  · rw [h.rx i]
    intro b hb
    exact absurd hb List.not_mem_nil
  · intro b hb
    rw [h.tx i] at hb
    exact absurd hb List.not_mem_nil
  · rw [h.idle i]
    trivial
  · rw [h.air]
    intro q hq
    exact absurd hq List.not_mem_nil
  · rw [h.air]
    intro q hq
    exact absurd hq List.not_mem_nil

theorem upstream_of_joined (hholds : (claims addr).Holds c) {f : ι}
    (hstarted : (c.procs f).control.started = true)
    (hknown : (c.procs f).node.state.clusterheadAddr ≠ UNKNOWN_ADDR) :
    Upstream addr f (c.procs f).node.state c.air :=
  ((hholds.1 f).upstream ((started_iff _).mp hstarted)).resolve_left hknown

theorem follower_granted (hholds : (claims addr).Holds c) {f ch : ι} (h : Follows addr c f ch) :
    Grants (c.procs ch).node.state (addr f) (c.procs f).node.state.upstreamStartSlot
      (c.procs f).node.state.upstreamRelativeSlot := by
  obtain ⟨q, hq, accepted, remote, haccepted, hreads⟩ :=
    (upstream_of_joined hholds h.started (h.head ▸ h.known)).accepted
  rw [h.head] at hreads
  exact (hholds.2.2 q hq ch _ hreads haccepted).2

theorem follower_ring (hholds : (claims addr).Holds c)
    {f : ι} (hstarted : (c.procs f).control.started = true)
    (hknown : (c.procs f).node.state.clusterheadAddr ≠ UNKNOWN_ADDR) :
    ∃ ch, Follows addr c f ch ∧
      (c.procs f).node.state.clusterheadRing = (c.procs ch).node.state.ring ∧
      (∃ b opener neighbors, (ch, b) ∈ c.air ∧
        Reads b (addr ch)
          (.openCluster (c.procs f).node.state.clusterheadRing opener neighbors)) ∧
      (c.procs f).node.state.clusterheadRing < (c.procs f).node.state.ring := by
  obtain ⟨-, ⟨q, hq, opener, neighbors, hreads⟩, hcloser⟩ :=
    upstream_of_joined hholds hstarted hknown
  have hsource := (hholds.2.1 q hq).source _ _ hreads
  rw [hsource] at hreads hknown
  obtain ⟨-, hring, hle⟩ := hholds.2.2 q hq q.1 _ hreads
  refine ⟨q.1, ⟨hstarted, hsource, hknown⟩, hring, ⟨q.2, opener, neighbors, hq, hreads⟩, ?_⟩
  cases hcloser with
  | inl hunknown =>
      rw [hunknown]
      exact UInt8.lt_of_le_of_lt hle (by decide)
  | inr hlt =>
      exact hlt

private theorem ring_lt_of_path (hdistinct : Function.Injective addr)
    (hholds : (claims addr).Holds c) {f ch : ι} (h : Relation.TransGen (Follows addr c) f ch) :
    (c.procs ch).node.state.ring < (c.procs f).node.state.ring := by
  have hstep {f ch : ι} (h : Follows addr c f ch) :
      (c.procs ch).node.state.ring < (c.procs f).node.state.ring := by
    obtain ⟨ch', h', hring, -, hlt⟩ := follower_ring hholds h.started (h.head ▸ h.known)
    obtain rfl := hdistinct (h.head.symm.trans h'.head)
    exact hring ▸ hlt
  induction h with
  | single h => exact hstep h
  | tail _ h ih => exact UInt8.lt_trans (hstep h) ih

variable [DecidableEq ι]

theorem holds_of_reachable (h : Start addr start)
    (hreach : Reachable machine (fun _ _ => True) start c) : (claims addr).Holds c :=
  (claims_kept h.distinct).reachable h.holds hreach

/-- A follower holds the slot its clusterhead has down for it, and no two followers share one. -/
theorem joined_slots_agree (hstart : Start addr start)
    (hreach : Reachable machine (fun _ _ => True) start c) :
    (∀ f ch, Follows addr c f ch →
      (c.procs f).node.state.upstreamStartSlot = (c.procs ch).node.state.downstreamStartSlot ∧
      (c.procs ch).node.state.slotAssignments
          (c.procs f).node.state.upstreamRelativeSlot.toNat = (c.procs f).node.state.address ∧
      1 ≤ (c.procs f).node.state.upstreamRelativeSlot ∧
      (c.procs f).node.state.upstreamRelativeSlot < (c.procs ch).node.state.slotsAssigned) ∧
    ∀ f f' ch, f ≠ f' → Follows addr c f ch → Follows addr c f' ch →
      (c.procs f).node.state.upstreamRelativeSlot ≠
        (c.procs f').node.state.upstreamRelativeSlot := by
  have hholds := holds_of_reachable hstart hreach
  constructor
  · intro f ch h
    obtain ⟨hwindow, hown, htaken, hentry⟩ := follower_granted hholds h
    exact ⟨hwindow.symm, hentry.trans (hholds.1 f).address.symm, hown, htaken⟩
  · intro f f' ch hne h h' heq
    have hentry := (follower_granted hholds h).entry
    rw [heq, (follower_granted hholds h').entry] at hentry
    exact hne (hstart.distinct hentry.symm)

/-- Whatever is lost, repeated or late, every node with a clusterhead follows a node that announced
a ring below its own, and no path of clusterheads comes back. -/
theorem clusters_form_forest (hstart : Start addr start)
    (hreach : Reachable machine (fun _ _ => True) start c) :
    (∀ f, (c.procs f).control.started = true →
      (c.procs f).node.state.clusterheadAddr ≠ UNKNOWN_ADDR →
        (∃ ch b opener neighbors, Follows addr c f ch ∧ (ch, b) ∈ c.air ∧
          Reads b (addr ch)
            (.openCluster (c.procs f).node.state.clusterheadRing opener neighbors)) ∧
        (c.procs f).node.state.clusterheadRing < (c.procs f).node.state.ring) ∧
    ∀ f, ¬ Relation.TransGen (Follows addr c) f f := by
  have hholds := holds_of_reachable hstart hreach
  constructor
  · intro f hstarted hknown
    obtain ⟨ch, hfollows, -, ⟨b, opener, neighbors, hair, hreads⟩, hlt⟩ :=
      follower_ring hholds hstarted hknown
    exact ⟨⟨ch, b, opener, neighbors, hfollows, hair, hreads⟩, hlt⟩
  · intro f h
    exact UInt8.lt_irrefl _ (ring_lt_of_path hstart.distinct hholds h)

end Superframe

instance (inp : Input) (p : Proc) : Decidable (machine.enabled inp p) := isTrue trivial

instance (c : Network (Fin 2) Proc Bytes) (addr : Fin 2 → Address) (f ch : Fin 2) :
    Decidable (Follows addr c f ch) :=
  decidable_of_iff ((c.procs f).control.started = true ∧
    (c.procs f).node.state.clusterheadAddr = addr ch ∧ addr ch ≠ UNKNOWN_ADDR)
    ⟨fun h => ⟨h.1, h.2.1, h.2.2⟩, fun h => ⟨h.started, h.head, h.known⟩⟩

def pairAddr (i : Fin 2) : Address := if i = 0 then GATEWAY_ADDR else 1

def pairStart : Network (Fin 2) Proc Bytes where
  procs i :=
    if i = 0 then ⟨.idle, setupNode GATEWAY_ADDR⟩
    else ⟨.idle, { setupNode 1 with state := { (setupNode 1).state with ring := 1 } }⟩
  air := []

def frameOf (src : Address) (body : Body) : Queue.Arrival :=
  .accepted [Message.toBytes ⟨72, src, body⟩]

/-- The gateway announces itself, the node asks to follow, the gateway accepts, the node joins. -/
def pairSteps : List (Fin 2 × Input) :=
  [(0, reading 1000 72 .timedOut), (1, reading 1000 72 .timedOut),
    (0, reading 2201 72 .timedOut), (1, reading 2201 72 .timedOut),
    (0, reading 2300 72 .timedOut),
    (1, reading 2400 72 (frameOf GATEWAY_ADDR (.openCluster 0 GATEWAY_ADDR RingList.empty))),
    (0, reading 2502 72 .timedOut), (1, reading 2502 72 .timedOut),
    (1, reading 2600 72 .timedOut), (0, reading 2600 72 .timedOut),
    (0, reading 2650 72 (frameOf 1 (.follow GATEWAY_ADDR 1))), (0, reading 2650 72 .timedOut),
    (1, reading 2700 72 (frameOf GATEWAY_ADDR (.accept 1 1 15 1 72))),
    (1, reading 2700 72 .timedOut)]

private theorem pair_start : Start pairAddr pairStart where
  distinct := by decide
  idle i := by fin_cases i <;> rfl
  address := by decide
  gateway := by decide
  cached i := Or.inr (by fin_cases i <;> decide)
  slots := by decide
  tx i := by fin_cases i <;> rfl
  rx i := by fin_cases i <;> rfl
  air := rfl

private theorem pair_reachable :
    Reachable machine (fun _ _ => True) pairStart (pairStart.run machine pairSteps) :=
  reachable_run (by decide +kernel)

theorem pair_slots_agree :
    let c := pairStart.run machine pairSteps
    (c.procs 1).node.state.upstreamStartSlot = 15 ∧
      (c.procs 0).node.state.downstreamStartSlot = 15 ∧
        (c.procs 0).node.state.slotAssignments 1 = 1 := by
  intro c
  have hjoined : Follows pairAddr c 1 0 := by decide +kernel
  have hrelative : (c.procs 1).node.state.upstreamRelativeSlot = 1 := by decide +kernel
  have hstart : (c.procs 1).node.state.upstreamStartSlot = 15 := by decide +kernel
  have haddress : (c.procs 1).node.state.address = 1 := by decide +kernel
  obtain ⟨hwindow, hentry, -, -⟩ := (joined_slots_agree pair_start pair_reachable).1 1 0 hjoined
  rw [hrelative] at hentry
  exact ⟨hstart, hwindow.symm.trans hstart, hentry.trans haddress⟩

theorem pair_forms_forest :
    let c := pairStart.run machine pairSteps
    (c.procs 1).node.state.clusterheadRing < (c.procs 1).node.state.ring ∧
      ∀ f, ¬ Relation.TransGen (Follows pairAddr c) f f := by
  intro c
  obtain ⟨hrings, hforest⟩ := clusters_form_forest pair_start pair_reachable
  exact ⟨(hrings 1 (by decide +kernel) (by decide +kernel)).2, hforest⟩

end LoraMultihop.Multihop.Joining
