/- digest: Which nodes of a superframe's clusters have a slot in common. -/

import LoraMultihop.Multihop.Api
import LoraMultihop.Multihop.Joining
import LoraMultihop.Multihop.Layout

set_option autoImplicit false
set_option relaxedAutoImplicit false

namespace LoraMultihop.Multihop.Reuse

open LoraMultihop.Foundation.ByteMemory (Bytes)
open LoraMultihop.Foundation.Soup
open LoraMultihop.Net.Params
open LoraMultihop.Link
open LoraMultihop.Multihop.Messages
open LoraMultihop.Multihop.State
open LoraMultihop.Multihop.Sending
open LoraMultihop.Multihop.Slots (mySlot sendSlot)
open LoraMultihop.Multihop.Discovery
open LoraMultihop.Multihop.Advertise
open LoraMultihop.Multihop.Allocation
open LoraMultihop.Multihop.Layout
open LoraMultihop.Multihop.Api (Setup Legal)
open LoraMultihop.Multihop.Clusters
open LoraMultihop.Multihop.Joining

/-- A node that acts as clusterhead has the window of its ring. -/
def InPlace (n : Node) : Prop :=
  n.state.actsAsClusterhead = true → n.state.downstreamStartSlot.toNat = windowStart n

private theorem block_eq_iff {a b w r r' : Nat} (hr : r < w) (hr' : r' < w) :
    1 + a * w + r = 1 + b * w + r' ↔ a = b ∧ r = r' := by
  constructor
  · intro heq
    obtain rfl : a = b := by
      by_contra hne
      rcases lt_or_gt_of_ne hne with hlt | hlt
      · have hblock := @blocks_ordered a b w hlt
        omega
      · have hblock := @blocks_ordered b a w hlt
        omega
    exact ⟨rfl, by omega⟩
  · rintro ⟨rfl, rfl⟩
    rfl

section Windows

variable {n n' : Node}

private theorem windowStart_congr (hmac : n'.mac = n.mac) (hring : n'.state.ring = n.state.ring) :
    windowStart n' = windowStart n := by
  rw [windowStart, windowStart, prepareClusterhead, prepareClusterhead, hmac, hring]

private theorem InPlace.congr (h : InPlace n) (hmac : n'.mac = n.mac)
    (hrole : n'.state.role = n.state.role) (hring : n'.state.ring = n.state.ring)
    (hstart : n'.state.downstreamStartSlot = n.state.downstreamStartSlot) : InPlace n' := by
  intro hacts
  rw [windowStart_congr hmac hring, hstart]
  apply h
  rwa [MultihopState.actsAsClusterhead, ← hrole]

private theorem InPlace.of_state (h : InPlace n) (hmac : n'.mac = n.mac)
    (hstate : n'.state = n.state) : InPlace n' :=
  h.congr hmac (by rw [hstate]) (by rw [hstate]) (by rw [hstate])

private theorem inPlace_prepare (n : Node) : InPlace (prepareClusterhead n) := fun _ => rfl

end Windows

/-- What a node of a superframe keeps: it is legal, is no clusterhead while it discovers its ring,
and has the window of the ring afterwards. -/
structure Placed (cfg : Setup) (p : Proc) : Prop where
  legal : Legal cfg p.node
  fresh : ∀ l, p.control = .discovery l → p.node.state.role ≠ .clusterhead
  place : PastDiscovery p.control → InPlace p.node

section Steps

variable {cfg : Setup} {inp : Input} {n : Node}

private theorem startAdvertise_role (inp : Input) (n : Node) :
    (startAdvertise inp n).node.state.role ≠ .clusterhead := by
  change (if n.state.role ≠ .gateway then Role.follower else n.state.role) ≠ .clusterhead
  split_ifs with hrole
  · simp
  · rw [not_not.mp hrole]
    simp

private theorem placed_round (hlegal : Legal cfg n) {round : Nat} {earlier : Bool}
    (h : InPlace n ∨ round = 0 ∧ earlier = false ∧ n.state.role ≠ .clusterhead) :
    Placed cfg (startRound inp round earlier n) := by
  refine ⟨hlegal.startRound inp round earlier, ?_, fun _ => ?_⟩
  · intro l hl
    simp [startRound] at hl
  · rw [startRound, startAnnouncement]
    dsimp only
    split_ifs with hnew hrole
    · exact inPlace_prepare _
    · exact inPlace_prepare _
    · rcases h with h | ⟨rfl, rfl, hrole⟩
      · exact h
      · intro hacts
        have hgateway : n.state.role = .gateway := by
          simpa [MultihopState.actsAsClusterhead, hrole] using hacts
        have hring : n.state.ring = UInt8.ofNat 0 := (hlegal.gateway hgateway).2
        rw [volunteers, if_pos hring, hgateway] at hnew
        exact absurd rfl hnew

private theorem placed_message {round : Nat} {isClusterhead : Bool} {l : JoinLocals}
    (h : Placed cfg ⟨.joining .drain round isClusterhead l, n⟩) :
    InPlace (joinMessage inp round isClusterhead l n).1.node := by
  have hget : Legal cfg { n with link := (Queue.getmsg n.link).2 } := by
    apply h.legal.congr
    rw [Queue.getmsg]
    split <;> rfl
  have hgot : InPlace { n with link := (Queue.getmsg n.link).2 } :=
    (h.place trivial).of_state (hget.mac.trans h.legal.mac.symm) rfl
  rw [joinMessage]
  dsimp only
  split
  · exact hgot
  · next m _ _ =>
    generalize { n with link := (Queue.getmsg n.link).2 } = n' at hget hgot
    have hanswer : InPlace (answerFollow inp isClusterhead m n').1 := by
      have hmac := (hget.answerFollow inp isClusterhead m).mac.trans hget.mac.symm
      rcases answerFollow_state inp isClusterhead m n' with hstate | ⟨-, hstate⟩
      · exact hgot.of_state hmac hstate
      · obtain ⟨table, count, hkept⟩ := assign_kept m.src n'
        rw [hkept] at hstate
        exact hgot.congr hmac (by rw [hstate]) (by rw [hstate]) (by rw [hstate])
    generalize (answerFollow inp isClusterhead m n').1 = n'' at hanswer
    rcases join_cases inp l m n'' (roundMs n''.mac) with heq | ⟨-, heq⟩ |
      ⟨accepted, start, relative, remote, -, -, -, -, -, heq⟩
    · rwa [heq]
    · rwa [heq]
    · have hattach : InPlace (attach l start relative n'') := hanswer.congr rfl rfl rfl rfl
      rw [heq]
      rcases promote_cases (inp.rand 0) (attach l start relative n'') with hp | ⟨-, -, hp⟩
      · rwa [hp]
      · rw [hp]
        exact inPlace_prepare _

private theorem Placed.step (inp : Input) {p : Proc} (h : Placed cfg p) :
    Placed cfg (Advertise.step inp p).1 := by
  have hlegal := h.legal.step inp
  have hmac := hlegal.mac.trans h.legal.mac.symm
  obtain ⟨control, n⟩ := p
  cases control with
  | idle =>
      refine ⟨hlegal, ?_, ?_⟩
      · rw [Advertise.step]
        dsimp only
        split_ifs
        · simp
        · exact fun _ _ => startAdvertise_role inp _
      · rw [Advertise.step]
        dsimp only
        split_ifs
        · exact fun hpast => hpast.elim
        · exact fun hpast => hpast.elim
  | discovery l =>
      have hfresh := h.fresh l rfl
      rw [Advertise.step] at hlegal hmac ⊢
      dsimp only at hlegal hmac hfresh ⊢
      split_ifs at hlegal hmac ⊢
      · exact placed_round h.legal (Or.inr ⟨rfl, rfl, hfresh⟩)
      · obtain ⟨neighbors, ring, rounds, hkept⟩ := heardState_kept inp n
        refine ⟨hlegal, fun _ _ => ?_, fun hpast => hpast.elim⟩
        dsimp only
        rwa [(discoveryPass_state inp l n).trans hkept]
  | announcement round earlier l =>
      have hplace := h.place trivial
      rw [Advertise.step] at hlegal hmac ⊢
      dsimp only at hlegal hmac ⊢
      split_ifs at hlegal hmac ⊢
      · exact ⟨hlegal, by simp, fun _ => hplace⟩
      · exact ⟨hlegal, by simp, fun _ => hplace.of_state hmac (announcementPass_state inp l n)⟩
  | joining stage round isClusterhead l =>
      have hplace := h.place trivial
      cases stage with
      | head =>
          rw [Advertise.step] at hlegal hmac ⊢
          dsimp only at hlegal hmac ⊢
          split_ifs at hlegal hmac ⊢
          · exact placed_round h.legal (Or.inl hplace)
          · exact ⟨hlegal, by simp [finishAdvertise], fun _ => hplace.congr hmac rfl rfl rfl⟩
          · exact ⟨hlegal, by simp, fun _ => hplace.of_state hmac (joinHead_state inp l n)⟩
      | recv => exact ⟨hlegal, by simp [Advertise.step], fun _ => hplace.of_state hmac rfl⟩
      | drain =>
          refine ⟨hlegal, ?_, fun _ => placed_message h⟩
          intro l' hl
          rw [Advertise.step] at hl
          dsimp only [joinMessage] at hl
          split at hl <;> simp at hl
  | done => exact h

/-- A step that comes to the end sends nothing and leaves the role as it is. -/
private theorem step_done {p : Proc} (h : (Advertise.step inp p).1.control = .done) :
    (Advertise.step inp p).2 = [] ∧
      (Advertise.step inp p).1.node.state.role = p.node.state.role := by
  obtain ⟨control, n⟩ := p
  cases control with
  | idle =>
      rw [Advertise.step] at h
      dsimp only at h
      split_ifs at h
      simp [startAdvertise] at h
  | discovery l =>
      rw [Advertise.step] at h
      dsimp only at h
      split_ifs at h
      simp [startRound] at h
  | announcement round earlier l =>
      rw [Advertise.step] at h
      dsimp only at h
      split_ifs at h
  | joining stage round isClusterhead l =>
      cases stage with
      | head =>
          rw [Advertise.step] at h ⊢
          dsimp only at h ⊢
          split_ifs at h ⊢
          · simp [startRound] at h
          · exact ⟨rfl, rfl⟩
      | recv => simp [Advertise.step] at h
      | drain =>
          rw [Advertise.step] at h
          dsimp only [joinMessage] at h
          split at h <;> simp at h
  | done => exact ⟨rfl, rfl⟩

end Steps

section Networks

variable {ι : Type*} [DecidableEq ι] {addr : ι → Address} {start c : Network ι Proc Bytes}

private theorem acts_of_accept (hstart : Start addr start)
    (hreach : Reachable machine (fun _ _ => True) start c) :
    ∀ q ∈ c.air, ∀ accepted follower first relative remote, accepted ≠ 0 →
      Reads q.2 (addr q.1) (.accept accepted follower first relative remote) →
        (c.procs q.1).node.state.actsAsClusterhead = true := by
  induction hreach with
  | refl =>
      intro q hq
      rw [hstart.air] at hq
      exact absurd hq List.not_mem_nil
  | @tail c c' hbefore hnext ih =>
      have hholds := holds_of_reachable hstart (hbefore.tail hnext)
      intro q hq accepted follower first relative remote haccepted hreads
      by_cases hend : (c'.procs q.1).control = .done
      · -- The end of the rounds sends nothing, so the Accept has been sent before.
        cases hnext with
        | act i inp hmay =>
            have hprocs : q.1 = i → (c.act machine i inp).procs q.1 = (step inp (c.procs i)).1 := by
              rintro rfl
              exact Function.update_self ..
            have hold : q ∈ c.air := by
              rcases List.mem_append.mp hq with hold | hnew
              · exact hold
              · obtain ⟨b, hb, rfl⟩ := List.mem_map.mp hnew
                rw [hprocs rfl] at hend
                have hnone : (machine.step inp (c.procs i)).2 = [] := by
                  change (step inp (c.procs i)).2.flatMap Queue.Frame.msgs = []
                  rw [(step_done hend).1, List.flatMap_nil]
                rw [hnone] at hb
                exact absurd hb List.not_mem_nil
            have hacts := ih q hold accepted follower first relative remote haccepted hreads
            by_cases hi : q.1 = i
            · rw [hprocs hi] at hend ⊢
              rw [MultihopState.actsAsClusterhead, (step_done hend).2, ← hi]
              exact hacts
            · rwa [show (c.act machine i inp).procs q.1 = c.procs q.1 from
                Function.update_of_ne hi ..]
      · have hsettled := (hholds.2.2 q hq q.1 _ hreads haccepted).1
        have hplace := (hholds.1 q.1).place
        generalize c'.procs q.1 = p at hsettled hplace hend
        obtain ⟨control, n⟩ := p
        cases control with
        | announcement round earlier l => exact (hplace.2.2.1 (Or.inl hsettled)).acts
        | joining stage round isClusterhead l => exact (hplace.2.1 hsettled).acts
        | done => exact absurd rfl hend
        | _ => exact hsettled.elim

private theorem settled_past {control : Control} (h : Settled control) : PastDiscovery control := by
  cases control with
  | idle => exact h
  | discovery l => exact h
  | _ => trivial

section Followers

variable (hstart : Start addr start) (hreach : Reachable machine (fun _ _ => True) start c)
include hstart hreach

private theorem clusterhead_ring {f ch : ι} (h : Follows addr c f ch) :
    (c.procs ch).node.state.ring ≤ 2 := by
  have hholds := holds_of_reachable hstart hreach
  obtain ⟨ch', h', hring, ⟨b, opener, neighbors, hair, hreads⟩, -⟩ :=
    follower_ring hholds h.started (h.head ▸ h.known)
  obtain rfl := hstart.distinct (h.head.symm.trans h'.head)
  rw [← hring]
  exact (hholds.2.2 (ch, b) hair ch _ hreads).2.2

private theorem relative_ne {f g ch : ι} (hne : f ≠ g) (hf : Follows addr c f ch)
    (hg : Follows addr c g ch) : (c.procs f).node.state.upstreamRelativeSlot ≠
      (c.procs g).node.state.upstreamRelativeSlot := by
  have hholds := holds_of_reachable hstart hreach
  intro heq
  have hentry := (follower_granted hholds hf).entry
  rw [heq, (follower_granted hholds hg).entry] at hentry
  exact hne (hstart.distinct hentry.symm)

variable {cfg : Setup} (hlegal : ∀ i, Legal cfg (start.procs i).node)
include hlegal

private theorem placed_of_reachable (i : ι) : Placed cfg (c.procs i) := by
  apply Reachable.procs (P := fun _ p => Placed cfg p) _ _ hreach
  · exact fun _ _ inp hp => hp.step inp
  · intro j
    refine ⟨hlegal j, ?_, ?_⟩ <;> rw [hstart.idle j]
    · simp
    · exact fun hpast => hpast.elim

private theorem clusterhead_window {f ch : ι} (h : Follows addr c f ch) :
    (c.procs ch).node.state.downstreamStartSlot.toNat = windowStart (c.procs ch).node := by
  have hholds := holds_of_reachable hstart hreach
  obtain ⟨q, hq, accepted, remote, haccepted, hreads⟩ :=
    (upstream_of_joined hholds h.started (h.head ▸ h.known)).accepted
  rw [h.head] at hreads
  obtain rfl := hstart.distinct ((hholds.2.1 q hq).source _ _ hreads)
  apply (placed_of_reachable hstart hreach hlegal q.1).place
  · exact settled_past (hholds.2.2 q hq q.1 _ hreads haccepted).1
  · exact acts_of_accept hstart hreach q hq _ _ _ _ _ haccepted hreads

private theorem follower_slot {f ch : ι} (h : Follows addr c f ch) :
    (mySlot (c.procs f).node.state).toNat = windowStart (c.procs ch).node +
        (c.procs f).node.state.upstreamRelativeSlot.toNat ∧
      1 ≤ (c.procs f).node.state.upstreamRelativeSlot.toNat ∧
      (c.procs f).node.state.upstreamRelativeSlot.toNat < windowSize cfg.mac := by
  have hwindow := clusterhead_window hstart hreach hlegal h
  have hgrants := follower_granted (holds_of_reachable hstart hreach) h
  have hplaced := (placed_of_reachable hstart hreach hlegal ch).legal
  have hassigned := hplaced.assigned
  rw [vtdmaWindowSize_toNat cfg.windowed] at hassigned
  change _ ≤ max 1 (windowSize cfg.mac) at hassigned
  have hown := UInt8.le_iff_toNat_le.mp hgrants.own
  have htaken := UInt8.lt_iff_toNat_lt.mp hgrants.taken
  have hone : (1 : UInt8).toNat = 1 := rfl
  obtain ⟨hstart', hfit⟩ := windowStart_eq (n := (c.procs ch).node) (hplaced.mac ▸ cfg.windowed)
  rw [hplaced.mac] at hstart' hfit
  have hcount := cfg.mac.superframeSlotCount.toNat_lt
  refine ⟨?_, by omega, by omega⟩
  rw [mySlot, UInt8.toNat_add, ← hgrants.start, hwindow]
  omega

/-- In a superframe of any interleaving, with any losses: the slots of the followers lie inside the
windows of their clusterheads, behind the first slot. Two followers have a slot in common exactly if
their clusterheads are different nodes of congruent rings that gave them the same relative slot, and
a follower has the slot in which a clusterhead sends exactly if the rings are congruent and its own
is the last of its window. -/
theorem slot_shared_iff {f g ch ch' : ι} (hf : Follows addr c f ch) (hg : Follows addr c g ch') :
    let F := (c.procs f).node
    let G := (c.procs g).node
    let C := (c.procs ch).node
    let C' := (c.procs ch').node
    let R := cfg.mac.reuseDistance
    (windowStart C < (mySlot F.state).toNat ∧
        (mySlot F.state).toNat < windowStart C + windowSize cfg.mac) ∧
      (f ≠ g → (mySlot F.state = mySlot G.state ↔ ch ≠ ch' ∧
        C.state.ring % R = C'.state.ring % R ∧
          F.state.upstreamRelativeSlot = G.state.upstreamRelativeSlot)) ∧
      (mySlot F.state = sendSlot C' ↔ C.state.ring % R = C'.state.ring % R ∧
        F.state.upstreamRelativeSlot.toNat + 1 = windowSize cfg.mac) ∧
      (3 ≤ R → (C.state.ring % R = C'.state.ring % R ↔ C.state.ring = C'.state.ring)) := by
  intro F G C C' R
  obtain ⟨hslot, hpos, hlt⟩ : (mySlot F.state).toNat =
      windowStart C + F.state.upstreamRelativeSlot.toNat ∧
        1 ≤ F.state.upstreamRelativeSlot.toNat ∧
          F.state.upstreamRelativeSlot.toNat < windowSize cfg.mac :=
    follower_slot hstart hreach hlegal hf
  obtain ⟨hslot', -, hlt'⟩ : (mySlot G.state).toNat =
      windowStart C' + G.state.upstreamRelativeSlot.toNat ∧
        1 ≤ G.state.upstreamRelativeSlot.toNat ∧
          G.state.upstreamRelativeSlot.toNat < windowSize cfg.mac :=
    follower_slot hstart hreach hlegal hg
  have hmac : C.mac = cfg.mac := (placed_of_reachable hstart hreach hlegal ch).legal.mac
  have hmac' : C'.mac = cfg.mac := (placed_of_reachable hstart hreach hlegal ch').legal.mac
  have hwindowed : Windowed C.mac := hmac ▸ cfg.windowed
  have hwindowed' : Windowed C'.mac := hmac' ▸ cfg.windowed
  have hfirst := (windowStart_eq hwindowed).1
  have hfirst' := (windowStart_eq hwindowed').1
  have hsize : 1 ≤ windowSize cfg.mac := Nat.one_le_of_lt hlt
  have hlast : windowSize cfg.mac - 1 < windowSize cfg.mac := Nat.sub_lt hsize Nat.one_pos
  have hsend : (sendSlot C').toNat = windowStart C' + windowSize C'.mac - 1 :=
    sendSlot_toNat hwindowed' (hmac'.symm ▸ hsize) rfl (clusterhead_window hstart hreach hlegal hg)
  have hindex : windowIndex C = windowIndex C' ↔ C.state.ring % R = C'.state.ring % R := by
    have hiff := windowIndex_eq_iff (n := C) (m := C') hwindowed.reuse (hmac'.trans hmac.symm)
    rwa [hmac] at hiff
  rw [hmac] at hfirst
  rw [hmac'] at hfirst' hsend
  refine ⟨⟨by omega, by omega⟩, ?_, ?_, ?_⟩
  · intro hne
    rw [← UInt8.toNat_inj, hslot, hslot', hfirst, hfirst', block_eq_iff hlt hlt', hindex,
      UInt8.toNat_inj]
    refine ⟨fun h => ⟨?_, h⟩, And.right⟩
    rintro rfl
    exact relative_ne hstart hreach hne hf hg h.2
  · rw [← UInt8.toNat_inj, hslot, hsend, hfirst, hfirst', Nat.add_sub_assoc hsize,
      block_eq_iff hlt hlast, hindex]
    exact and_congr_right fun _ => by omega
  · intro hthree
    have hsmall (i : ι) (hi : (c.procs i).node.state.ring ≤ 2) :
        (c.procs i).node.state.ring % R = (c.procs i).node.state.ring :=
      UInt8.mod_eq_of_lt (UInt8.lt_of_le_of_lt hi (UInt8.lt_of_lt_of_le (by decide) hthree))
    rw [hsmall ch (clusterhead_ring hstart hreach hf),
      hsmall ch' (clusterhead_ring hstart hreach hg)]

end Followers

end Networks

section Crossing

/-- Two clusterheads of ring 1 and a follower of each; a node is one of two in one of two places. -/
def crossingAddr (i : Bool × Bool) : Address :=
  match i with
  | (false, false) => 3
  | (false, true) => 4
  | (true, false) => 5
  | (true, true) => 6

def crossing : Network (Bool × Bool) Proc Bytes where
  procs i :=
    let n := setupNode (crossingAddr i)
    ⟨.idle, { n with state := { n.state with ring := if i.1 then 2 else 1 } }⟩
  air := []

/-- In one place: the clusterhead hears its follower's heartbeat, announces itself in the second
round and lets the follower in. -/
def clusterSteps (place : Bool) : List ((Bool × Bool) × Input) :=
  let head := (false, place)
  let follower := (true, place)
  let addr := crossingAddr head
  let addr' := crossingAddr follower
  let quiet (i : Bool × Bool) (times : List UInt32) :=
    times.map fun millis => (i, reading millis 72 .timedOut)
  quiet follower [1000, 1100] ++ quiet head [1000] ++
    [(head, reading 1200 72 (frameOf addr' (.heartbeat 2)))] ++
    quiet head [2201, 2502, 2803, 2900] ++ quiet follower [2201, 2502, 2803] ++
    [(follower, reading 2950 72
      (frameOf addr (.openCluster 1 addr ⟨2, fun i => if i.val = 0 then 1 else 0⟩)))] ++
    quiet head [3104, 3200] ++ quiet follower [3104, 3200] ++
    [(head, reading 3250 72 (frameOf addr' (.follow addr addr')))] ++ quiet head [3250] ++
    [(follower, reading 3260 72 (frameOf addr (.accept 1 addr' 8 1 72)))] ++
    quiet follower [3260]

def crossingSteps : List ((Bool × Bool) × Input) := clusterSteps false ++ clusterSteps true

def crossingSetup : Setup := ⟨setupMac, SUPERFRAME_SLOT_COUNT.toNat, ⟨by decide, by decide⟩, le_rfl⟩

private theorem crossing_start : Start crossingAddr crossing where
  distinct := by decide
  idle i := rfl
  address := by decide
  gateway := by decide
  cached i := Or.inr (by revert i; decide)
  slots := by decide
  tx i := rfl
  rx i := rfl
  air := rfl

private theorem crossing_legal (i : Bool × Bool) : Legal crossingSetup (crossing.procs i).node :=
  ⟨rfl, rfl, by revert i; decide, fun hgateway => absurd hgateway (by revert i; decide)⟩

private theorem crossing_reachable :
    Reachable machine (fun _ _ => True) crossing (crossing.run machine crossingSteps) :=
  reachable_run (by decide +kernel)

/-- The followers of the two clusterheads have one slot between them. -/
theorem crossing_slot_shared :
    let c := crossing.run machine crossingSteps
    mySlot (c.procs (true, false)).node.state = mySlot (c.procs (true, true)).node.state ∧
      windowStart (c.procs (false, false)).node < (mySlot (c.procs (true, false)).node.state).toNat
      := by
  intro c
  have hjoined (place : Bool) : Follows crossingAddr c (true, place) (false, place) :=
    ⟨by revert place; decide +kernel, by revert place; decide +kernel,
      by revert place; decide +kernel⟩
  obtain ⟨hinside, hshared, -⟩ := slot_shared_iff crossing_start crossing_reachable crossing_legal
    (hjoined false) (hjoined true)
  exact ⟨(hshared (by decide)).mpr ⟨by decide, by decide +kernel, by decide +kernel⟩, hinside.1⟩

end Crossing

end LoraMultihop.Multihop.Reuse
