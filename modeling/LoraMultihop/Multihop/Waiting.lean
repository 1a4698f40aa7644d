/- digest: Whose messages a follower obeys while it waits for its clusterhead. -/

import LoraMultihop.Multihop.Slots

set_option autoImplicit false
set_option relaxedAutoImplicit false

namespace LoraMultihop.Multihop.Waiting

open LoraMultihop.Foundation.ByteMemory (Bytes leBytes)
open LoraMultihop.Net.Params
open LoraMultihop.Link
open LoraMultihop.Multihop.Messages
open LoraMultihop.Multihop.State
open LoraMultihop.Multihop.Sending
open LoraMultihop.Multihop.Slots

/-- A message as the loop takes it: whether the node still waits, the node, and the message. -/
structure Taken where
  waiting : Bool
  node : Node
  buf : Bytes

namespace Taken

/-- The flag and the node when the message has been taken. -/
def after (t : Taken) : Bool × Node := takeClusterheadMsg (t.waiting, t.node) t.buf

/-- What a follower keeps of its clusterhead, and whether it waits for it. -/
def bond (w : Bool × Node) : Bool × UInt32 × Address × Ring :=
  (w.1, w.2.state.acks 0, w.2.state.clusterheadAddr, w.2.state.clusterheadRing)

/-- The message is a SendAcks or CloseCluster of the node's current clusterhead. -/
def FromClusterhead (t : Taken) : Prop :=
  ∃ m tail, decodeMsg t.buf = some (m, tail) ∧
    (m.body.type = .sendAcks ∨ m.body.type = .closeCluster) ∧
      m.src = t.node.state.clusterheadAddr

end Taken

/-- The node knows the ring of its clusterhead, where it has one. -/
def RingKnown (ringOf : Address → Ring) (s : MultihopState) : Prop :=
  s.clusterheadAddr ≠ UNKNOWN_ADDR → s.clusterheadRing = ringOf s.clusterheadAddr

/-- The message has no effect on the bond unless it comes from the clusterhead, and leaves the ring
of the clusterhead known. -/
structure Taken.Obeys (ringOf : Address → Ring) (t : Taken) : Prop where
  sender : Taken.bond t.after ≠ Taken.bond (t.waiting, t.node) → t.FromClusterhead
  ring : RingKnown ringOf t.after.2.state

def frameTakes : Bool × Node → List Bytes → List Taken
  | _, [] => []
  | w, buf :: msgs => ⟨w.1, w.2, buf⟩ :: frameTakes (takeClusterheadMsg w buf) msgs

def loopTakes (chSlot : UInt8) : List WaitPass → Node → List Taken
  | [], _ => []
  | p :: passes, n =>
      let (rc, link) := Queue.recv p.recvNow p.arrival n.link
      let n := { n with link := link }
      if rc ≠ .ok then []
      else
        let takes := frameTakes (true, { n with link := { n.link with rx := [] } }) n.link.rx
        let (waiting, n) := takeFrame n.link.rx n
        if waiting then
          let (slot, n) := activeSlot p.slotNow n
          if slot = chSlot.toNat then takes ++ loopTakes chSlot passes n else takes
        else takes

def takes (slotNow : UInt32) (passes : List WaitPass) (n : Node) : List Taken :=
  if UNKNOWN_ADDR = n.state.clusterheadAddr then []
  else
    let chSlot := n.state.upstreamAckSlot
    let (slot, n) := activeSlot slotNow n
    if slot ≠ chSlot.toNat then [] else loopTakes chSlot passes (setCdmaCode 0 n)

/-- The state that a sequence of taken messages leaves. -/
def lastState (s : MultihopState) (ts : List Taken) : MultihopState :=
  ts.foldl (fun _ t => t.after.2.state) s

/-- In a call of `do_follower_recv` every message is obeyed only where it comes from the
clusterhead, and nothing but the messages changes the state. -/
def ObeysClusterhead (ringOf : Address → Ring) (slotNow : UInt32) (passes : List WaitPass)
    (n : Node) : Prop :=
  (∀ t ∈ takes slotNow passes n, t.Obeys ringOf) ∧
    (doFollowerRecv slotNow passes n).2.state = lastState n.state (takes slotNow passes n)

/-- A SendAcks comes from the clusterhead, or comes when the wait is over and brings nothing new; a
CloseCluster does too, and leaves the node without a clusterhead or with one of the same ring. -/
def Taken.Trusted (ringOf : Address → Ring) (t : Taken) : Prop :=
  let s := t.node.state
  match decodeMsg t.buf with
  | some (⟨_, src, .sendAcks start stop⟩, acks) =>
      src = s.clusterheadAddr ∨ t.waiting = false ∧
        (s.upstreamRelativeSlot < stop → start ≤ s.upstreamRelativeSlot →
          ackAt acks (s.upstreamRelativeSlot.toNat - start.toNat) = s.acks 0)
  | some (⟨_, src, .closeCluster nomination _⟩, _) =>
      (src = s.clusterheadAddr ∨ t.waiting = false ∧ nomination = s.clusterheadAddr ∧
        (nomination = UNKNOWN_ADDR → s.clusterheadRing = UNKNOWN_RING)) ∧
      (nomination ≠ UNKNOWN_ADDR → s.clusterheadRing = ringOf nomination)
  | _ => True

/-- A SendAcks or CloseCluster comes from the clusterhead the node then has, and no CloseCluster
nominates a node of another ring. -/
def Taken.Own (ringOf : Address → Ring) (t : Taken) : Prop :=
  ∀ m tail, decodeMsg t.buf = some (m, tail) →
    match m.body with
    | .sendAcks _ _ => m.src = t.node.state.clusterheadAddr
    | .closeCluster nomination _ => m.src = t.node.state.clusterheadAddr ∧
        (nomination ≠ UNKNOWN_ADDR → t.node.state.clusterheadRing = ringOf nomination)
    | _ => True

private theorem Taken.Own.trusted {ringOf : Address → Ring} {t : Taken} (h : t.Own ringOf) :
    t.Trusted ringOf := by
  rw [Taken.Trusted]
  split
  · next hdecode => exact Or.inl (h _ _ hdecode)
  · next hdecode =>
    obtain ⟨hsrc, hring⟩ := h _ _ hdecode
    exact ⟨Or.inl hsrc, hring⟩
  · trivial

private theorem fromClusterhead_iff {t : Taken} {m : Message} {tail : Bytes}
    (hdecode : decodeMsg t.buf = some (m, tail))
    (htype : m.body.type = .sendAcks ∨ m.body.type = .closeCluster) :
    t.FromClusterhead ↔ m.src = t.node.state.clusterheadAddr := by
  constructor
  · rintro ⟨m', tail', hdecode', -, hsrc⟩
    rw [hdecode] at hdecode'
    rwa [(Prod.mk.inj (Option.some.inj hdecode')).1]
  · intro hsrc
    exact ⟨m, tail, hdecode, htype, hsrc⟩

section Messages

variable {ringOf : Address → Ring} {t : Taken} {sequence : UInt32} {src : Address}

private theorem acks_bond {start stop : UInt8} {acks : Bytes}
    (hdecode : decodeMsg t.buf = some (⟨sequence, src, .sendAcks start stop⟩, acks)) :
    Taken.bond t.after = Taken.bond (t.waiting, t.node) ↔
      t.waiting = false ∧
        (t.node.state.upstreamRelativeSlot < stop → start ≤ t.node.state.upstreamRelativeSlot →
          ackAt acks (t.node.state.upstreamRelativeSlot.toNat - start.toNat) =
            t.node.state.acks 0) := by
  rw [Taken.after, takeClusterheadMsg, hdecode]
  dsimp only
  split_ifs with hrange
  · simp only [Taken.bond, if_true, Prod.mk.injEq, and_true, hrange.1, hrange.2, forall_const]
    rw [eq_comm]
  · simp only [Taken.bond, Prod.mk.injEq, and_true]
    constructor
    · intro hwait
      exact ⟨hwait.symm, fun hlt hle => absurd ⟨hlt, hle⟩ hrange⟩
    · intro h
      exact h.1.symm

private theorem acks_ring {start stop : UInt8} {acks : Bytes}
    (hdecode : decodeMsg t.buf = some (⟨sequence, src, .sendAcks start stop⟩, acks))
    (hring : RingKnown ringOf t.node.state) : RingKnown ringOf t.after.2.state := by
  rw [Taken.after, takeClusterheadMsg, hdecode]
  dsimp only
  split_ifs <;> exact hring

private theorem close_bond {nomination : Address} {neighbors : RingList} {tail : Bytes}
    (hdecode : decodeMsg t.buf =
      some (⟨sequence, src, .closeCluster nomination neighbors⟩, tail)) :
    Taken.bond t.after = Taken.bond (t.waiting, t.node) ↔
      t.waiting = false ∧ nomination = t.node.state.clusterheadAddr ∧
        (nomination = UNKNOWN_ADDR → t.node.state.clusterheadRing = UNKNOWN_RING) := by
  rw [Taken.after, takeClusterheadMsg, hdecode]
  dsimp only
  split_ifs with hknown
  · simp only [Taken.bond, Prod.mk.injEq, true_and, and_true, hknown, false_implies]
    rw [eq_comm]
  · obtain rfl := not_not.mp hknown
    simp only [Taken.bond, Prod.mk.injEq, true_and, forall_const]
    rw [eq_comm, @eq_comm _ UNKNOWN_RING]

private theorem close_ring {nomination : Address} {neighbors : RingList} {tail : Bytes}
    (hdecode : decodeMsg t.buf =
      some (⟨sequence, src, .closeCluster nomination neighbors⟩, tail)) :
    RingKnown ringOf t.after.2.state ↔
      (nomination ≠ UNKNOWN_ADDR → t.node.state.clusterheadRing = ringOf nomination) := by
  rw [Taken.after, takeClusterheadMsg, hdecode]
  dsimp only
  split_ifs with hknown
  · rfl
  · simp [RingKnown, not_not.mp hknown]

private theorem obeys_iff_trusted (hring : RingKnown ringOf t.node.state) :
    t.Obeys ringOf ↔ t.Trusted ringOf := by
  rw [Taken.Trusted]
  split
  · next sequence src start stop acks hdecode =>
    have hfrom := fromClusterhead_iff hdecode (Or.inl rfl)
    rw [← acks_bond hdecode]
    constructor
    · intro h
      by_cases hbond : Taken.bond t.after = Taken.bond (t.waiting, t.node)
      · exact Or.inr hbond
      · exact Or.inl (hfrom.mp (h.sender hbond))
    · intro h
      refine ⟨?_, acks_ring hdecode hring⟩
      intro hbond
      exact hfrom.mpr (h.resolve_right hbond)
  · next sequence src nomination neighbors tail hdecode =>
    have hfrom := fromClusterhead_iff hdecode (Or.inr rfl)
    rw [← close_bond hdecode, ← close_ring hdecode]
    constructor
    · intro h
      refine ⟨?_, h.ring⟩
      by_cases hbond : Taken.bond t.after = Taken.bond (t.waiting, t.node)
      · exact Or.inr hbond
      · exact Or.inl (hfrom.mp (h.sender hbond))
    · rintro ⟨h, hknown⟩
      refine ⟨?_, hknown⟩
      intro hbond
      exact hfrom.mpr (h.resolve_right hbond)
  · next hacks hclose =>
    have hafter : t.after = (t.waiting, t.node) := by
      rw [Taken.after, takeClusterheadMsg]
      dsimp only
      split
      · next hdecode => exact absurd hdecode (hacks _ _ _ _ _)
      · next hdecode => exact absurd hdecode (hclose _ _ _ _ _)
      · rfl
    refine ⟨fun _ => trivial, fun _ => ⟨?_, ?_⟩⟩
    · intro hbond
      exact absurd (congrArg Taken.bond hafter) hbond
    · rw [hafter]
      exact hring

end Messages

section Runs

variable {ringOf : Address → Ring}

private theorem frame_obeys_iff {w : Bool × Node} (msgs : List Bytes)
    (hring : RingKnown ringOf w.2.state) :
    ((∀ t ∈ frameTakes w msgs, t.Obeys ringOf) ↔ ∀ t ∈ frameTakes w msgs, t.Trusted ringOf) ∧
      ((∀ t ∈ frameTakes w msgs, t.Obeys ringOf) →
        RingKnown ringOf (msgs.foldl takeClusterheadMsg w).2.state) := by
  induction msgs generalizing w with
  | nil =>
      refine ⟨by simp [frameTakes], ?_⟩
      intro _
      exact hring
  | cons buf msgs ih =>
      have hstep : (Taken.mk w.1 w.2 buf).Obeys ringOf ↔ (Taken.mk w.1 w.2 buf).Trusted ringOf :=
        obeys_iff_trusted hring
      simp only [frameTakes, List.forall_mem_cons, List.foldl_cons]
      refine ⟨?_, ?_⟩
      · constructor
        · rintro ⟨hhead, hrest⟩
          exact ⟨hstep.mp hhead, (ih hhead.ring).1.mp hrest⟩
        · rintro ⟨hhead, hrest⟩
          have hobeys := hstep.mpr hhead
          exact ⟨hobeys, (ih hobeys.ring).1.mpr hrest⟩
      · rintro ⟨hhead, hrest⟩
        exact (ih hhead.ring).2 hrest

private theorem frame_lastState (w : Bool × Node) (msgs : List Bytes) :
    lastState w.2.state (frameTakes w msgs) = (msgs.foldl takeClusterheadMsg w).2.state := by
  induction msgs generalizing w with
  | nil => rfl
  | cons buf msgs ih =>
      rw [List.foldl_cons, ← ih]
      rfl

private theorem lastState_append (s : MultihopState) (ts us : List Taken) :
    lastState s (ts ++ us) = lastState (lastState s ts) us := by
  rw [lastState, List.foldl_append]
  rfl

/-- The node at the head of a frame's loop over `getmsg`. -/
def receiving (p : WaitPass) (n : Node) : Node :=
  { n with link := { (Queue.recv p.recvNow p.arrival n.link).2 with rx := [] } }

def received (p : WaitPass) (n : Node) : List Bytes := (Queue.recv p.recvNow p.arrival n.link).2.rx

private theorem loop_cases (chSlot : UInt8) (p : WaitPass) (passes : List WaitPass) (n : Node) :
    loopTakes chSlot (p :: passes) n = [] ∧
        (waitLoop chSlot (p :: passes) n).2.state = n.state ∨
      loopTakes chSlot (p :: passes) n = frameTakes (true, receiving p n) (received p n) ∧
          (waitLoop chSlot (p :: passes) n).2.state =
            ((received p n).foldl takeClusterheadMsg (true, receiving p n)).2.state ∨
        ∃ n', n'.state = ((received p n).foldl takeClusterheadMsg (true, receiving p n)).2.state ∧
          loopTakes chSlot (p :: passes) n =
            frameTakes (true, receiving p n) (received p n) ++ loopTakes chSlot passes n' ∧
          waitLoop chSlot (p :: passes) n = waitLoop chSlot passes n' := by
  rw [waitLoop, loopTakes]
  dsimp only
  by_cases hrc : (Queue.recv p.recvNow p.arrival n.link).1 = .ok
  · rw [if_neg (not_not.mpr hrc), if_neg (not_not.mpr hrc)]
    split_ifs
    · refine Or.inr (Or.inr ⟨_, ?_, ?_, rfl⟩)
      · rfl
      · rfl
    · exact Or.inr (Or.inl ⟨rfl, rfl⟩)
    · exact Or.inr (Or.inl ⟨rfl, rfl⟩)
  · rw [if_pos hrc, if_pos hrc]
    exact Or.inl ⟨rfl, rfl⟩

private theorem loop_obeys_iff (chSlot : UInt8) (passes : List WaitPass) {n : Node}
    (hring : RingKnown ringOf n.state) :
    (∀ t ∈ loopTakes chSlot passes n, t.Obeys ringOf) ↔
      ∀ t ∈ loopTakes chSlot passes n, t.Trusted ringOf := by
  induction passes generalizing n with
  | nil => simp [loopTakes]
  | cons p passes ih =>
      obtain ⟨hframe, hkeeps⟩ :=
        frame_obeys_iff (w := (true, receiving p n)) (received p n) hring
      rcases loop_cases chSlot p passes n with ⟨htakes, -⟩ | ⟨htakes, -⟩ | ⟨n', hn', htakes, -⟩
      · rw [htakes]
        exact Iff.of_eq (by simp)
      · rw [htakes]
        exact hframe
      · rw [htakes, List.forall_mem_append, List.forall_mem_append]
        constructor
        · rintro ⟨hhead, hrest⟩
          exact ⟨hframe.mp hhead, (ih (hn' ▸ hkeeps hhead)).mp hrest⟩
        · rintro ⟨hhead, hrest⟩
          have hobeys := hframe.mpr hhead
          exact ⟨hobeys, (ih (hn' ▸ hkeeps hobeys)).mpr hrest⟩

private theorem loop_lastState (chSlot : UInt8) (passes : List WaitPass) (n : Node) :
    (waitLoop chSlot passes n).2.state = lastState n.state (loopTakes chSlot passes n) := by
  induction passes generalizing n with
  | nil => rfl
  | cons p passes ih =>
      have hframe := frame_lastState (true, receiving p n) (received p n)
      rcases loop_cases chSlot p passes n with
        ⟨htakes, hstate⟩ | ⟨htakes, hstate⟩ | ⟨n', hn', htakes, hloop⟩
      · rw [htakes, hstate]
        rfl
      · rw [htakes, hstate, ← hframe]
        rfl
      · rw [htakes, hloop, ih, lastState_append, hn', ← hframe]
        rfl

private theorem doFollowerRecv_lastState (slotNow : UInt32) (passes : List WaitPass) (n : Node) :
    (doFollowerRecv slotNow passes n).2.state = lastState n.state (takes slotNow passes n) := by
  rw [doFollowerRecv, takes]
  dsimp only
  split_ifs
  · rfl
  · rfl
  · exact loop_lastState _ _ _

private theorem takes_obeys_iff (slotNow : UInt32) (passes : List WaitPass) {n : Node}
    (hring : RingKnown ringOf n.state) :
    (∀ t ∈ takes slotNow passes n, t.Obeys ringOf) ↔
      ∀ t ∈ takes slotNow passes n, t.Trusted ringOf := by
  rw [takes]
  dsimp only
  split_ifs
  · exact Iff.of_eq (by simp)
  · exact Iff.of_eq (by simp)
  · exact loop_obeys_iff _ _ hring

/-- A follower obeys nobody but its clusterhead exactly when every message it takes while it waits
can be trusted: the loop itself looks at no sender. -/
theorem obeys_clusterhead_iff (slotNow : UInt32) (passes : List WaitPass) {n : Node}
    (hring : RingKnown ringOf n.state) :
    ObeysClusterhead ringOf slotNow passes n ↔
      ∀ t ∈ takes slotNow passes n, t.Trusted ringOf := by
  have hiff := takes_obeys_iff slotNow passes hring
  constructor
  · intro h
    exact hiff.mp h.1
  · intro h
    exact ⟨hiff.mpr h, doFollowerRecv_lastState slotNow passes n⟩

/-- A follower that takes such messages from its clusterhead only obeys nobody else. -/
theorem obeysClusterhead_of_own (slotNow : UInt32) (passes : List WaitPass) {n : Node}
    (hring : RingKnown ringOf n.state) (hown : ∀ t ∈ takes slotNow passes n, t.Own ringOf) :
    ObeysClusterhead ringOf slotNow passes n :=
  ⟨(takes_obeys_iff slotNow passes hring).mpr fun t ht => (hown t ht).trusted,
    doFollowerRecv_lastState slotNow passes n⟩

end Runs

/-- A node of the second ring in the acks slot of its clusterhead 7, holding relative slot 1. -/
def waitingFollower : Node where
  state :=
    { MultihopState.new with
      address := 5
      ring := 2
      role := .follower
      slotCount := 22
      clusterheadRing := 1
      clusterheadAddr := 7
      upstreamStartSlot := 8
      upstreamRelativeSlot := 1
      upstreamAckSlot := 14 }
  link :=
    { initialized := true
      mac := setupMac
      macState := ⟨71, 137⟩
      msgMaxBytes := setupLink.msgMaxBytes
      txSz := setupLink.txSz
      code := 6
      tx := []
      rx := [] }

/-- The acks that clusterhead `src` sends to its slots 0 and 1. -/
def acksFrom (src : Address) : WaitPass :=
  ⟨113, .accepted [Message.toBytes ⟨113, src, .sendAcks 0 2⟩ ++ leBytes 4 10 ++ leBytes 4 99], 113⟩

def innerRing (a : Address) : Ring := if a = 7 ∨ a = 9 then 1 else 2

theorem own_acks_are_obeyed : ObeysClusterhead innerRing 113 [acksFrom 7] waitingFollower := by
  have hown : ∀ t ∈ takes 113 [acksFrom 7] waitingFollower,
      decodeMsg t.buf = some (⟨113, 7, .sendAcks 0 2⟩, leBytes 4 10 ++ leBytes 4 99) ∧
        t.node.state.clusterheadAddr = 7 := by decide +kernel
  apply (obeys_clusterhead_iff 113 [acksFrom 7] (fun _ => rfl)).mpr
  intro t ht
  apply Taken.Own.trusted
  intro m tail hm
  obtain ⟨hdecode, haddr⟩ := hown t ht
  obtain ⟨rfl, -⟩ := Prod.mk.inj (Option.some.inj (hm.symm.trans hdecode))
  exact haddr.symm

/-- The acks of a clusterhead in the same slot, which the follower is not attached to, end its wait
and become its own. -/
theorem foreign_acks_are_obeyed :
    RingKnown innerRing waitingFollower.state ∧
      waitingFollower.state.clusterheadAddr = 7 ∧
      (doFollowerRecv 113 [acksFrom 9] waitingFollower).1 = some .ok ∧
      (doFollowerRecv 113 [acksFrom 9] waitingFollower).2.state.acks 0 = 99 ∧
      ¬ ObeysClusterhead innerRing 113 [acksFrom 9] waitingFollower := by
  refine ⟨fun _ => rfl, rfl, by decide +kernel, by decide +kernel, ?_⟩
  rintro ⟨hobeys, -⟩
  have hforeign : ∃ t ∈ takes 113 [acksFrom 9] waitingFollower,
      Taken.bond t.after ≠ Taken.bond (t.waiting, t.node) ∧
        decodeMsg t.buf = some (⟨113, 9, .sendAcks 0 2⟩, leBytes 4 10 ++ leBytes 4 99) ∧
          t.node.state.clusterheadAddr = 7 := by decide +kernel
  obtain ⟨t, ht, hbond, hdecode, haddr⟩ := hforeign
  have hsrc := (fromClusterhead_iff hdecode (Or.inl rfl)).mp ((hobeys t ht).sender hbond)
  rw [haddr] at hsrc
  exact absurd hsrc (by decide)

end LoraMultihop.Multihop.Waiting
