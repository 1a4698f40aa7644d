/- digest: What do_advertise keeps of an earlier superframe: nothing that it sends or ends with. -/

import LoraMultihop.Multihop.Api
import LoraMultihop.Multihop.Election

set_option autoImplicit false
set_option relaxedAutoImplicit false

namespace LoraMultihop.Multihop.Fresh

open LoraMultihop.Foundation.ByteMemory (Bytes)
open LoraMultihop.Net.Params
open LoraMultihop.Link
open LoraMultihop.Multihop.Messages
open LoraMultihop.Multihop.State
open LoraMultihop.Multihop.Sending
open LoraMultihop.Multihop.Slots
open LoraMultihop.Multihop.Discovery (Input DiscoveryLocals Hearing)
open LoraMultihop.Multihop.Advertise
open LoraMultihop.Multihop.Election (answerFollow_role)

/-- The two nodes differ at most in what an earlier superframe has left. -/
structure Alike (n₁ n₂ : Node) : Prop where
  address : n₂.state.address = n₁.state.address
  ring : n₂.state.ring = n₁.state.ring
  roundsWithoutLower : n₂.state.roundsWithoutLower = n₁.state.roundsWithoutLower
  chCredit : n₂.state.chCredit = n₁.state.chCredit
  clusterheadP : n₂.state.clusterheadP = n₁.state.clusterheadP
  slotCount : n₂.state.slotCount = n₁.state.slotCount
  link : n₂.link = n₁.link
  gateway : n₂.state.role = .gateway ↔ n₁.state.role = .gateway

def frames : List Input → Proc → List Queue.Frame
  | [], _ => []
  | inp :: inps, p => (step inp p).2 ++ frames inps (step inp p).1

structure SameCluster (s₁ s₂ : MultihopState) : Prop where
  ring : s₂.ring = s₁.ring
  role : s₂.role = s₁.role
  chCredit : s₂.chCredit = s₁.chCredit
  clusterheadAddr : s₂.clusterheadAddr = s₁.clusterheadAddr
  clusterheadRing : s₂.clusterheadRing = s₁.clusterheadRing
  upstreamStartSlot : s₂.upstreamStartSlot = s₁.upstreamStartSlot
  upstreamRelativeSlot : s₂.upstreamRelativeSlot = s₁.upstreamRelativeSlot
  upstreamAckSlot : s₂.upstreamAckSlot = s₁.upstreamAckSlot
  acks : ∀ i < s₁.slotCount, s₂.acks i = s₁.acks i
  slotsAssigned : s₁.actsAsClusterhead = true → s₂.slotsAssigned = s₁.slotsAssigned
  downstreamStartSlot : s₁.actsAsClusterhead = true →
    s₂.downstreamStartSlot = s₁.downstreamStartSlot
  slotAssignments : s₁.actsAsClusterhead = true →
    ∀ i < s₁.slotCount, s₂.slotAssignments i = s₁.slotAssignments i

/-- The parts of a node that `do_advertise` does not reset at its start. -/
structure Stale where
  acks : Nat → UInt32
  slotAssignments : Nat → Address
  slotsAssigned : UInt8
  downstreamStartSlot : UInt8

namespace Stale

def putState (x : Stale) (s : MultihopState) : MultihopState :=
  { s with
    acks := x.acks
    slotAssignments := x.slotAssignments
    slotsAssigned := x.slotsAssigned
    downstreamStartSlot := x.downstreamStartSlot }

def put (x : Stale) (n : Node) : Node := { n with state := x.putState n.state }

variable (x : Stale)

private theorem send_put (m : Message) (tail : Bytes) (n : Node) :
    send m tail (x.put n) = ((send m tail n).1, x.put (send m tail n).2) := rfl

private theorem flush_put (now : UInt32) (sent : Bool) (n : Node) :
    Sending.flush now sent (x.put n) =
      ((Sending.flush now sent n).1, x.put (Sending.flush now sent n).2.1,
        (Sending.flush now sent n).2.2) := by
  have hinit : (x.put n).state.initialized = n.state.initialized := rfl
  rw [Sending.flush, Sending.flush, hinit]
  split_ifs <;> rfl

private theorem request_put (m : Message) (n : Node) :
    (if n.state.initialized = false then (RC.notInit, x.put n) else send m [] (x.put n)) =
      ((if n.state.initialized = false then (RC.notInit, n) else send m [] n).1,
        x.put (if n.state.initialized = false then (RC.notInit, n) else send m [] n).2) := by
  split_ifs
  · rfl
  · exact x.send_put m [] n

private theorem openCluster_put (stamp : UInt32) (n : Node) :
    openCluster stamp (x.put n) = ((openCluster stamp n).1, x.put (openCluster stamp n).2) :=
  x.request_put _ n

private theorem follow_put (clusterhead : Address) (stamp : UInt32) (n : Node) :
    follow clusterhead stamp (x.put n) =
      ((follow clusterhead stamp n).1, x.put (follow clusterhead stamp n).2) :=
  x.request_put _ n

private theorem sendHeartbeat_put (stamp : UInt32) (n : Node) :
    sendHeartbeat stamp (x.put n) =
      ((sendHeartbeat stamp n).1, x.put (sendHeartbeat stamp n).2) :=
  x.request_put _ n

private theorem announceHeartbeat_put (stamp now : UInt32) (sent : Bool) (n : Node) :
    Discovery.announceHeartbeat stamp now sent (x.put n) =
      (x.put (Discovery.announceHeartbeat stamp now sent n).1,
        (Discovery.announceHeartbeat stamp now sent n).2) := by
  rw [Discovery.announceHeartbeat, Discovery.announceHeartbeat, sendHeartbeat_put]
  dsimp only
  split_ifs
  · rw [flush_put]
  · rfl

private theorem addNeighbor_put (ring : Ring) (s : MultihopState) :
    (x.putState s).addNeighbor ring = x.putState (s.addNeighbor ring) := by
  rw [MultihopState.addNeighbor, MultihopState.addNeighbor]
  split_ifs <;> rfl

private theorem updateRing_put (s : MultihopState) :
    (x.putState s).updateRingFromNeighbors = x.putState s.updateRingFromNeighbors := by
  rw [MultihopState.updateRingFromNeighbors, MultihopState.updateRingFromNeighbors]
  simp only [apply_ite x.putState]
  rfl

private theorem hear_put (inp : Input) (l : DiscoveryLocals) (msgs : List Bytes) (h : Hearing) :
    msgs.foldl (Discovery.hear inp l) { h with state := x.putState h.state } =
      { msgs.foldl (Discovery.hear inp l) h with
        state := x.putState (msgs.foldl (Discovery.hear inp l) h).state } := by
  induction msgs generalizing h with
  | nil => rfl
  | cons b msgs ih =>
      rw [List.foldl_cons, List.foldl_cons, ← ih]
      congr 1
      rw [Discovery.hear, Discovery.hear]
      cases Discovery.heartbeatRing b with
      | none => rfl
      | some ring =>
          dsimp only
          rw [addNeighbor_put]

private theorem discoveryPass_put (inp : Input) (l : DiscoveryLocals) (n : Node) :
    Discovery.discoveryPass inp l (x.put n) =
      ((Discovery.discoveryPass inp l n).1, x.put (Discovery.discoveryPass inp l n).2.1,
        (Discovery.discoveryPass inp l n).2.2) := by
  have hrecv : (Discovery.recv (inp.now 0) inp.arrival (x.put n)).1 =
      (Discovery.recv (inp.now 0) inp.arrival n).1 := rfl
  have hlink : (Discovery.afterRecv inp (x.put n)).link = (Discovery.afterRecv inp n).link := by
    rw [Discovery.afterRecv, Discovery.afterRecv]
    dsimp only
    rw [hrecv]
    split_ifs <;> rfl
  have hafter (s : MultihopState) :
      { Discovery.afterRecv inp (x.put n) with state := x.putState s } =
        x.put { Discovery.afterRecv inp n with state := s } := by
    dsimp only
    rw [hlink]
    rfl
  have hheard := hear_put x inp l (Discovery.received inp n) ⟨n.state, l.hasRingInfo,
    l.hasRingInfo && (!l.announced && l.announceDeadline.reached (inp.millis 1)), 2⟩
  have hput : Discovery.received inp (x.put n) = Discovery.received inp n := rfl
  have hstate : (x.put n).state = x.putState n.state := rfl
  rw [Discovery.discoveryPass, Discovery.discoveryPass]
  dsimp only at hheard ⊢
  rw [hput, hstate, hheard]
  generalize (Discovery.received inp n).foldl (Discovery.hear inp l) _ = h
  dsimp only
  rw [updateRing_put, hafter, announceHeartbeat_put]
  split_ifs <;> rfl

private theorem announceCluster_put (inp : Input) (l : AnnounceLocals) (n : Node) :
    announceCluster inp l (x.put n) =
      ((announceCluster inp l n).1, x.put (announceCluster inp l n).2.1,
        (announceCluster inp l n).2.2) := by
  rw [announceCluster, announceCluster, openCluster_put]
  dsimp only
  split_ifs
  · rw [flush_put]
  · rfl
  · rfl

private theorem announcementPass_put (inp : Input) (l : AnnounceLocals) (n : Node) :
    announcementPass inp l (x.put n) =
      ((announcementPass inp l n).1, x.put (announcementPass inp l n).2.1,
        (announcementPass inp l n).2.2) := by
  have hrecv : (Discovery.recv (inp.now 0) inp.arrival (x.put n)).2 =
      x.put (Discovery.recv (inp.now 0) inp.arrival n).2 := rfl
  rw [announcementPass, announcementPass]
  dsimp only
  rw [hrecv, announceCluster_put]
  rfl

private theorem joinHead_put (inp : Input) (l : JoinLocals) (n : Node) :
    joinHead inp l (x.put n) =
      ((joinHead inp l n).1, x.put (joinHead inp l n).2.1, (joinHead inp l n).2.2) := by
  rw [joinHead, joinHead]
  dsimp only
  rw [follow_put]
  dsimp only
  split_ifs
  · rw [flush_put]
  · rfl
  · rfl

end Stale

/-- The stale parts are those of the node as far as it can come to read them: the acks always, the
table once it is `prepared`. -/
structure Agrees (x : Stale) (prepared : Prop) (s : MultihopState) : Prop where
  slots : 0 < s.slotCount
  acks : ∀ i < s.slotCount, x.acks i = s.acks i
  slotsAssigned : prepared → x.slotsAssigned = s.slotsAssigned
  downstreamStartSlot : prepared → x.downstreamStartSlot = s.downstreamStartSlot
  slotAssignments : prepared → ∀ i, i < s.slotCount ∨ i < s.slotsAssigned.toNat →
    x.slotAssignments i = s.slotAssignments i

def tables (s : MultihopState) :
    Nat × (Nat → UInt32) × (Nat → Address) × UInt8 × UInt8 :=
  (s.slotCount, s.acks, s.slotAssignments, s.slotsAssigned, s.downstreamStartSlot)

section Tables

variable {x : Stale} {prepared : Prop} {s : MultihopState} {n : Node}

private theorem Agrees.congr {prepared' : Prop} {s' : MultihopState} (h : Agrees x prepared s)
    (htables : tables s' = tables s) (himp : prepared' → prepared) : Agrees x prepared' s' := by
  simp only [tables, Prod.mk.injEq] at htables
  obtain ⟨hcount, hacks, htable, hassigned, hstart⟩ := htables
  refine ⟨?_, ?_, ?_, ?_, ?_⟩
  · rw [hcount]
    exact h.slots
  · rw [hcount, hacks]
    exact h.acks
  · intro hp
    rw [hassigned]
    exact h.slotsAssigned (himp hp)
  · intro hp
    rw [hstart]
    exact h.downstreamStartSlot (himp hp)
  · intro hp
    rw [hcount, htable, hassigned]
    exact h.slotAssignments (himp hp)

private theorem prepareClusterhead_put (x : Stale) (hslots : 0 < n.state.slotCount) :
    ∃ x' : Stale, prepareClusterhead (x.put n) = x'.put (prepareClusterhead n) ∧
      ∀ prepared, Agrees x' prepared (prepareClusterhead n).state := by
  let s' := (prepareClusterhead (x.put n)).state
  refine ⟨⟨s'.acks, s'.slotAssignments, s'.slotsAssigned, s'.downstreamStartSlot⟩, rfl,
    fun prepared => ⟨hslots, ?_, fun _ => rfl, fun _ => rfl, ?_⟩⟩
  · intro i hi
    exact (if_pos hi).trans (if_pos hi).symm
  · rintro - i hi
    -- one slot is assigned now, and it is a slot
    have hlt : i < n.state.slotCount := by
      cases hi with
      | inl hi => exact hi
      | inr hi =>
          have hone : i < 1 := hi
          omega
    change (if _ then _ else if i < n.state.slotCount then _ else _) =
      if _ then _ else if i < n.state.slotCount then _ else _
    rw [if_pos hlt, if_pos hlt]
    rfl

private theorem assignedSlot_put (follower : Address) (h : Agrees x prepared s) (hp : prepared) :
    assignedSlot follower (x.putState s) = assignedSlot follower s := by
  have hassigned : (x.putState s).slotsAssigned = s.slotsAssigned := h.slotsAssigned hp
  rw [assignedSlot, assignedSlot, hassigned]
  apply List.find?_congr
  intro i hi
  have heq : (x.putState s).slotAssignments i = s.slotAssignments i :=
    h.slotAssignments hp i (Or.inr (List.mem_range.mp hi))
  rw [heq]

private theorem assign_put (follower : Address) (h : Agrees x prepared n.state) (hp : prepared) :
    ∃ x' : Stale, assign follower (x.put n) = x'.put (assign follower n) ∧
      Agrees x' prepared (assign follower n).state := by
  have hslot : assignedSlot follower (x.put n).state = assignedSlot follower n.state :=
    assignedSlot_put follower h hp
  have hassigned : (x.put n).state.slotsAssigned = n.state.slotsAssigned := h.slotsAssigned hp
  have hmac : (x.put n).mac = n.mac := rfl
  rw [assign, assign, hslot, hassigned, hmac]
  split_ifs with hfree
  · refine ⟨⟨x.acks, fun i => if i = n.state.slotsAssigned.toNat then follower
        else x.slotAssignments i, n.state.slotsAssigned + 1, x.downstreamStartSlot⟩, rfl,
      ⟨h.slots, h.acks, fun _ => rfl, h.downstreamStartSlot, ?_⟩⟩
    rintro - i hi
    change (if _ then _ else _) = if _ then _ else _
    split_ifs with hnew
    · rfl
    · apply h.slotAssignments hp
      cases hi with
      | inl hi => exact Or.inl hi
      | inr hi =>
          have hnext : i < (n.state.slotsAssigned + 1).toNat := hi
          rw [UInt8.toNat_add, show (1 : UInt8).toNat = 1 from rfl] at hnext
          omega
  · exact ⟨x, rfl, h⟩

private theorem accept_put (follower : Address) (remote stamp : UInt32)
    (h : Agrees x prepared n.state) (hp : prepared) :
    ∃ x' : Stale, (accept follower remote stamp (x.put n)).2 =
        x'.put (accept follower remote stamp n).2 ∧
      Agrees x' prepared (accept follower remote stamp n).2.state := by
  have hinit : (x.put n).state.initialized = n.state.initialized := rfl
  by_cases hi : n.state.initialized = true
  · obtain ⟨x', hassign, hagrees⟩ := assign_put follower h hp
    have hslot : slotFor follower (x.put n) = slotFor follower n := by
      have hsearch : assignedSlot follower (x.put n).state = assignedSlot follower n.state :=
        assignedSlot_put follower h hp
      have hassigned : (x.put n).state.slotsAssigned = n.state.slotsAssigned :=
        h.slotsAssigned hp
      have hmac : (x.put n).mac = n.mac := rfl
      rw [slotFor, slotFor, hsearch, hassigned, hmac]
    have hstart : (x.put n).state.downstreamStartSlot = n.state.downstreamStartSlot :=
      h.downstreamStartSlot hp
    have hmsg : acceptMessage follower remote stamp (x.put n) =
        acceptMessage follower remote stamp n := by
      rw [acceptMessage, acceptMessage, hslot, hstart]
      rfl
    refine ⟨x', ?_, ?_⟩
    · rw [accept_snd remote stamp (hinit.trans hi), accept_snd remote stamp hi, hmsg, hassign,
        Stale.send_put]
    · rw [accept_snd remote stamp hi]
      exact hagrees
  · refine ⟨x, ?_, ?_⟩
    · rw [accept, accept, hinit, if_pos (Bool.eq_false_iff.mpr hi),
        if_pos (Bool.eq_false_iff.mpr hi)]
    · rw [accept, if_pos (Bool.eq_false_iff.mpr hi)]
      exact h

private theorem answerFollow_put (inp : Input) (isClusterhead : Bool) (m : Message)
    (h : Agrees x prepared n.state) (hp : isClusterhead = true → prepared) :
    ∃ x' : Stale, answerFollow inp isClusterhead m (x.put n) =
        (x'.put (answerFollow inp isClusterhead m n).1, (answerFollow inp isClusterhead m n).2) ∧
      Agrees x' prepared (answerFollow inp isClusterhead m n).1.state := by
  rw [answerFollow, answerFollow]
  cases hbody : m.body with
  | follow clusterhead follower =>
      have haddress : (x.put n).state.address = n.state.address := rfl
      dsimp only
      rw [haddress]
      split_ifs with hmine
      · obtain ⟨x', haccept, hagrees⟩ := accept_put m.src (inp.now 0) (inp.now 1) h (hp hmine.1)
        refine ⟨x', ?_, ?_⟩
        · rw [haccept, Stale.flush_put]
        · rw [flush_state]
          exact hagrees
      · exact ⟨x, rfl, h⟩
  | _ => exact ⟨x, rfl, h⟩

private theorem promote_put (rand : UInt32) (isClusterhead : Bool)
    (h : Agrees x (n.state.actsAsClusterhead = true ∨ isClusterhead = true) n.state) :
    ∃ x' : Stale, promote rand (x.put n) = x'.put (promote rand n) ∧
      Agrees x' ((promote rand n).state.actsAsClusterhead = true ∨ isClusterhead = true)
        (promote rand n).state := by
  have hacts : (x.put n).state.actsAsClusterhead = n.state.actsAsClusterhead := rfl
  have hdraw : announceClusterhead rand (x.put n).state = announceClusterhead rand n.state := rfl
  rw [promote, promote, hacts, hdraw]
  split_ifs
  · obtain ⟨x', hput, hagrees⟩ :=
      prepareClusterhead_put (n := withRole .clusterhead n) x h.slots
    exact ⟨x', hput, hagrees _⟩
  · exact ⟨x, rfl, h⟩

private theorem join_put (inp : Input) (isClusterhead : Bool) (l : JoinLocals) (m : Message)
    (durationMs : UInt32)
    (h : Agrees x (n.state.actsAsClusterhead = true ∨ isClusterhead = true) n.state) :
    ∃ x' : Stale, join inp l m (x.put n) durationMs =
        ((join inp l m n durationMs).1, (join inp l m n durationMs).2.1,
          x'.put (join inp l m n durationMs).2.2) ∧
      Agrees x'
        ((join inp l m n durationMs).2.2.state.actsAsClusterhead = true ∨ isClusterhead = true)
        (join inp l m n durationMs).2.2.state := by
  rw [join, join]
  cases hbody : m.body with
  | accept accepted follower start relative remote =>
      have haddress : (x.put n).state.address = n.state.address := rfl
      dsimp only
      rw [haddress]
      split_ifs
      · obtain ⟨x', hpromote, hagrees⟩ := promote_put (n := attach l start relative n)
          (inp.rand 0) isClusterhead (h.congr rfl id)
        refine ⟨x', ?_, hagrees⟩
        have hattach : attach l start relative (x.put n) = x.put (attach l start relative n) := rfl
        rw [hattach, hpromote]
      · exact ⟨x, rfl, h⟩
      · exact ⟨x, rfl, h⟩
  | _ => exact ⟨x, rfl, h⟩

end Tables

/-- What lets a node read its table; it has written it in this superframe then. -/
def Prepared (p : Proc) : Prop :=
  match p.control with
  | .discovery _ => p.node.state.role = .clusterhead
  | .announcement _ earlier l =>
      p.node.state.actsAsClusterhead = true ∨ (earlier || l.isClusterhead) = true
  | .joining _ _ isClusterhead _ => p.node.state.actsAsClusterhead = true ∨ isClusterhead = true
  | _ => p.node.state.actsAsClusterhead = true

/-- Before its first round a gateway is in its own ring, so that it will prepare its table. -/
def Rooted (p : Proc) : Prop :=
  ∀ l, p.control = .discovery l → p.node.state.role = .gateway →
    p.node.state.address = GATEWAY_ADDR ∧ p.node.state.ring = GATEWAY_RING

/-- The second node is the first but for parts that an earlier superframe has left. -/
def Twin (p₁ p₂ : Proc) : Prop :=
  p₁.control.started = true ∧ Rooted p₁ ∧ ∃ x : Stale, p₂ = ⟨p₁.control, x.put p₁.node⟩ ∧
    Agrees x (Prepared p₁) p₁.node.state

section Steps

variable {x : Stale} {n : Node}

private theorem rooted_later {p : Proc} (h : ∀ l, p.control ≠ .discovery l) : Rooted p :=
  fun l hl => absurd hl (h l)

private theorem startRound_twin (inp : Input) (round : Nat) (earlier : Bool) {prepared : Prop}
    (h : Agrees x prepared n.state)
    (hprepared : n.state.actsAsClusterhead = true ∨ earlier = true → prepared ∨
      earlier = false ∧ volunteers (inp.rand 0) (UInt8.ofNat round) n.state = true) :
    Twin (startRound inp round earlier n) (startRound inp round earlier (x.put n)) := by
  refine ⟨rfl, rooted_later (fun l hl => Control.noConfusion hl), ?_⟩
  have hvolunteers : volunteers (inp.rand 0) (UInt8.ofNat round) (x.put n).state =
      volunteers (inp.rand 0) (UInt8.ofNat round) n.state := rfl
  have hrole : (x.put n).state.role = n.state.role := rfl
  have hmac : (x.put n).mac = n.mac := rfl
  rw [startRound, startRound, startAnnouncement, startAnnouncement, hvolunteers, hrole, hmac]
  dsimp only
  by_cases hnew : (volunteers (inp.rand 0) (UInt8.ofNat round) n.state && !earlier) = true
  · rw [if_pos hnew, if_pos hnew]
    split_ifs
    · obtain ⟨x', hput, hagrees⟩ :=
        prepareClusterhead_put (n := withRole .clusterhead n) x h.slots
      exact ⟨x', congrArg (Proc.mk _) hput, hagrees _⟩
    · obtain ⟨x', hput, hagrees⟩ := prepareClusterhead_put x h.slots
      exact ⟨x', congrArg (Proc.mk _) hput, hagrees _⟩
  · rw [if_neg hnew, if_neg hnew]
    refine ⟨x, rfl, h.congr rfl ?_⟩
    intro hp
    have hearly : n.state.actsAsClusterhead = true ∨ earlier = true := by
      cases hp with
      | inl hacts => exact Or.inl hacts
      | inr hany =>
          cases hearlier : earlier with
          | true => exact Or.inr rfl
          | false =>
              rw [hearlier] at hnew hany
              exact absurd (by simpa using hany) (by simpa using hnew)
    cases hprepared hearly with
    | inl hp => exact hp
    | inr hfirst => exact absurd (by simp [hfirst.1, hfirst.2]) hnew

private theorem joinMessage_twin (inp : Input) (round : Nat) (isClusterhead : Bool) (l : JoinLocals)
    (h : Agrees x (n.state.actsAsClusterhead = true ∨ isClusterhead = true) n.state) :
    (joinMessage inp round isClusterhead l (x.put n)).2 =
        (joinMessage inp round isClusterhead l n).2 ∧
      Twin (joinMessage inp round isClusterhead l n).1
        (joinMessage inp round isClusterhead l (x.put n)).1 := by
  rw [joinMessage, joinMessage]
  have hget : Queue.getmsg (x.put n).link = Queue.getmsg n.link := rfl
  have hput : ({ x.put n with link := (Queue.getmsg n.link).2 } : Node) =
      x.put { n with link := (Queue.getmsg n.link).2 } := rfl
  dsimp only at hput ⊢
  rw [hget, hput]
  have hstate : ({ n with link := (Queue.getmsg n.link).2 } : Node).state = n.state := rfl
  generalize ({ n with link := (Queue.getmsg n.link).2 } : Node) = n' at hstate ⊢
  rw [← hstate] at h
  cases (Queue.getmsg n.link).1.bind decodeMsg with
  | none => exact ⟨rfl, rfl, rooted_later (fun l hl => Control.noConfusion hl), x, rfl, h⟩
  | some decoded =>
      obtain ⟨m, rest⟩ := decoded
      obtain ⟨x₁, hanswer, hagrees₁⟩ := answerFollow_put inp isClusterhead m h Or.inr
      have hrole := (answerFollow_role inp isClusterhead m n').1
      dsimp only
      rw [hanswer]
      dsimp only
      generalize answerFollow inp isClusterhead m n' = answer at hrole hagrees₁ ⊢
      have hacts : answer.1.state.actsAsClusterhead = n'.state.actsAsClusterhead := by
        rw [MultihopState.actsAsClusterhead, MultihopState.actsAsClusterhead, hrole]
      rw [← hacts] at hagrees₁
      obtain ⟨x₂, hjoin, hagrees₂⟩ :=
        join_put inp isClusterhead l m (roundMs answer.1.mac) hagrees₁
      have hmac : (x₁.put answer.1).mac = answer.1.mac := rfl
      rw [hmac, hjoin]
      exact ⟨rfl, rfl, rooted_later (fun l hl => Control.noConfusion hl), x₂, rfl, hagrees₂⟩

private theorem discoveryPass_twin (inp : Input) (l : DiscoveryLocals)
    (hrooted : Rooted ⟨.discovery l, n⟩) (h : Agrees x (n.state.role = .clusterhead) n.state) :
    Twin ⟨.discovery (Discovery.discoveryPass inp l n).1, (Discovery.discoveryPass inp l n).2.1⟩
      ⟨.discovery (Discovery.discoveryPass inp l n).1,
        x.put (Discovery.discoveryPass inp l n).2.1⟩ := by
  have hstate := Discovery.discoveryPass_state inp l n
  obtain ⟨neighbors, ring, rounds, hkept⟩ := Discovery.heardState_kept inp n
  refine ⟨rfl, ?_, x, rfl, ?_⟩
  · rintro - - hrole
    dsimp only at hrole ⊢
    have hring := Discovery.heardState_gateway inp (n := n)
    rw [hstate, hkept] at hrole ⊢
    rw [hkept] at hring
    have haddress := (hrooted l rfl hrole).1
    exact ⟨haddress, hring haddress⟩
  · apply h.congr
    · dsimp only
      rw [hstate, hkept]
      rfl
    · rw [Prepared]
      dsimp only
      rw [hstate, hkept]
      exact id

private theorem firstRound_twin (inp : Input) {l : DiscoveryLocals}
    (hrooted : Rooted ⟨.discovery l, n⟩) (h : Agrees x (n.state.role = .clusterhead) n.state) :
    Twin (startRound inp 0 false n) (startRound inp 0 false (x.put n)) := by
  apply startRound_twin inp 0 false h
  rintro (hacts | hearlier)
  · rw [MultihopState.actsAsClusterhead, Bool.or_eq_true, decide_eq_true_eq,
      decide_eq_true_eq] at hacts
    cases hacts with
    | inl hgateway =>
        have hring : n.state.ring = UInt8.ofNat 0 := (hrooted l rfl hgateway).2
        refine Or.inr ⟨rfl, ?_⟩
        rw [volunteers, if_pos hring, hgateway]
        rfl
    | inr hclusterhead => exact Or.inl hclusterhead
  · exact absurd hearlier (by simp)

/-- Every step behind the start keeps the two nodes twins, and both send the same. -/
private theorem step_twin {p₁ p₂ : Proc} (inp : Input) (h : Twin p₁ p₂) :
    (step inp p₂).2 = (step inp p₁).2 ∧ Twin (step inp p₁).1 (step inp p₂).1 := by
  obtain ⟨control, n⟩ := p₁
  obtain ⟨hstarted, hrooted, x, rfl, hagrees⟩ := h
  cases control with
  | idle => exact absurd hstarted (by simp [Control.started])
  | discovery l =>
      rw [step, step]
      dsimp only
      split_ifs
      · exact ⟨rfl, firstRound_twin inp hrooted hagrees⟩
      · rw [Stale.discoveryPass_put]
        exact ⟨rfl, discoveryPass_twin inp l hrooted hagrees⟩
  | announcement round earlier l =>
      rw [step, step]
      dsimp only
      split_ifs
      · exact ⟨rfl, rfl, rooted_later (fun l hl => Control.noConfusion hl), x, rfl, hagrees⟩
      · rw [Stale.announcementPass_put]
        refine ⟨rfl, rfl, rooted_later (fun l hl => Control.noConfusion hl), x, rfl, ?_⟩
        have hstate := announcementPass_state inp l n
        apply hagrees.congr (congrArg tables hstate)
        have hlocals : (announcementPass inp l n).1.isClusterhead = true →
            l.isClusterhead = true := by
          intro hch
          rcases announcementPass_locals inp l n with ⟨hsame, -⟩ | ⟨hbefore, -⟩
          · exact hsame.symm.trans hch
          · exact hbefore
        rw [Prepared, Prepared]
        dsimp only
        rw [hstate, Bool.or_eq_true, Bool.or_eq_true]
        exact Or.imp_right (Or.imp_right hlocals)
  | joining stage round isClusterhead l =>
      cases stage with
      | head =>
          rw [step, step]
          dsimp only
          split_ifs
          · exact ⟨rfl, startRound_twin inp (round + 1) isClusterhead hagrees Or.inl⟩
          · refine ⟨rfl, rfl, rooted_later (fun l hl => Control.noConfusion hl), x, rfl, ?_⟩
            exact hagrees.congr rfl Or.inl
          · rw [Stale.joinHead_put]
            refine ⟨rfl, rfl, rooted_later (fun l hl => Control.noConfusion hl), x, rfl, ?_⟩
            have hstate := joinHead_state inp l n
            apply hagrees.congr (congrArg tables hstate)
            rw [Prepared, Prepared]
            dsimp only
            rw [hstate]
            exact id
      | recv =>
          exact ⟨rfl, rfl, rooted_later (fun l hl => Control.noConfusion hl), x, rfl, hagrees⟩
      | drain => exact joinMessage_twin inp round isClusterhead l hagrees
  | done => exact ⟨rfl, hstarted, hrooted, x, rfl, hagrees⟩

private theorem run_twin {p₁ p₂ : Proc} (inps : List Input) (h : Twin p₁ p₂) :
    frames inps p₂ = frames inps p₁ ∧ Twin (run inps p₁) (run inps p₂) := by
  induction inps generalizing p₁ p₂ with
  | nil => exact ⟨rfl, h⟩
  | cons inp inps ih =>
      obtain ⟨hsent, hnext⟩ := step_twin inp h
      obtain ⟨hframes, hrun⟩ := ih hnext
      refine ⟨?_, hrun⟩
      rw [frames, frames, hsent, hframes]

end Steps

private theorem Twin.sameCluster {p₁ p₂ : Proc} (h : Twin p₁ p₂)
    (hdone : p₁.control.isDone = true) : SameCluster p₁.node.state p₂.node.state := by
  obtain ⟨control, n⟩ := p₁
  obtain ⟨-, -, x, rfl, hagrees⟩ := h
  cases control with
  | done =>
      exact ⟨rfl, rfl, rfl, rfl, rfl, rfl, rfl, rfl, hagrees.acks, hagrees.slotsAssigned,
        hagrees.downstreamStartSlot, fun hacts i hi => hagrees.slotAssignments hacts i (Or.inl hi)⟩
  | idle => exact absurd hdone (by simp [Control.isDone])
  | discovery l => exact absurd hdone (by simp [Control.isDone])
  | announcement round earlier l => exact absurd hdone (by simp [Control.isDone])
  | joining stage round isClusterhead l => exact absurd hdone (by simp [Control.isDone])

private theorem startAdvertise_twin {n₁ n₂ : Node} (inp : Input) (h : Alike n₁ n₂)
    (hgateway : n₁.state.role = .gateway →
      n₁.state.address = GATEWAY_ADDR ∧ n₁.state.ring = GATEWAY_RING)
    (hslots : 0 < n₁.state.slotCount) :
    Twin (startAdvertise inp n₁) (startAdvertise inp n₂) := by
  obtain ⟨s₁, link₁⟩ := n₁
  obtain ⟨s₂, link₂⟩ := n₂
  have hrole : (if s₂.role ≠ .gateway then Role.follower else s₂.role) =
      if s₁.role ≠ .gateway then Role.follower else s₁.role := by
    by_cases hg : s₁.role = .gateway
    · rw [hg, h.gateway.mpr hg]
    · rw [if_pos hg, if_pos (fun hg₂ => hg (h.gateway.mp hg₂))]
  have hreset : (if s₁.role ≠ .gateway then Role.follower else s₁.role) ≠ .clusterhead := by
    split_ifs with hg
    · exact Role.noConfusion
    · rw [not_not.mp hg]
      exact Role.noConfusion
  refine ⟨rfl, ?_, ⟨fun i => if i < s₁.slotCount then 0 else s₂.acks i, s₂.slotAssignments,
    s₂.slotsAssigned, s₂.downstreamStartSlot⟩, ?_, ?_⟩
  · rintro - - hg
    have hg₁ : s₁.role = .gateway := by
      by_contra hnot
      have hfollower : (if s₁.role ≠ .gateway then Role.follower else s₁.role) = .gateway := hg
      rw [if_pos hnot] at hfollower
      exact Role.noConfusion hfollower
    exact hgateway hg₁
  · cases s₁
    cases s₂
    obtain ⟨haddress, hring, hrounds, hcredit, hp, hcount, hlink, -⟩ := h
    dsimp only at haddress hring hrounds hcredit hp hcount hlink hrole
    subst haddress hring hrounds hcredit hp hcount hlink
    rw [startAdvertise, startAdvertise, resetCluster, resetCluster]
    dsimp only
    rw [hrole]
    rfl
  · refine ⟨hslots, ?_, fun hp => absurd hp hreset, fun hp => absurd hp hreset,
      fun hp => absurd hp hreset⟩
    intro i hi
    exact (if_pos hi).trans (if_pos hi).symm

private theorem Alike.activeSlot {n₁ n₂ : Node} (h : Alike n₁ n₂) (now : UInt32) :
    (Slots.activeSlot now n₂).1 = (Slots.activeSlot now n₁).1 ∧
      Alike (Slots.activeSlot now n₁).2 (Slots.activeSlot now n₂).2 := by
  have hlink : Queue.activeSlot now n₂.link = Queue.activeSlot now n₁.link := by rw [h.link]
  refine ⟨congrArg (fun r => r.1) hlink, ?_⟩
  exact ⟨h.address, h.ring, h.roundsWithoutLower, h.chCredit, h.clusterheadP, h.slotCount,
    congrArg (fun r => r.2) hlink, h.gateway⟩

/-- A call outside the advertising slot returns; inside, it starts. -/
private theorem step_idle (inp : Input) (n : Node) :
    step inp ⟨.idle, n⟩ =
      if (Slots.activeSlot (inp.now 0) n).1 = ADVERTISEMENT_SLOT.toNat then
        (startAdvertise inp (Slots.activeSlot (inp.now 0) n).2, [])
      else (⟨.idle, (Slots.activeSlot (inp.now 0) n).2⟩, []) := by
  rw [step]
  dsimp only
  rw [ite_not]

/-- Two nodes that differ at most in what an earlier superframe has left send the same frames in
`do_advertise`, take the same way through it and end it in the same cluster. A gateway has the
address and the ring that `init` gives it, and the arrays are not empty. -/
theorem advertise_forgets {n₁ n₂ : Node} (h : Alike n₁ n₂)
    (hgateway : n₁.state.role = .gateway →
      n₁.state.address = GATEWAY_ADDR ∧ n₁.state.ring = GATEWAY_RING)
    (hslots : 0 < n₁.state.slotCount) (inps : List Input) :
    frames inps ⟨.idle, n₂⟩ = frames inps ⟨.idle, n₁⟩ ∧
      (run inps ⟨.idle, n₂⟩).control = (run inps ⟨.idle, n₁⟩).control ∧
      ((run inps ⟨.idle, n₁⟩).control.isDone = true →
        SameCluster (run inps ⟨.idle, n₁⟩).node.state (run inps ⟨.idle, n₂⟩).node.state) := by
  induction inps generalizing n₁ n₂ with
  | nil => exact ⟨rfl, rfl, fun hdone => absurd hdone (by simp [run, Control.isDone])⟩
  | cons inp inps ih =>
      obtain ⟨hslot, halike⟩ := h.activeSlot (inp.now 0)
      have hrun (n : Node) : run (inp :: inps) ⟨.idle, n⟩ = run inps (step inp ⟨.idle, n⟩).1 := rfl
      rw [frames, frames, hrun, hrun, step_idle, step_idle, hslot]
      split_ifs
      · have htwin := startAdvertise_twin inp halike hgateway hslots
        obtain ⟨hframes, hend⟩ := run_twin inps htwin
        refine ⟨congrArg _ hframes, ?_, hend.sameCluster⟩
        obtain ⟨-, -, x, hlast, -⟩ := hend
        dsimp only
        rw [hlast]
      · obtain ⟨hframes, hend⟩ := ih halike hgateway hslots
        exact ⟨congrArg _ hframes, hend⟩

/-- The node at the end of a superframe as a clusterhead of three followers below the node 9. -/
def worn (n : Node) : Node :=
  { n with
    state :=
      { n.state with
        role := .clusterhead
        clusterheadAddr := 9
        clusterheadRing := 1
        upstreamStartSlot := 6
        upstreamRelativeSlot := 1
        upstreamAckSlot := 10
        acks := fun _ => 70
        slotAssignments := fun _ => 5
        slotsAssigned := 4
        downstreamStartSlot := 11 } }

/-- A call of `do_advertise` to its end, in which the gateway is heard. -/
def superframe : List Input :=
  [Discovery.reading 0 72 .timedOut,
    Discovery.reading 500 72 (.accepted [Message.toBytes ⟨72, 0, .heartbeat 0⟩]),
    Discovery.reading 10000000 72 .timedOut, Discovery.reading 20000000 72 .timedOut,
    Discovery.reading 30000000 72 .timedOut, Discovery.reading 40000000 72 .timedOut,
    Discovery.reading 50000000 72 .timedOut, Discovery.reading 60000000 72 .timedOut,
    Discovery.reading 70000000 72 .timedOut]

theorem worn_node_joins_afresh :
    frames superframe ⟨.idle, worn (Discovery.setupNode 3)⟩ =
        frames superframe ⟨.idle, Discovery.setupNode 3⟩ ∧
      SameCluster (run superframe ⟨.idle, Discovery.setupNode 3⟩).node.state
        (run superframe ⟨.idle, worn (Discovery.setupNode 3)⟩).node.state := by
  have halike : Alike (Discovery.setupNode 3) (worn (Discovery.setupNode 3)) :=
    ⟨rfl, rfl, rfl, rfl, rfl, rfl, rfl, by decide⟩
  obtain ⟨hframes, -, hcluster⟩ := advertise_forgets halike (fun hrole => absurd hrole (by decide))
    (by decide) superframe
  exact ⟨hframes, hcluster (by decide)⟩

end LoraMultihop.Multihop.Fresh
