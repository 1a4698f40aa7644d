/- digest: The advertising slot as a machine: discovery, then rounds of announcing and joining. -/

import Mathlib
import LoraMultihop.Multihop.Slots
import LoraMultihop.Multihop.Discovery

set_option autoImplicit false
set_option relaxedAutoImplicit false

namespace LoraMultihop.Multihop.Advertise

open LoraMultihop.Foundation.ByteMemory (Bytes)
open LoraMultihop.Net.Params
open LoraMultihop.Net.TimeHelpers
open LoraMultihop.Link
open LoraMultihop.Multihop.Messages
open LoraMultihop.Multihop.State
open LoraMultihop.Multihop.Sending
open LoraMultihop.Multihop.Discovery

structure Candidate where
  address : Address
  ring : Ring
  score : UInt32
  deriving DecidableEq

def Candidate.unknown : Candidate := ⟨UNKNOWN_ADDR, UNKNOWN_RING, 0⟩

/-- The two entries of its three arrays. -/
structure ClusterheadCandidates where
  top : Candidate
  second : Candidate
  deriving DecidableEq

def ClusterheadCandidates.reset : ClusterheadCandidates := ⟨.unknown, .unknown⟩

def ClusterheadCandidates.update (address : Address) (ring : Ring) (score : UInt32)
    (c : ClusterheadCandidates) : ClusterheadCandidates :=
  if c.top.score < score then ⟨⟨address, ring, score⟩, c.top⟩
  else if c.second.score < score then ⟨c.top, ⟨address, ring, score⟩⟩
  else c

structure AnnounceLocals where
  isClusterhead : Bool
  needToAnnounce : Bool
  phaseDeadline : MsDeadline
  announceDeadline : MsDeadline
  candidates : ClusterheadCandidates

def volunteers (rand : UInt32) (eligibleRing : Ring) (s : MultihopState) : Bool :=
  if s.ring = eligibleRing then decide (s.role = .gateway) || announceClusterhead rand s else false

def withRole (role : Role) (n : Node) : Node := { n with state := { n.state with role := role } }

def startAnnouncement (inp : Input) (durationMs : UInt32) (eligibleRing : Ring) (earlier : Bool)
    (n : Node) : AnnounceLocals × Node :=
  let isClusterhead := volunteers (inp.rand 0) eligibleRing n.state
  let n :=
    if isClusterhead && !earlier then
      prepareClusterhead (if n.state.role ≠ .gateway then withRole .clusterhead n else n)
    else n
  (⟨isClusterhead, isClusterhead && !earlier, MsDeadline.create durationMs (inp.millis 1),
    MsDeadline.create (randDelayMs (inp.rand 1) 0 durationMs) (inp.millis 2), .reset⟩, n)

def announceCluster (inp : Input) (l : AnnounceLocals) (n : Node) :
    AnnounceLocals × Node × List Queue.Frame :=
  if l.needToAnnounce && l.announceDeadline.reached (inp.millis 1) then
    let (rc, n) := openCluster (inp.now 1) n
    if rc = .ok then
      let (rc, n, frames) := Sending.flush (inp.now 2) inp.sent n
      ({ l with needToAnnounce := decide (rc ≠ .ok) }, n, frames)
    else ({ l with needToAnnounce := true }, n, [])
  else (l, n, [])

/-- What the loop of the announcement does with one message. -/
def hearPeer (s : MultihopState) (l : AnnounceLocals) (b : Bytes) : AnnounceLocals :=
  match decodeMsg b with
  | some (⟨_, src, .openCluster ring _ neighbors⟩, _) =>
      if src = s.address then l
      else
        let l := { l with candidates := l.candidates.update src ring (neighbors.score ring) }
        if l.isClusterhead = true ∧ ring = s.ring ∧ (l.needToAnnounce = true ∨ s.address < src) then
          { l with isClusterhead := false, needToAnnounce := false }
        else l
  | _ => l

def announcementPass (inp : Input) (l : AnnounceLocals) (n : Node) :
    AnnounceLocals × Node × List Queue.Frame :=
  let (_, n) := recv (inp.now 0) inp.arrival n
  let (l, n, frames) := announceCluster inp l n
  (n.link.rx.foldl (hearPeer n.state) l, drained n, frames)

structure JoinLocals where
  eligibleFollower : Bool
  targetNode : Address
  targetRing : Ring
  tryToFollow : Bool
  joined : Bool
  triedSecond : Bool
  followDeadline : MsDeadline
  phaseDeadline : MsDeadline
  candidates : ClusterheadCandidates

/-- A candidate as a target: only one strictly closer to the gateway than a known own ring. -/
def closer (s : MultihopState) (c : Candidate) : Address × Ring :=
  if UNKNOWN_RING ≠ s.ring ∧ s.ring ≤ c.ring then (UNKNOWN_ADDR, UNKNOWN_RING)
  else (c.address, c.ring)

def startJoining (inp : Input) (durationMs : UInt32) (candidates : ClusterheadCandidates)
    (s : MultihopState) : JoinLocals where
  eligibleFollower := s.actsAsFollower
  targetNode := (closer s candidates.top).1
  targetRing := (closer s candidates.top).2
  tryToFollow := s.actsAsFollower
  joined := false
  triedSecond := false
  followDeadline := MsDeadline.create (randDelayMs (inp.rand 0) 0 (durationMs / 2)) (inp.millis 1)
  phaseDeadline := MsDeadline.create durationMs (inp.millis 2)
  candidates := candidates

/-- The head of the joining loop, up to its `recv`. -/
def joinHead (inp : Input) (l : JoinLocals) (n : Node) : JoinLocals × Node × List Queue.Frame :=
  if l.tryToFollow && l.followDeadline.reached (inp.millis 1) then
    let l := { l with tryToFollow := false }
    if l.targetNode ≠ UNKNOWN_ADDR then
      let (_, n) := follow l.targetNode (inp.now 0) n
      let (_, n, frames) := Sending.flush (inp.now 1) inp.sent n
      (l, n, frames)
    else (l, n, [])
  else (l, n, [])

/-- What a clusterhead does with a message of the joining loop. -/
def answerFollow (inp : Input) (isClusterhead : Bool) (m : Message) (n : Node) :
    Node × List Queue.Frame :=
  match m.body with
  | .follow clusterhead _ =>
      if isClusterhead = true ∧ clusterhead = n.state.address then
        let (_, n) := accept m.src (inp.now 0) (inp.now 1) n
        let (_, n, frames) := Sending.flush (inp.now 2) inp.sent n
        (n, frames)
      else (n, [])
  | _ => (n, [])

def attach (l : JoinLocals) (startSlot relativeSlot : UInt8) (n : Node) : Node :=
  { n with
    state :=
      { n.state with
        clusterheadRing := l.targetRing
        clusterheadAddr := l.targetNode
        upstreamStartSlot := startSlot
        upstreamRelativeSlot := relativeSlot
        upstreamAckSlot := startSlot + vtdmaWindowSize n.mac - 1 } }

/-- The promotion that follows, on the value of `rand()`. -/
def promote (rand : UInt32) (n : Node) : Node :=
  if n.state.actsAsClusterhead = false ∧ announceClusterhead rand n.state = true then
    prepareClusterhead (withRole .clusterhead n)
  else n

def trySecond (inp : Input) (durationMs : UInt32) (s : MultihopState) (l : JoinLocals) :
    JoinLocals :=
  if l.triedSecond then l
  else
    let l :=
      { l with
        targetNode := (closer s l.candidates.second).1
        targetRing := (closer s l.candidates.second).2
        triedSecond := true }
    if l.targetNode ≠ UNKNOWN_ADDR then
      { l with
        tryToFollow := true
        followDeadline :=
          MsDeadline.create (randDelayMs (inp.rand 0) 0 (durationMs / 3)) (inp.millis 0) }
    else l

/-- What a follower does with a message of the joining loop; the flag ends the inner loop. -/
def join (inp : Input) (l : JoinLocals) (m : Message) (n : Node) (durationMs : UInt32) :
    Bool × JoinLocals × Node :=
  match m.body with
  | .accept accepted follower startSlot relativeSlot _ =>
      if l.joined = false ∧ l.eligibleFollower = true ∧ m.src = l.targetNode ∧
          follower = n.state.address then
        if accepted ≠ 0 then
          (false, { l with joined := true },
            promote (inp.rand 0) (attach l startSlot relativeSlot n))
        else (true, trySecond inp durationMs n.state l, n)
      else (false, l, n)
  | _ => (false, l, n)

/-- Where the joining loop stands: before its condition, before its `recv`, or among the
messages received. -/
inductive Stage
  | head | recv | drain
  deriving DecidableEq

/-- Where a node stands in the superframe's `do_advertise`. -/
inductive Control
  | idle
  | discovery (l : DiscoveryLocals)
  | announcement (round : Nat) (earlier : Bool) (l : AnnounceLocals)
  | joining (stage : Stage) (round : Nat) (isClusterhead : Bool) (l : JoinLocals)
  | done

def Control.isDone : Control → Bool
  | .done => true
  | _ => false

def Control.started : Control → Bool
  | .idle => false
  | _ => true

structure Proc where
  control : Control
  node : Node

def totalMs (mac : MacParams) : UInt32 := mac.slotDuration * 1000

def discoveryMs (mac : MacParams) : UInt32 := totalMs mac * 2 / 5

def roundMs (mac : MacParams) : UInt32 :=
  (totalMs mac - discoveryMs mac) / UInt32.ofNat (NUM_ADV_ROUNDS * 2)

def resetCluster (n : Node) : Node :=
  let s := n.state
  { Slots.setCdmaCode DEFAULT_CODE n with
    state :=
      { s with
        role := if s.role ≠ .gateway then .follower else s.role
        clusterheadAddr := UNKNOWN_ADDR
        clusterheadRing := UNKNOWN_RING
        upstreamStartSlot := 0
        upstreamRelativeSlot := 0
        upstreamAckSlot := 0
        acks := fun i => if i < s.slotCount then 0 else s.acks i } }

def startAdvertise (inp : Input) (n : Node) : Proc :=
  let (l, n) := startDiscovery inp (discoveryMs n.mac) (resetCluster n)
  ⟨.discovery l, n⟩

def startRound (inp : Input) (round : Nat) (earlier : Bool) (n : Node) : Proc :=
  let (l, n) := startAnnouncement inp (roundMs n.mac) (UInt8.ofNat round) earlier n
  ⟨.announcement round earlier l, n⟩

def finishAdvertise (n : Node) : Proc :=
  let s := n.state
  ⟨.done,
    { n with
      state :=
        { s with
          chCredit :=
            if s.role ≠ .gateway then
              if s.actsAsClusterhead then 0
              else if s.chCredit < 255 then s.chCredit + 1 else s.chCredit
            else s.chCredit } }⟩

def joinMessage (inp : Input) (round : Nat) (isClusterhead : Bool) (l : JoinLocals) (n : Node) :
    Proc × List Queue.Frame :=
  let (msg, link) := Queue.getmsg n.link
  let n := { n with link := link }
  match msg.bind decodeMsg with
  | none => (⟨.joining .head round isClusterhead l, n⟩, [])
  | some (m, _) =>
      let (n, frames) := answerFollow inp isClusterhead m n
      let (stop, l, n) := join inp l m n (roundMs n.mac)
      (⟨.joining (if stop then .head else .drain) round isClusterhead l, n⟩, frames)

/-- One step of a node: a pass of the loop it is in, or the way to the next loop. -/
def step (inp : Input) (p : Proc) : Proc × List Queue.Frame :=
  match p.control with
  | .idle =>
      let (slot, n) := Slots.activeSlot (inp.now 0) p.node
      if slot ≠ ADVERTISEMENT_SLOT.toNat then (⟨.idle, n⟩, []) else (startAdvertise inp n, [])
  | .discovery l =>
      if l.phaseDeadline.reached (inp.millis 0) then (startRound inp 0 false p.node, [])
      else
        let (l, n, frames) := discoveryPass inp l p.node
        (⟨.discovery l, n⟩, frames)
  | .announcement round earlier l =>
      if l.phaseDeadline.reached (inp.millis 0) then
        (⟨.joining .head round (earlier || l.isClusterhead)
          (startJoining inp (roundMs p.node.mac) l.candidates p.node.state), p.node⟩, [])
      else
        let (l, n, frames) := announcementPass inp l p.node
        (⟨.announcement round earlier l, n⟩, frames)
  | .joining .head round isClusterhead l =>
      if l.phaseDeadline.reached (inp.millis 0) then
        (if round + 1 < NUM_ADV_ROUNDS then startRound inp (round + 1) isClusterhead p.node
          else finishAdvertise p.node, [])
      else
        let (l, n, frames) := joinHead inp l p.node
        (⟨.joining .recv round isClusterhead l, n⟩, frames)
  | .joining .recv round isClusterhead l =>
      (⟨.joining .drain round isClusterhead l, (recv (inp.now 0) inp.arrival p.node).2⟩, [])
  | .joining .drain round isClusterhead l => joinMessage inp round isClusterhead l p.node
  | .done => (p, [])

def run (inps : List Input) (p : Proc) : Proc := inps.foldl (fun p inp => (step inp p).1) p

private theorem openCluster_state (stamp : UInt32) (n : Node) :
    (openCluster stamp n).2.state = n.state := by
  rw [openCluster]
  split <;> rfl

private theorem follow_state (clusterhead : Address) (stamp : UInt32) (n : Node) :
    (follow clusterhead stamp n).2.state = n.state := by
  rw [follow]
  split <;> rfl

theorem announceCluster_state (inp : Input) (l : AnnounceLocals) (n : Node) :
    (announceCluster inp l n).2.1.state = n.state := by
  rw [announceCluster]
  dsimp only
  split_ifs
  · exact (flush_state ..).trans (openCluster_state ..)
  · exact openCluster_state ..
  · rfl

theorem announceCluster_rx (inp : Input) (l : AnnounceLocals) (n : Node) :
    (announceCluster inp l n).2.1.link.rx = n.link.rx := by
  have hopen : (openCluster (inp.now 1) n).2.link.rx = n.link.rx := by
    rw [openCluster]
    split_ifs
    · rfl
    · exact send_rx ..
  rw [announceCluster]
  dsimp only
  split_ifs
  · exact (flush_rx ..).trans hopen
  · exact hopen
  · rfl

theorem announceCluster_candidates (inp : Input) (l : AnnounceLocals) (n : Node) :
    (announceCluster inp l n).1.candidates = l.candidates := by
  rw [announceCluster]
  dsimp only
  split_ifs <;> rfl

/-- A pass receives, announces the cluster if that is due, and then hears the peers. -/
theorem announcementPass_eq (inp : Input) (l : AnnounceLocals) (n : Node) :
    announcementPass inp l n =
      let r := announceCluster inp l (recv (inp.now 0) inp.arrival n).2
      (r.2.1.link.rx.foldl (hearPeer r.2.1.state) r.1, drained r.2.1, r.2.2) :=
  rfl

theorem announcementPass_state (inp : Input) (l : AnnounceLocals) (n : Node) :
    (announcementPass inp l n).2.1.state = n.state := by
  rw [announcementPass_eq]
  exact announceCluster_state inp l _

theorem joinHead_state (inp : Input) (l : JoinLocals) (n : Node) :
    (joinHead inp l n).2.1.state = n.state := by
  rw [joinHead]
  dsimp only
  split_ifs
  · exact (flush_state ..).trans (follow_state ..)
  · rfl
  · rfl

theorem joinHead_locals (inp : Input) (l : JoinLocals) (n : Node) :
    (joinHead inp l n).1 = l ∨ (joinHead inp l n).1 = { l with tryToFollow := false } := by
  rw [joinHead]
  dsimp only
  split_ifs
  · exact Or.inr rfl
  · exact Or.inr rfl
  · exact Or.inl rfl

/-- A clusterhead that answers a Follow changes its table at most. -/
theorem answerFollow_state (inp : Input) (isClusterhead : Bool) (m : Message) (n : Node) :
    (answerFollow inp isClusterhead m n).1.state = n.state ∨
      isClusterhead = true ∧
        (answerFollow inp isClusterhead m n).1.state = (assign m.src n).state := by
  rw [answerFollow]
  split
  · dsimp only
    split_ifs with hmine
    · rw [flush_state]
      by_cases hi : n.state.initialized = true
      · exact Or.inr ⟨hmine.1, by rw [accept_snd _ _ hi, send_state]⟩
      · exact Or.inl (by rw [accept, if_pos (Bool.eq_false_iff.mpr hi)])
    · exact Or.inl rfl
  · exact Or.inl rfl

theorem assign_kept (follower : Address) (n : Node) :
    ∃ table count, (assign follower n).state =
      { n.state with slotAssignments := table, slotsAssigned := count } := by
  rw [assign]
  split
  · exact ⟨_, _, rfl⟩
  · exact ⟨_, _, rfl⟩

/-- A follower ignores a message, is refused by its target, or accepted by it. -/
theorem join_cases (inp : Input) (l : JoinLocals) (m : Message) (n : Node) (durationMs : UInt32) :
    join inp l m n durationMs = (false, l, n) ∨
      l.eligibleFollower = true ∧
          join inp l m n durationMs = (true, trySecond inp durationMs n.state l, n) ∨
        ∃ accepted start relative remote,
          m.body = .accept accepted n.state.address start relative remote ∧ accepted ≠ 0 ∧
            m.src = l.targetNode ∧ l.eligibleFollower = true ∧ l.joined = false ∧
            join inp l m n durationMs =
              (false, { l with joined := true },
                promote (inp.rand 0) (attach l start relative n)) := by
  rw [join]
  split
  · next accepted follower start relative remote hbody =>
    split_ifs with hmine haccepted
    · obtain ⟨hjoined, heligible, hsrc, rfl⟩ := hmine
      exact Or.inr (Or.inr ⟨_, _, _, _, hbody, haccepted, hsrc, heligible, hjoined, rfl⟩)
    · exact Or.inr (Or.inl ⟨hmine.2.1, rfl⟩)
    · exact Or.inl rfl
  · exact Or.inl rfl

theorem promote_cases (rand : UInt32) (n : Node) :
    promote rand n = n ∨
      n.state.actsAsClusterhead = false ∧ announceClusterhead rand n.state = true ∧
        promote rand n = prepareClusterhead (withRole .clusterhead n) := by
  rw [promote]
  split_ifs with h
  · exact Or.inr ⟨h.1, h.2, rfl⟩
  · exact Or.inl rfl

/-- The link layer has no part in a join. -/
theorem join_link (inp : Input) (l : JoinLocals) (m : Message) (n : Node) (durationMs : UInt32) :
    (join inp l m n durationMs).2.2.link = n.link := by
  rcases join_cases inp l m n durationMs with heq | ⟨-, heq⟩ |
    ⟨accepted, start, relative, remote, -, -, -, -, -, heq⟩
  · rw [heq]
  · rw [heq]
  · rw [heq]
    rcases promote_cases (inp.rand 0) (attach l start relative n) with hp | ⟨-, -, hp⟩
    · rw [hp]
      rfl
    · rw [hp]
      rfl

def announces (inp : Input) (l : AnnounceLocals) (n : Node) : Bool :=
  l.needToAnnounce && l.announceDeadline.reached (inp.millis 1) &&
    decide ((openCluster (inp.now 1) n).1 = .ok) &&
      decide ((Sending.flush (inp.now 2) inp.sent (openCluster (inp.now 1) n).2).1 = .ok)

theorem announceCluster_locals (inp : Input) (l : AnnounceLocals) (n : Node) :
    (announceCluster inp l n).1.isClusterhead = l.isClusterhead ∧
      (announceCluster inp l n).1.needToAnnounce = (l.needToAnnounce && !announces inp l n) := by
  rw [announceCluster, announces]
  dsimp only
  by_cases hdue : (l.needToAnnounce && l.announceDeadline.reached (inp.millis 1)) = true
  · have hneed := (Bool.and_eq_true_iff.mp hdue).1
    rw [if_pos hdue, hdue]
    split_ifs with hopen
    · refine ⟨rfl, ?_⟩
      simp [hneed, hopen]
    · exact ⟨rfl, by simp [hneed, hopen]⟩
  · rw [if_neg hdue, Bool.eq_false_iff.mpr hdue]
    exact ⟨rfl, by simp⟩

private theorem hearPeer_locals (s : MultihopState) (l : AnnounceLocals) (b : Bytes) :
    (hearPeer s l b).isClusterhead = l.isClusterhead ∧
        (hearPeer s l b).needToAnnounce = l.needToAnnounce ∨
      l.isClusterhead = true ∧ (hearPeer s l b).isClusterhead = false ∧
        (hearPeer s l b).needToAnnounce = false := by
  rw [hearPeer]
  split
  · dsimp only
    split_ifs with hsrc hyield
    · exact Or.inl ⟨rfl, rfl⟩
    · exact Or.inr ⟨hyield.1, rfl, rfl⟩
    · exact Or.inl ⟨rfl, rfl⟩
  · exact Or.inl ⟨rfl, rfl⟩

theorem hearPeers_locals (s : MultihopState) (l : AnnounceLocals) (msgs : List Bytes) :
    (msgs.foldl (hearPeer s) l).isClusterhead = l.isClusterhead ∧
        (msgs.foldl (hearPeer s) l).needToAnnounce = l.needToAnnounce ∨
      l.isClusterhead = true ∧ (msgs.foldl (hearPeer s) l).isClusterhead = false ∧
        (msgs.foldl (hearPeer s) l).needToAnnounce = false := by
  induction msgs generalizing l with
  | nil => exact Or.inl ⟨rfl, rfl⟩
  | cons b msgs ih =>
      rw [List.foldl_cons]
      rcases hearPeer_locals s l b with ⟨hch, hneed⟩ | ⟨hch, hch', hneed'⟩
      · have hnext := ih (hearPeer s l b)
        rwa [hch, hneed] at hnext
      · rcases ih (hearPeer s l b) with ⟨h1, h2⟩ | ⟨h1, -⟩
        · exact Or.inr ⟨hch, h1.trans hch', h2.trans hneed'⟩
        · rw [hch'] at h1
          exact absurd h1 (by simp)

/-- A pass leaves the announcement due, makes it, or withdraws it. -/
theorem announcementPass_locals (inp : Input) (l : AnnounceLocals) (n : Node) :
    (announcementPass inp l n).1.isClusterhead = l.isClusterhead ∧
        (announcementPass inp l n).1.needToAnnounce =
          (l.needToAnnounce && !announces inp l (recv (inp.now 0) inp.arrival n).2) ∨
      l.isClusterhead = true ∧ (announcementPass inp l n).1.isClusterhead = false ∧
        (announcementPass inp l n).1.needToAnnounce = false := by
  obtain ⟨hch, hneed⟩ := announceCluster_locals inp l (recv (inp.now 0) inp.arrival n).2
  have hpeers := hearPeers_locals
    (announceCluster inp l (recv (inp.now 0) inp.arrival n).2).2.1.state
    (announceCluster inp l (recv (inp.now 0) inp.arrival n).2).1
    (announceCluster inp l (recv (inp.now 0) inp.arrival n).2).2.1.link.rx
  rw [hch, hneed] at hpeers
  rw [announcementPass_eq]
  exact hpeers

/-- No pass makes a node volunteer, or makes its announcement due. -/
theorem announcementPass_not_raised (inp : Input) (l : AnnounceLocals) (n : Node) :
    ((announcementPass inp l n).1.isClusterhead = true → l.isClusterhead = true) ∧
      ((announcementPass inp l n).1.needToAnnounce = true → l.needToAnnounce = true) := by
  rcases announcementPass_locals inp l n with ⟨hch, hneed⟩ | ⟨hch, -, hneed⟩
  · refine ⟨fun h => hch ▸ h, ?_⟩
    intro h
    exact (Bool.and_eq_true_iff.mp (hneed ▸ h)).1
  · refine ⟨fun _ => hch, ?_⟩
    intro h
    exact absurd (hneed.symm.trans h) (by simp)

/-- What discovery alone decides. -/
def ranking (s : MultihopState) : Address × Ring × UInt8 :=
  (s.address, s.ring, s.roundsWithoutLower)

private theorem startRound_ranking (inp : Input) (round : Nat) (earlier : Bool) (n : Node) :
    ranking (startRound inp round earlier n).node.state = ranking n.state := by
  rw [startRound, startAnnouncement]
  dsimp only
  split_ifs <;> rfl

theorem answerFollow_ranking (inp : Input) (isClusterhead : Bool) (m : Message) (n : Node) :
    ranking (answerFollow inp isClusterhead m n).1.state = ranking n.state := by
  rcases answerFollow_state inp isClusterhead m n with hs | ⟨-, hs⟩
  · rw [hs]
  · obtain ⟨table, count, hkept⟩ := assign_kept m.src n
    rw [hs, hkept]
    rfl

private theorem joinMessage_ranking (inp : Input) (round : Nat) (isClusterhead : Bool)
    (l : JoinLocals) (n : Node) :
    ranking (joinMessage inp round isClusterhead l n).1.node.state = ranking n.state := by
  have hjoin (m : Message) (n : Node) (durationMs : UInt32) :
      ranking (join inp l m n durationMs).2.2.state = ranking n.state := by
    rcases join_cases inp l m n durationMs with h | ⟨-, h⟩ |
      ⟨accepted, start, relative, remote, -, -, -, -, -, h⟩
    · rw [h]
    · rw [h]
    · rw [h]
      rcases promote_cases (inp.rand 0) (attach l start relative n) with hp | ⟨-, -, hp⟩ <;>
        rw [hp] <;> rfl
  rw [joinMessage]
  dsimp only
  split
  · rfl
  · dsimp only
    rw [hjoin, answerFollow_ranking]

/-- No step but a pass of discovery changes the ring or its counter. -/
theorem step_ranking {inp : Input} {p : Proc} (h : ∀ l, p.control ≠ .discovery l) :
    ranking (step inp p).1.node.state = ranking p.node.state := by
  obtain ⟨control, n⟩ := p
  cases control with
  | idle =>
      rw [step]
      dsimp only
      split_ifs <;> rfl
  | discovery l => exact absurd rfl (h l)
  | announcement round earlier l =>
      rw [step]
      dsimp only
      split_ifs
      · rfl
      · exact congrArg ranking (announcementPass_state inp l n)
  | joining stage round isClusterhead l =>
      cases stage with
      | head =>
          rw [step]
          dsimp only
          split_ifs
          · exact startRound_ranking ..
          · rfl
          · exact congrArg ranking (joinHead_state inp l n)
      | recv => rfl
      | drain => exact joinMessage_ranking ..
  | done => rfl

section Traffic

variable {P : Bytes → Prop} {n : Node}

theorem recv_carries (h : Carries P n) (now : UInt32) (arrival : Queue.Arrival) :
    Carries P (recv now arrival n).2 := fun b hb => h b ((recv_link now arrival n).1 ▸ hb)

private theorem announceCluster_carries (inp : Input) {l : AnnounceLocals} (h : Carries P n)
    (hopen : l.needToAnnounce = true → ∀ stamp, P (Message.toBytes
      ⟨stamp, n.state.address, .openCluster n.state.ring n.state.address n.state.neighbors⟩)) :
    Carries P (announceCluster inp l n).2.1 ∧
      ∀ f ∈ (announceCluster inp l n).2.2, ∀ b ∈ f.msgs, P b := by
  rw [announceCluster]
  dsimp only
  by_cases hdue : (l.needToAnnounce && l.announceDeadline.reached (inp.millis 1)) = true
  · have hqueued : Carries P (openCluster (inp.now 1) n).2 := by
      rw [openCluster]
      split_ifs
      · exact h
      · exact h.send (by
          rw [List.append_nil]
          exact hopen (Bool.and_eq_true_iff.mp hdue).1 _)
    rw [if_pos hdue]
    split_ifs
    · exact hqueued.flush _ _
    · exact ⟨hqueued, fun f hf => absurd hf List.not_mem_nil⟩
  · rw [if_neg hdue]
    exact ⟨h, fun f hf => absurd hf List.not_mem_nil⟩

theorem announcementPass_carries (inp : Input) {l : AnnounceLocals} (h : Carries P n)
    (hopen : l.needToAnnounce = true → ∀ stamp, P (Message.toBytes
      ⟨stamp, n.state.address, .openCluster n.state.ring n.state.address n.state.neighbors⟩)) :
    Carries P (announcementPass inp l n).2.1 ∧
      ∀ f ∈ (announcementPass inp l n).2.2, ∀ b ∈ f.msgs, P b := by
  have hrecv := recv_carries h (inp.now 0) inp.arrival
  have hdrained (n : Node) (hn : Carries P n) : Carries P (drained n) := hn
  obtain ⟨hqueue, hframes⟩ := announceCluster_carries inp hrecv hopen
  rw [announcementPass_eq]
  exact ⟨hdrained _ hqueue, hframes⟩

theorem joinHead_carries (inp : Input) {l : JoinLocals} (h : Carries P n)
    (hfollow : l.tryToFollow = true → l.targetNode ≠ UNKNOWN_ADDR → ∀ stamp, P (Message.toBytes
      ⟨stamp, n.state.address, .follow l.targetNode n.state.address⟩)) :
    Carries P (joinHead inp l n).2.1 ∧ ∀ f ∈ (joinHead inp l n).2.2, ∀ b ∈ f.msgs, P b := by
  rw [joinHead]
  dsimp only
  split_ifs with hdue htarget
  · have hqueued : Carries P (follow l.targetNode (inp.now 0) n).2 := by
      rw [follow]
      split_ifs
      · exact h
      · exact h.send (by
          rw [List.append_nil]
          exact hfollow (Bool.and_eq_true_iff.mp hdue).1 htarget _)
    exact hqueued.flush _ _
  · exact ⟨h, fun f hf => absurd hf List.not_mem_nil⟩
  · exact ⟨h, fun f hf => absurd hf List.not_mem_nil⟩

theorem joinHead_rx (inp : Input) (l : JoinLocals) (n : Node) :
    (joinHead inp l n).2.1.link.rx = n.link.rx := by
  have hfollow : (follow l.targetNode (inp.now 0) n).2.link.rx = n.link.rx := by
    rw [follow]
    split_ifs
    · rfl
    · exact send_rx ..
  rw [joinHead]
  dsimp only
  split_ifs
  · exact (flush_rx ..).trans hfollow
  · rfl
  · rfl

theorem accept_carries {follower : Address} (h : Carries P n) (remote stamp : UInt32)
    (hi : n.state.initialized = true) (hmsg : P (acceptMessage follower remote stamp n).toBytes) :
    Carries P (accept follower remote stamp n).2 := by
  have hassign : Carries P (assign follower n) := by
    rw [assign]
    split_ifs <;> exact h
  rcases accept_cases follower remote stamp hi with ⟨heq, -⟩ | ⟨heq, -⟩
  · rw [heq]
    exact hassign.push hmsg
  · rwa [heq]

theorem accept_rx {follower : Address} {n : Node} (remote stamp : UInt32)
    (hi : n.state.initialized = true) :
    (accept follower remote stamp n).2.link.rx = n.link.rx := by
  rw [accept_snd remote stamp hi, send_rx, assign]
  split_ifs <;> rfl

/-- A clusterhead sends and queues the answer to a Follow that names it. -/
theorem answerFollow_cases (inp : Input) (isClusterhead : Bool) (m : Message) (n : Node) :
    answerFollow inp isClusterhead m n = (n, []) ∨
      ∃ follower, m.body = .follow n.state.address follower ∧ isClusterhead = true ∧
        answerFollow inp isClusterhead m n =
          ((Sending.flush (inp.now 2) inp.sent (accept m.src (inp.now 0) (inp.now 1) n).2).2.1,
            (Sending.flush (inp.now 2) inp.sent
              (accept m.src (inp.now 0) (inp.now 1) n).2).2.2) := by
  rw [answerFollow]
  split
  · next clusterhead follower hbody =>
    split_ifs with hmine
    · exact Or.inr ⟨follower, by rw [hbody, hmine.2], hmine.1, rfl⟩
    · exact Or.inl rfl
  · exact Or.inl rfl

end Traffic

end LoraMultihop.Multihop.Advertise
